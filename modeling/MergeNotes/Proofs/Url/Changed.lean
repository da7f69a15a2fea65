import MergeNotes.Proofs.Text.Form
import MergeNotes.Proofs.Url.Parse

/-! URLs of the web with more in the query, or without what a server is not shown: they can be
written as well as the URLs that they come from. -/

namespace MergeNotes

/-- A form is written in the characters of a query. -/
theorem Form.isQueryChar_of_mem_encode {pairs : List (String × String)} {c : Char}
    (member : c ∈ Form.encode pairs) : Url.isQueryChar c = true := by
  have written := isFormChar_of_mem_encode member
  have ascii := ascii_of_isFormChar written
  -- Each of the few characters that forms are written in may stand in a query.
  revert written
  exact @forall_ascii (fun c => Form.isFormChar c = true → Url.isQueryChar c = true)
    (by decide +kernel) c ascii

/-- Joined texts are as long as any of them, or longer. -/
theorem length_le_intercalate {between text : List Char} {texts : List (List Char)}
    (member : text ∈ texts) : text.length ≤ (between.intercalate texts).length := by
  induction texts with
  | nil => simp at member
  | cons head texts ih =>
    cases texts with
    | nil => rw [List.intercalate_singleton, List.mem_singleton.1 member]
    | cons next texts =>
      rw [List.intercalate_cons_cons, List.length_append, List.length_append]
      -- The text is the first one, or among the others by induction.
      rcases List.mem_cons.1 member with rfl | member
      · omega
      · have later := ih member
        omega

/-- Each character of a text takes at least one in a form. -/
theorem Form.length_le_encodeText (text : List Char) : text.length ≤ (encodeText text).length := by
  induction text with
  | nil => exact Nat.zero_le _
  | cons c text ih =>
    -- A space becomes a plus, and anything else is kept or escaped.
    have present : encodeChar c ≠ [] := by
      unfold encodeChar
      split
      · simp
      · exact Percent.encodeChar_ne_nil
    have positive := List.length_pos_iff.2 present
    rw [encodeText] at ih ⊢
    rw [List.flatMap_cons, List.length_append, List.length_cons]
    omega

/-- A form is no shorter than any value in it. -/
theorem Form.length_le_encode {pairs : List (String × String)} {name value : String}
    (member : (name, value) ∈ pairs) : value.toList.length ≤ (encode pairs).length := by
  -- The value stands in its pair, and the pair in the form.
  have whole : (encodePair name value).length ≤ (encode pairs).length := by
    unfold encode
    exact length_le_intercalate (List.mem_map.2 ⟨(name, value), member, rfl⟩)
  have inside := length_le_encodeText value.toList
  rw [encodePair, List.length_append, List.length_cons] at whole
  omega

namespace Url

variable {port : Nat} {url : Url}

/-- A URL stays one of the web with more text in its query. -/
theorem IsRead.addQuery (good : url.IsRead port) {more : List Char}
    (plain : ∀ c ∈ more, isQueryChar c = true) : (url.addQuery more).IsRead port := by
  refine ⟨good.scheme, good.authority, good.path, ?_, good.fragment⟩
  intro query same c member
  rw [Url.addQuery, Option.mem_def, Option.some.injEq] at same
  subst same
  split at member
  · exact plain c member
  · exact plain c member
  · rename_i query _ known
    -- The old query comes first, and an ampersand before the new one.
    rcases List.mem_append.1 member with old | new
    · exact good.query query known c old
    · rcases List.mem_cons.1 new with rfl | new
      · decide
      · exact plain c new

/-- What is added to a query stands in it. -/
theorem exists_query_of_addQuery (url : Url) (more : List Char) :
    ∃ query, (url.addQuery more).query = some query ∧ more.length ≤ query.length := by
  refine ⟨_, rfl, ?_⟩
  split
  · exact Nat.le_refl _
  · exact Nat.le_refl _
  · rw [List.length_append, List.length_cons]
    omega

theorem IsRead.withoutCredentials (good : url.IsRead port) :
    url.withoutCredentials.IsRead port := by
  obtain ⟨authority, named, known⟩ := good.authority
  -- Only the credentials are gone, of which nothing is asked but what they are written in.
  refine ⟨good.scheme, ⟨{ authority with credentials := none }, ?_, by simp, known.host,
    known.port⟩, good.path, good.query, good.fragment⟩
  rw [Url.withoutCredentials, named]
  rfl

/-- Whether credentials are read for a header or not, they are gone from what is shown. -/
theorem withoutCredentials_withoutReadableCredentials (url : Url) :
    url.withoutReadableCredentials.withoutCredentials = url.withoutCredentials := by
  unfold withoutReadableCredentials
  split
  · unfold withoutCredentials
    cases url.authority <;> rfl
  · rfl

/-- What a server is shown of a URL: neither the credentials in it nor the fragment. -/
def shown (url : Url) : Url :=
  { url.withoutCredentials with fragment := none }

theorem text_shown (url : Url) :
    url.shown.text = String.ofList url.withoutCredentials.withoutFragment := by
  rw [text, shown, Option.elim_none, List.append_nil]
  rfl

theorem host?_shown (url : Url) : url.shown.host? = url.host? := by
  unfold shown withoutCredentials host?
  rcases url.authority with _ | ⟨credentials, _ | _, port⟩ <;> rfl

theorem port_shown (url : Url) :
    url.shown.authority.bind (·.port) = url.authority.bind (·.port) := by
  unfold shown withoutCredentials
  cases url.authority <;> rfl

/-- Of what is shown, all is shown again. -/
theorem text_shown_shown (url : Url) : url.shown.shown.text = url.shown.text := by
  unfold shown withoutCredentials
  cases url.authority <;> rfl

theorem IsRead.shown (good : url.IsRead port) : url.shown.IsRead port :=
  let hidden := good.withoutCredentials
  ⟨hidden.scheme, hidden.authority, hidden.path, hidden.query, by simp [Url.shown]⟩

end Url

end MergeNotes
