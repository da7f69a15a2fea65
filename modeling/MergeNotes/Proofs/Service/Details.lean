import Mathlib.Data.List.Find
import MergeNotes.Proofs.Json.Blames
import MergeNotes.Proofs.Json.Wording
import MergeNotes.Proofs.Result
import MergeNotes.Proofs.Service.Envelopes

/-! What the refusal of a body says about the field at fault: the path to it and a hint are read off
the words, and among these are words of the sender. -/

namespace MergeNotes

open Json (Cursor Error Fields Format KeyFormat Mismatch Segment)

/-! Hints. -/

/-- The hint where an array was expected. -/
def arrayHint : String :=
  "Expected an array for this field (e.g. [\"item1\", \"item2\"])."

/-- The hint where an object was expected. -/
def objectHint : String :=
  "Expected a JSON object here (e.g. \x7b \"field\": \"value\" \x7d)."

/-- The hint where a field is missing. -/
def absenceHint : String :=
  "A required field is absent from the request body."

/-- The hint where a name was not known. -/
def variantHint : String :=
  "Enum values are SCREAMING_SNAKE_CASE (e.g. \"OK\", \"NO_VALUE\")."

/-- The hints in the order in which they are looked for, each with the words that call for it. -/
def hints : List (List String × String) :=
  [(["expected a sequence"], arrayHint), (["expected a map", "expected struct"], objectHint),
    (["missing field"], absenceHint), (["unknown variant"], variantHint)]

/-- One of some texts holds words that call for a hint. -/
def callsFor (texts : List String) (hint : List String × String) : Bool :=
  hint.1.any fun words => texts.any (mentions · words)

/-- The first hint that one of some texts calls for. -/
def hintAmong (texts : List String) : Option String :=
  (hints.find? (callsFor texts)).map (·.2)

theorem rejectionHint?_eq (message : String) : rejectionHint? message = hintAmong [message] := by
  unfold rejectionHint? hintAmong hints callsFor
  simp only [List.find?_cons, List.any_cons, List.any_nil, Bool.or_false, List.find?_nil]
  cases mentions message "expected a sequence" <;> cases mentions message "expected a map" <;>
    cases mentions message "expected struct" <;> cases mentions message "missing field" <;>
    cases mentions message "unknown variant" <;> rfl

/-- The hint for a kind of mismatch. -/
def Json.Mismatch.hint? : Mismatch → Option String
  | .wrongType _ expected | .wrongValue _ expected | .wrongLength _ expected =>
    if expected = "a sequence" then some arrayHint
    else if expected = "a map" ∨ "struct".toList <+: expected.toList then some objectHint
    else none
  | .missingField _ => some absenceHint
  | .unknownVariant .. => some variantHint
  | .duplicateField _ => none

/-- A mismatch whose own words call for the hint that its kind has. -/
def Json.Mismatch.IsPlain (mismatch : Mismatch) : Prop :=
  hintAmong mismatch.ownWords = mismatch.hint?

instance : DecidablePred Json.Mismatch.IsPlain :=
  fun mismatch => inferInstanceAs (Decidable (hintAmong mismatch.ownWords = mismatch.hint?))

/-- The first item that passes a test stays the first when more pass, exactly when none of those
before it does. -/
theorem find?_or_eq_iff {α β : Type} [DecidableEq β] {name : α → β} {items : List α}
    (test other : α → Bool) (distinct : (items.map name).Nodup) :
    (items.find? fun item => test item || other item).map name = (items.find? test).map name ↔
      ∀ item ∈ items.takeWhile fun item => some (name item) ≠ (items.find? test).map name,
        other item = false := by
  induction items with
  | nil => simp
  | cons item items ih =>
    obtain ⟨new, distinct⟩ := List.nodup_cons.1 distinct
    -- What is found later has another name.
    have apart : some (name item) ≠ (items.find? test).map name := by
      intro same
      obtain ⟨later, found, same⟩ := Option.map_eq_some_iff.1 same.symm
      exact new (same ▸ List.mem_map_of_mem (List.mem_of_find?_eq_some found))
    cases passes : test item with
    | true => simp [passes]
    | false =>
      have later : (item :: items).find? test = items.find? test :=
        List.find?_cons_of_neg (by simp [passes])
      have taken : ((item :: items).takeWhile fun item =>
          some (name item) ≠ (items.find? test).map name) =
            item :: items.takeWhile fun item => some (name item) ≠ (items.find? test).map name :=
        List.takeWhile_cons_of_pos (decide_eq_true apart)
      rw [later, taken, List.forall_mem_cons]
      cases early : other item with
      | true =>
        rw [List.find?_cons_of_pos (by simp [early])]
        exact iff_of_false apart nofun
      | false =>
        rw [List.find?_cons_of_neg (by simp [passes, early]), ih distinct]
        exact (and_iff_right rfl).symm

/-- The words that stand in every refusal of a value. -/
def commonWords : List String :=
  ["Failed to deserialize the JSON body into the target type", " column ", ""]

/-- No hint is called for by the words that stand in every refusal. -/
theorem idle_of_mem_hints {hint : List String × String} (member : hint ∈ hints) {words : String}
    (calls : words ∈ hint.1) :
    IsUndivided words.toList ∧ commonWords.any (mentions · words) = false := by
  have checked : ∀ hint ∈ hints, ∀ words ∈ hint.1,
      (words.toList.any isDivider = false ∧ words.toList.head? ≠ some ' ') ∧
        commonWords.any (mentions · words) = false := by
    decide +kernel
  obtain ⟨⟨whole, visible⟩, idle⟩ := checked hint member words calls
  exact ⟨⟨whole, visible⟩, idle⟩

/-- A hint depends on what the words that call for one are found in. -/
theorem hintAmong_congr {texts others : List String}
    (same : ∀ hint ∈ hints, ∀ words ∈ hint.1,
      texts.any (mentions · words) = others.any (mentions · words)) :
    hintAmong texts = hintAmong others := by
  unfold hintAmong
  congr 1
  refine List.find?_congr fun hint member => ?_
  unfold callsFor
  rw [Bool.eq_iff_iff, List.any_eq_true, List.any_eq_true]
  exact exists_congr fun words => and_congr_right fun calls => by rw [same hint member words calls]

theorem callsFor_append (texts others : List String) (hint : List String × String) :
    callsFor (texts ++ others) hint = (callsFor texts hint || callsFor others hint) := by
  unfold callsFor
  induction hint.1 with
  | nil => rfl
  | cons words more ih =>
    simp only [List.any_cons, List.any_append] at ih ⊢
    rw [ih]
    ac_rfl

/-- Texts that come on top change the hint exactly when one of them calls for an earlier one. -/
theorem hintAmong_append_eq_iff (texts others : List String) :
    hintAmong (texts ++ others) = hintAmong texts ↔
      ∀ hint ∈ hints.takeWhile fun hint => some hint.2 ≠ hintAmong texts,
        callsFor others hint = false := by
  have same : callsFor (texts ++ others) =
      fun hint => callsFor texts hint || callsFor others hint :=
    funext (callsFor_append texts others)
  unfold hintAmong
  rw [same]
  exact find?_or_eq_iff _ _ (by decide)

/-! The message. -/

namespace Json

/-- The text with which a body is refused that is JSON, but not what was wanted. -/
def Error.rejection (error : Error) : String :=
  mismatchIntroduction ++ error.messageWithPath

theorem Error.toList_rejection (error : Error) :
    error.rejection.toList = mismatchIntroduction.toList ++ error.messageWithPath.toList :=
  String.toList_append

/-- The detail that is read off that text. -/
def Error.detail (error : Error) : Detail :=
  ⟨rejectionPath? error.rejection, rejectionHint? error.rejection⟩

/-- The path to the part that is refused, in words, unless that is the whole value. -/
def Error.fieldPath? (error : Error) : Option String :=
  if error.path = [] then none else some (pathText error.path)

/-- The words for a refusal in which there can be words of the sender: the path to the part, and
what the words for the mismatch repeat. -/
def Error.sentTexts (error : Error) (mismatch : Mismatch) : List String :=
  error.fieldPath?.toList ++ mismatch.sentTexts

/-- A value is refused for a mismatch, at a place in the text; the path to it, if there is one,
starts with a step that is not written as nothing. -/
structure Error.Refuses (error : Error) (mismatch : Mismatch) : Prop where
  content : error.fault = .content mismatch
  placed : ∃ line column, error.position = some ⟨line, column⟩
  starts : ∀ segment ∈ error.path.head?, segment.IsWritten

namespace Error.Refuses

variable {error : Error} {mismatch : Mismatch}

/-- The message, with the path before it. -/
theorem exists_message (refuses : error.Refuses mismatch) : ∃ line column,
    error.messageWithPath.toList =
      error.fieldPath?.elim [] (fun path => path.toList ++ ": ".toList) ++
        (mismatch.message ++ " at line " ++ decimal line ++ " column " ++
          decimal column).toList := by
  obtain ⟨line, column, placed⟩ := refuses.placed
  refine ⟨line, column, ?_⟩
  have message : error.message = mismatch.message ++ " at line " ++ decimal line ++ " column " ++
      decimal column := by
    unfold Error.message
    rw [placed, refuses.content]
    rfl
  unfold Error.messageWithPath fieldPath?
  rw [← message]
  cases path : error.path with
  | nil => simp
  | cons segment rest =>
    -- The path is left out only where all of its steps are unknown.
    have written : segment.IsWritten := refuses.starts segment (by rw [path]; rfl)
    have known : segment ≠ .unknown := by
      rintro rfl
      exact written
    simp [known]

/-- The message is what the sender wrote, other words of the refusal, and words that stand in every
one, with gaps between them. -/
theorem exists_divides (refuses : error.Refuses mismatch) : ∃ pieces : List String,
    Divides error.rejection.toList (pieces.map String.toList) ∧
      ∀ piece, piece ∈ pieces ↔
        piece ∈ mismatch.ownWords ++ error.sentTexts mismatch ++ commonWords := by
  obtain ⟨line, column, message⟩ := refuses.exists_message
  obtain ⟨pieces, divides, perm⟩ := mismatch.exists_divides line column
  have introduced : mismatchIntroduction.toList =
      "Failed to deserialize the JSON body into the target type".toList ++ ": ".toList := by
    decide +kernel
  refine ⟨"Failed to deserialize the JSON body into the target type" ::
    (error.fieldPath?.toList ++ pieces), ?_, fun piece => ?_⟩
  · rw [error.toList_rejection, introduced, message, List.append_assoc]
    cases error.fieldPath? with
    | none => exact .cons _ isGap_colon divides
    | some path =>
      rw [Option.elim_some, List.append_assoc]
      exact .cons _ isGap_colon (.cons _ isGap_colon divides)
  · simp only [List.mem_cons, List.mem_append, perm.mem_iff, Error.sentTexts, commonWords]
    tauto

/-- The hint is the one that the sender's words and the other words of the refusal call for. -/
theorem rejectionHint?_eq (refuses : error.Refuses mismatch) :
    rejectionHint? error.rejection = hintAmong (mismatch.ownWords ++ error.sentTexts mismatch) := by
  obtain ⟨pieces, divides, members⟩ := refuses.exists_divides
  rw [MergeNotes.rejectionHint?_eq]
  refine hintAmong_congr fun hint member words calls => ?_
  obtain ⟨undivided, idle⟩ := idle_of_mem_hints member calls
  -- What calls for a hint is undivided, and stands in one of the pieces.
  have found : mentions error.rejection words = true ↔
      ∃ piece ∈ pieces, mentions piece words = true := by
    rw [mentions_iff, divides.infix_iff undivided]
    simp only [List.mem_map, exists_exists_and_eq_and, mentions_iff]
  rw [List.any_cons, List.any_nil, Bool.or_false, Bool.eq_iff_iff, found]
  calc (∃ piece ∈ pieces, mentions piece words = true)
      ↔ (mismatch.ownWords ++ error.sentTexts mismatch ++ commonWords).any (mentions · words) =
          true := by
        rw [List.any_eq_true]
        exact exists_congr fun piece => and_congr_left' (members piece)
    _ ↔ (mismatch.ownWords ++ error.sentTexts mismatch).any (mentions · words) = true := by
        rw [List.any_append, idle, Bool.or_false]

/-- The hint is that for the kind of mismatch exactly when the sender wrote nothing that calls for
an earlier one. -/
theorem rejectionHint?_eq_hint?_iff (refuses : error.Refuses mismatch) (plain : mismatch.IsPlain) :
    rejectionHint? error.rejection = mismatch.hint? ↔
      ∀ hint ∈ hints.takeWhile fun hint => some hint.2 ≠ mismatch.hint?,
        callsFor (error.sentTexts mismatch) hint = false := by
  have plain : hintAmong mismatch.ownWords = mismatch.hint? := plain
  rw [refuses.rejectionHint?_eq, ← plain]
  exact hintAmong_append_eq_iff _ _

/-- Nothing is trimmed off the message, which begins with a letter and ends in a digit. -/
theorem trimBlanks_eq (refuses : error.Refuses mismatch) :
    trimBlanks error.rejection.toList = error.rejection.toList := by
  obtain ⟨line, column, message⟩ := refuses.exists_message
  rw [error.toList_rejection]
  have letter : isBlank 'F' = false := by decide
  refine trimBlanks_eq_self (fun c first => Option.some.inj first ▸ letter) fun c last => ?_
  have digits : (decimal column).toList = decimalDigits column := String.toList_ofList
  rw [message, String.toList_append, digits, ← List.append_assoc, ← List.append_assoc,
    List.getLast?_append_of_ne_nil _ (Url.decimalDigits_ne_nil column)] at last
  exact isBlank_of_isDigit (Url.isDigit_of_mem_decimalDigits (List.mem_of_getLast? last))

/-- What is read off the message for a path is what stands before a colon and a space, if there are
no blanks in it. -/
theorem rejectionPath?_eq (refuses : error.Refuses mismatch) :
    rejectionPath? error.rejection =
      (splitOnce? [':', ' '] error.messageWithPath.toList).bind fun (path, _) =>
        if path.isEmpty || path.any isBlank then none else some (String.ofList path) := by
  unfold rejectionPath?
  rw [refuses.trimBlanks_eq, after?_eq_some_iff.2 error.toList_rejection]
  rfl

/-- No path is read off the message of a refusal of the whole value. -/
theorem rejectionPath?_of_root (refuses : error.Refuses mismatch) (root : error.path = []) :
    rejectionPath? error.rejection = none := by
  obtain ⟨line, column, message⟩ := refuses.exists_message
  obtain ⟨word, rest, plain, begins⟩ := mismatch.exists_word
  rw [refuses.rejectionPath?_eq, Option.bind_eq_none_iff]
  rintro ⟨path, behind⟩ split
  -- The first word ends in a space, and only behind it there is a colon.
  have unnamed : error.fieldPath? = none := if_pos root
  rw [message, unnamed, Option.elim_none, List.nil_append, String.append_assoc, String.append_assoc,
    String.append_assoc, String.toList_append, begins, List.append_assoc] at split
  have blank : path.any isBlank = true :=
    List.any_eq_true.2 ⟨' ', mem_of_splitOnce? plain split, by decide⟩
  simp [blank]

/-- The path to a part is not written as nothing. -/
theorem pathText_ne_nil (refuses : error.Refuses mismatch) (part : error.path ≠ []) :
    (pathText error.path).toList ≠ [] := by
  cases steps : error.path with
  | nil => exact absurd steps part
  | cons segment rest =>
    have written : segment.IsWritten := refuses.starts segment (by rw [steps]; rfl)
    rw [toList_pathText]
    exact List.append_ne_nil_of_left_ne_nil written.first_ne _

/-- What is read off the message for a path is the start of it, and all of it exactly when there is
no blank in any key on it. -/
theorem rejectionPath?_of_part (refuses : error.Refuses mismatch) (part : error.path ≠ []) :
    (∀ path ∈ rejectionPath? error.rejection, path.toList <+: (pathText error.path).toList) ∧
      (rejectionPath? error.rejection = some (pathText error.path) ↔
        error.path.any Segment.hasBlank = false) := by
  obtain ⟨line, column, message⟩ := refuses.exists_message
  have named : error.fieldPath? = some (pathText error.path) := if_neg part
  have whole : ∃ rest, error.messageWithPath.toList =
      (pathText error.path).toList ++ ':' :: ' ' :: rest := by
    rw [message, named, Option.elim_some, List.append_assoc]
    exact ⟨_, rfl⟩
  obtain ⟨rest, whole⟩ := whole
  rw [refuses.rejectionPath?_eq, whole]
  obtain ⟨before, after, split, begins⟩ := exists_splitOnce?_colon (pathText error.path).toList rest
  -- Without a blank, the path ends where the text is first split.
  have solid : error.path.any Segment.hasBlank = false →
      before = (pathText error.path).toList := by
    intro solid
    rw [← any_isBlank_pathText, List.any_eq_false] at solid
    have spaceless : ' ' ∉ (pathText error.path).toList := fun space =>
      solid ' ' space (by decide)
    rw [splitOnce?_colon spaceless, Option.some.injEq, Prod.mk.injEq] at split
    exact split.1.symm
  rw [split, Option.bind_some]
  dsimp only
  split
  case isTrue broken =>
    -- Nothing is read off, which cannot happen without a blank: the whole path is not empty.
    refine ⟨nofun, iff_of_false nofun fun unbroken => ?_⟩
    rw [solid unbroken, any_isBlank_pathText, unbroken, Bool.or_false, List.isEmpty_iff] at broken
    exact refuses.pathText_ne_nil part broken
  case isFalse unbroken =>
    -- What is read off has no blank in it, so that it is the path only if that has none either.
    refine ⟨fun path same => ?_, fun same => ?_, fun unbroken => ?_⟩
    · rwa [← Option.some.inj same, String.toList_ofList]
    · have same : before = (pathText error.path).toList := by
        rw [← Option.some.inj same, String.toList_ofList]
      rw [← any_isBlank_pathText, ← same]
      simp only [Bool.or_eq_true, not_or, Bool.not_eq_true] at unbroken
      exact unbroken.2
    · rw [solid unbroken, String.ofList_toList]

/-- The path that is read off the message is that of the refusal exactly when there is no blank in
any key on it. -/
theorem rejectionPath?_eq_fieldPath?_iff (refuses : error.Refuses mismatch) :
    rejectionPath? error.rejection = error.fieldPath? ↔
      error.path.any Segment.hasBlank = false := by
  by_cases root : error.path = []
  · rw [refuses.rejectionPath?_of_root root, Error.fieldPath?, if_pos root, root]
    exact iff_of_true rfl rfl
  · rw [Error.fieldPath?, if_neg root]
    exact (refuses.rejectionPath?_of_part root).2

end Error.Refuses

end Json

/-! Triggers, of which every refusal has words that call for the hint of its kind. -/

section Plain

open Json.Format

/-- The value that was found does not count. -/
theorem isPlain_wrongType {expected : String} (plain : Mismatch.IsPlain (.wrongType .null expected))
    (found : Json.Found) : Mismatch.IsPlain (.wrongType found expected) :=
  plain

theorem blames_string_plain : Format.string.Blames Mismatch.IsPlain :=
  blames_string (isPlain_wrongType (by decide +kernel))

theorem isPlain_wrongValue {expected : String}
    (plain : Mismatch.IsPlain (.wrongValue .null expected)) (found : Json.Found) :
    Mismatch.IsPlain (.wrongValue found expected) :=
  plain

theorem blames_u32_plain : Format.u32.Blames Mismatch.IsPlain :=
  (blames_natural _ (isPlain_wrongType (by decide +kernel))
    (isPlain_wrongValue (by decide +kernel))).transport _ _

theorem blames_list_plain {α : Type} {format : Format α} (plain : format.Blames Mismatch.IsPlain) :
    format.list.Blames Mismatch.IsPlain :=
  plain.list (isPlain_wrongType (by decide +kernel))

theorem blames_choice_plain {α : Type} {options : List (String × α)} (nameOf : α → String)
    (plain : Mismatch.IsPlain (.unknownVariant "" (options.map (·.1)))) :
    (choice options nameOf).Blames Mismatch.IsPlain :=
  blames_choice nameOf (isPlain_wrongType (by decide +kernel))
    (isPlain_wrongType (by decide +kernel)) fun _ => plain

theorem blames_dict_plain {κ ν : Type} [Ord κ] [Std.TransOrd κ] [Std.LawfulEqOrd κ]
    {key : KeyFormat κ} {value : Format ν} (keys : key.Blames Mismatch.IsPlain)
    (values : value.Blames Mismatch.IsPlain) : (dict key value).Blames Mismatch.IsPlain :=
  blames_dict keys values (isPlain_wrongType (by decide +kernel))

/-- What is said about a record as such, and about its fields, calls for the hint of its kind. -/
def IsPlainRecord {σ γ : Type} (name : String) (fields : Fields σ γ) : Prop :=
  Mismatch.IsPlain (.wrongType .null ("struct " ++ name)) ∧
    Mismatch.IsPlain (.wrongLength 0 (lengthWords name fields.count)) ∧
    ∀ field ∈ fields.names,
      field ≠ "" ∧ Mismatch.IsPlain (.missingField field) ∧ Mismatch.IsPlain (.duplicateField field)

instance {σ γ : Type} (name : String) (fields : Fields σ γ) :
    Decidable (IsPlainRecord name fields) :=
  inferInstanceAs (Decidable (_ ∧ _ ∧ ∀ field ∈ fields.names, _ ∧ _ ∧ _))

theorem failsAs_record_plain {α σ γ : Type} {name : String} {fields : Fields σ γ} {make : γ → α}
    {parts : α → γ} (blame : fields.Blame Mismatch.IsPlain) (plain : IsPlainRecord name fields)
    (c : Cursor) : Json.FailsAs (Error.Blames Mismatch.IsPlain Segment.IsWritten)
      ((record name fields make parts).read c) := by
  obtain ⟨type, length, names⟩ := plain
  refine failsAs_record blame (fun _ => trivial) ?_ (isPlain_wrongType type) (fun _ => length)
    ?_ ?_ c
  · exact fun field member => (names field member).1
  · exact fun field member => (names field member).2.1
  · exact fun field member => (names field member).2.2

theorem blames_record_plain {α σ γ : Type} {name : String} {fields : Fields σ γ} {make : γ → α}
    {parts : α → γ} (blame : fields.Blame Mismatch.IsPlain) (plain : IsPlainRecord name fields) :
    (record name fields make parts).Blames Mismatch.IsPlain :=
  fun c => (failsAs_record_plain blame plain c).mono fun _ blames mismatch said =>
    ⟨(blames mismatch said).1, (blames mismatch said).2.1, fun _ _ => trivial⟩

theorem Condition.blames_format : Condition.format.Blames Mismatch.IsPlain :=
  blames_record_plain ⟨blames_string_plain, blames_choice_plain _ (by decide +kernel),
    blames_string_plain.option, trivial⟩ (by decide +kernel)

theorem Issue.blames_format : Issue.format.Blames Mismatch.IsPlain :=
  blames_record_plain ⟨blames_string_plain, blames_string_plain.option, blames_u32_plain.option,
    blames_choice_plain _ (by decide +kernel), blames_string_plain.option, blames_string_plain,
    blames_string_plain.option, trivial⟩ (by decide +kernel)

theorem Report.blames_format : Report.format.Blames Mismatch.IsPlain := by
  have lines : KeyFormat.u32.Blames Mismatch.IsPlain :=
    KeyFormat.blames_u32 (isPlain_wrongType (by decide +kernel))
      (isPlain_wrongValue (by decide +kernel))
  have revisions : (dict .string (dict .u32 Format.string)).Blames Mismatch.IsPlain :=
    blames_dict_plain KeyFormat.blames_string (blames_dict_plain lines blames_string_plain)
  exact blames_record_plain ⟨blames_string_plain, blames_string_plain, blames_string_plain,
    blames_dict_plain KeyFormat.blames_string blames_string_plain,
    blames_choice_plain _ (by decide +kernel), blames_list_plain Condition.blames_format,
    blames_list_plain Issue.blames_format, revisions, blames_string_plain.option, trivial⟩
    (by decide +kernel)

theorem Trigger.failsAs_read (c : Cursor) :
    Json.FailsAs (Error.Blames Mismatch.IsPlain Segment.IsWritten) (Trigger.format.read c) := by
  unfold Trigger.format
  exact failsAs_record_plain (by exact ⟨blames_string_plain, Report.blames_format, trivial⟩)
    (by decide +kernel) c

end Plain

/-- The refusal of a trigger is a plain one, at a place in the body, with a path in words if it has
any. -/
theorem Trigger.refuses_of_read {body : List UInt8} {error : Error} {mismatch : Mismatch}
    (refused : Json.readWhole Trigger.format.read body = .error error)
    (content : error.fault = .content mismatch) :
    error.Refuses mismatch ∧ mismatch.IsPlain := by
  have fails : Json.FailsAs (Error.Blames Mismatch.IsPlain Segment.IsWritten)
      (Json.readWhole Trigger.format.read body) := by
    refine (Trigger.failsAs_read _).bind fun (trigger, c) => ?_
    exact (Json.grammatical_expectEnd c).blames.bind fun _ => Json.failsAs_ok _
  obtain ⟨plain, placed, starts⟩ := fails error refused mismatch content
  obtain ⟨⟨line, column⟩, placed⟩ := Option.ne_none_iff_exists'.1 placed
  exact ⟨⟨content, ⟨line, column, placed⟩, starts⟩, plain⟩

/-! Responses. -/

section Responses

variable {incoming : Incoming} {error : Error} {mismatch : Mismatch}

/-- A body is refused with this status when it is JSON but no trigger. -/
theorem Incoming.exists_mismatch {refusal : Response} (refused : incoming.trigger = .error refusal)
    (status : refusal.status = 422) :
    ∃ error mismatch, Json.readWhole Trigger.format.read incoming.body = .error error ∧
      error.fault = .content mismatch ∧
      refusal = .plain 422 error.rejection := by
  unfold Incoming.trigger at refused
  split at refused
  · cases refused
    cases status
  · split at refused
    · cases refused
      cases status
    · split at refused
      · cases refused
      · rename_i error read
        cases fault : error.fault with
        | grammar defect =>
          simp only [fault, Except.error.injEq] at refused
          subst refused
          cases status
        | content mismatch =>
          simp only [fault, Except.error.injEq] at refused
          exact ⟨error, mismatch, read, fault, refused.symm⟩

/-- The response to a body that is JSON but no trigger has a detail that is read off the message. -/
theorem Incoming.serve_of_refuses (posted : incoming.IsPosted)
    (refused : incoming.trigger = .error (.plain 422 error.rejection))
    (refuses : error.Refuses mismatch) (settings : Settings) (stamp : Stamp) (line : Line) :
    let response := ((incoming.serve settings stamp).run line).1
    response.status = 422 ∧ response.body =
      (Envelope.failure "UNPROCESSABLE_ENTITY" error.rejection [error.detail]).body := by
  intro response
  have enveloped : response =
      (Response.plain 422 error.rejection).enveloped "UNPROCESSABLE_ENTITY" stamp.id := by
    have plain := Response.not_saysJson_plain 422 error.rejection
    unfold response Incoming.serve
    rw [dispatch_posted posted, refused]
    exact congrArg Prod.fst (Response.run_explained_of_refusal rfl plain stamp.id line)
  -- The text comes back from its bytes, and nothing of it is trimmed.
  have message : String.ofList (Utf8.decodeLossy (Utf8.bytes error.rejection)) =
      error.rejection := by
    rw [Utf8.bytes, Utf8.decodeLossy_encode, String.ofList_toList]
  have whole : trimmed error.rejection = error.rejection := by
    rw [trimmed, refuses.trimBlanks_eq, String.ofList_toList]
  constructor
  · rw [enveloped, Response.status_enveloped]
    rfl
  · rw [enveloped, Response.enveloped, Response.plain, message, whole, Error.detail]

/-- What a detail tells of a refusal: the path to the field at fault, exactly when there is no blank
in any key on it, and otherwise at most the start of it; and the hint for the kind of mismatch,
exactly when the sender wrote nothing that calls for an earlier one. -/
structure Detail.PointsAt (detail : Detail) (error : Error) (mismatch : Mismatch) : Prop where
  path : detail.path = error.fieldPath? ↔ error.path.any Segment.hasBlank = false
  start : ∀ path ∈ detail.path, path.toList <+: (Json.pathText error.path).toList
  hint : detail.hint = mismatch.hint? ↔
    ∀ hint ∈ hints.takeWhile fun hint => some hint.2 ≠ mismatch.hint?,
      callsFor (error.sentTexts mismatch) hint = false

/-- What is read off the message of a refusal points at the field at fault. -/
theorem Json.Error.Refuses.pointsAt (refuses : error.Refuses mismatch) (plain : mismatch.IsPlain) :
    error.detail.PointsAt error mismatch := by
  refine ⟨refuses.rejectionPath?_eq_fieldPath?_iff, ?_, refuses.rejectionHint?_eq_hint?_iff plain⟩
  rw [Error.detail]
  by_cases root : error.path = []
  · rw [refuses.rejectionPath?_of_root root]
    exact nofun
  · exact (refuses.rejectionPath?_of_part root).1

/-- Where a body is JSON but no trigger, the response is an envelope with one detail, which points
at the field at fault. -/
theorem Incoming.serve_points (posted : incoming.IsPosted) {refusal : Response}
    (refused : incoming.trigger = .error refusal) (mismatched : refusal.status = 422)
    (settings : Settings) (stamp : Stamp) (line : Line) :
    let response := ((incoming.serve settings stamp).run line).1
    ∃ error mismatch detail,
      Json.readWhole Trigger.format.read incoming.body = .error error ∧
      error.fault = .content mismatch ∧
      response.status = 422 ∧
      response.body = (Envelope.failure "UNPROCESSABLE_ENTITY" error.rejection [detail]).body ∧
      detail.PointsAt error mismatch := by
  obtain ⟨error, mismatch, read, content, rfl⟩ := exists_mismatch refused mismatched
  obtain ⟨refuses, plain⟩ := Trigger.refuses_of_read read content
  obtain ⟨status, body⟩ := serve_of_refuses posted refused refuses settings stamp line
  exact ⟨error, mismatch, _, read, content, status, body, refuses.pointsAt plain⟩

end Responses

/-- A post to where triggers are taken, with a text that is said to be JSON. -/
def jsonPost (text : String) : Incoming where
  method := "POST"
  path := "/decorate/gitlab/mr"
  headers := [("content-type", "application/json")]
  body := Utf8.bytes text

theorem isPosted_jsonPost (text : String) : (jsonPost text).IsPosted := by
  have path : triggerPath.toList.takeWhile (· != '?') = triggerPath.toList := by decide
  exact ⟨path, rfl⟩

/-- A text that is JSON but no trigger is refused, whatever it is. -/
theorem trigger_jsonPost {text : String} {error : Error} {mismatch : Mismatch}
    (short : (Utf8.bytes text).length ≤ longestBody)
    (read : Json.readWhole Trigger.format.read (Utf8.bytes text) = .error error)
    (content : error.fault = .content mismatch) :
    (jsonPost text).trigger = .error (.plain 422 error.rejection) := by
  have typed : (((jsonPost text).header? "content-type").filter isPlainValue).any
      MediaType.isJson = true := by
    have header : (jsonPost text).header? "content-type" = (jsonPost "").header? "content-type" :=
      rfl
    rw [header]
    decide +kernel
  unfold Incoming.trigger
  simp only [typed, Bool.not_true, Bool.false_eq_true, if_false]
  refine (if_neg (Nat.not_lt.2 short)).trans ?_
  have read : Json.readWhole Trigger.format.read (jsonPost text).body = .error error := read
  simp only [read, content, Error.rejection]

/-- A trigger with an issue whose line is no number. -/
def mistypedText : String :=
  "\x7b\"report\":\x7b\"issues\":[\x7b\"line\":\"x\"\x7d]\x7d\x7d"

/-- The response to such a trigger names the line, without a hint. -/
theorem Incoming.serve_points_mistyped : ∃ message,
    (((jsonPost mistypedText).serve ⟨"s", "s", "s", "s"⟩ ⟨"now", "id"⟩).run
        (.fresh .plain [])).1.body =
      (Envelope.failure "UNPROCESSABLE_ENTITY" message
        [⟨some "report.issues[0].line", none⟩]).body := by
  have read : (Json.readWhole Trigger.format.read (Utf8.bytes mistypedText)).map (fun _ => ()) =
      .error ⟨.content (.wrongType (.string "x") "u32"), some ⟨1, 32⟩,
        [.member "report", .member "issues", .item 0, .member "line"]⟩ := by
    decide +kernel
  have read := error_of_map read
  have refused := trigger_jsonPost (by decide +kernel) read rfl
  obtain ⟨error, mismatch, detail, again, content, _, body, points⟩ := Incoming.serve_points
    (isPosted_jsonPost mistypedText) refused rfl ⟨"s", "s", "s", "s"⟩ ⟨"now", "id"⟩
    (.fresh .plain [])
  obtain rfl := Except.error.inj (read.symm.trans again)
  obtain rfl := Json.Fault.content.inj content
  -- No key has a blank in it, and nothing that was sent calls for a hint.
  have path : detail.path = some "report.issues[0].line" := points.path.2 rfl
  have hint : detail.hint = none := points.hint.2 (by decide +kernel)
  obtain ⟨_, _⟩ := detail
  subst path hint
  exact ⟨_, body⟩

/-- A text that is JSON but no trigger is answered with what is read off the message. -/
theorem body_serve_jsonPost {text : String} {error : Error} {mismatch : Mismatch} {detail : Detail}
    (short : (Utf8.bytes text).length ≤ longestBody)
    (read : Json.readWhole Trigger.format.read (Utf8.bytes text) = .error error)
    (content : error.fault = .content mismatch) (told : error.detail = detail)
    (settings : Settings) (stamp : Stamp) (line : Line) :
    (((jsonPost text).serve settings stamp).run line).1.body =
      (Envelope.failure "UNPROCESSABLE_ENTITY" error.rejection [detail]).body := by
  obtain ⟨refuses, _⟩ := Trigger.refuses_of_read read content
  have refused := trigger_jsonPost short read content
  rw [← told]
  exact (Incoming.serve_of_refuses (isPosted_jsonPost text) refused refuses settings stamp line).2

/-- A trigger in which one of two properties is no text. -/
def misnamedText : String :=
  "\x7b\"report\":\x7b\"scanner_properties\":\x7b\"a\":\"v\",\"a: b\":1\x7d\x7d\x7d"

/-- A trigger with an issue whose line is no number, but the words for a hint. -/
def misheardText : String :=
  "\x7b\"report\":\x7b\"issues\":[\x7b\"line\":\"expected a sequence\"\x7d]\x7d\x7d"

/-- The response to the one names the other property, and that to the other has the hint for
arrays. -/
theorem misled_by_sender :
    (∃ error, Json.readWhole Trigger.format.read (Utf8.bytes misnamedText) = .error error ∧
      error.fieldPath? = some "report.scanner_properties.a: b" ∧
      (((jsonPost misnamedText).serve ⟨"s", "s", "s", "s"⟩ ⟨"now", "id"⟩).run
          (.fresh .plain [])).1.body =
        (Envelope.failure "UNPROCESSABLE_ENTITY" error.rejection
          [⟨some "report.scanner_properties.a", none⟩]).body) ∧
    ∃ error mismatch,
      Json.readWhole Trigger.format.read (Utf8.bytes misheardText) = .error error ∧
      error.fault = .content mismatch ∧ mismatch.hint? = none ∧
      (((jsonPost misheardText).serve ⟨"s", "s", "s", "s"⟩ ⟨"now", "id"⟩).run
          (.fresh .plain [])).1.body =
        (Envelope.failure "UNPROCESSABLE_ENTITY" error.rejection
          [⟨some "report.issues[0].line", some arrayHint⟩]).body := by
  have misnamed : (Json.readWhole Trigger.format.read (Utf8.bytes misnamedText)).map (fun _ => ()) =
      .error ⟨.content (.wrongType (.number (.natural 1)) "a string"), some ⟨1, 49⟩,
        [.member "report", .member "scanner_properties", .member "a: b"]⟩ := by
    decide +kernel
  have misheard : (Json.readWhole Trigger.format.read (Utf8.bytes misheardText)).map (fun _ => ()) =
      .error ⟨.content (.wrongType (.string "expected a sequence") "u32"), some ⟨1, 50⟩,
        [.member "report", .member "issues", .item 0, .member "line"]⟩ := by
    decide +kernel
  refine ⟨⟨_, error_of_map misnamed, by decide +kernel, ?_⟩,
    ⟨_, _, error_of_map misheard, rfl, by decide +kernel, ?_⟩⟩
  · exact body_serve_jsonPost (by decide +kernel) (error_of_map misnamed) rfl (by decide +kernel)
      _ _ _
  · exact body_serve_jsonPost (by decide +kernel) (error_of_map misheard) rfl (by decide +kernel)
      _ _ _

end MergeNotes
