import MergeNotes.Proofs.Json.Values
import MergeNotes.Proofs.Remote.Traffic
import MergeNotes.Proofs.Text.Search
import MergeNotes.Service.Rejection

/-! What the envelope around a refusal changes: the body and three headers, and these only once. -/

namespace MergeNotes

namespace Response

/-- All values of a header, in their order. -/
def values (response : Response) (name : String) : List String :=
  (response.headers.filter (·.1 == name)).map (·.2)

variable {response : Response}

/-- A header that is taken away has no values left, and the others keep theirs. -/
theorem values_withoutHeader (response : Response) (name other : String) :
    (response.withoutHeader name).values other =
      if other = name then [] else response.values other := by
  unfold withoutHeader values
  rw [List.filter_filter]
  by_cases same : other = name
  · -- No header passes both tests.
    rw [if_pos same, List.map_eq_nil_iff, List.filter_eq_nil_iff]
    simp [same]
  · rw [if_neg same]
    congr 1
    refine List.filter_congr fun header _ => ?_
    by_cases named : header.1 = other
    · simp [named, same]
    · simp [named]

/-- A header that is set has one value, whatever it had before, and the others keep theirs. -/
theorem values_setHeader (response : Response) (name value other : String) :
    (response.setHeader name value).values other =
      if other = name then [value] else response.values other := by
  have appended : (response.setHeader name value).values other =
      (response.withoutHeader name).values other ++ if other = name then [value] else [] := by
    unfold setHeader values
    rw [List.filter_append, List.map_append]
    by_cases same : other = name
    · simp [same]
    · simp [Ne.symm same, same]
  rw [appended, values_withoutHeader]
  by_cases same : other = name
  · simp [same]
  · simp [same]

/-- The header that is looked at is the first of its name. -/
theorem lookup_eq_head?_values (response : Response) (name : String) :
    response.headers.lookup name = (response.values name).head? := by
  unfold values
  induction response.headers with
  | nil => rfl
  | cons header headers ih =>
    obtain ⟨known, value⟩ := header
    by_cases same : known = name
    · subst same
      simp
    · rw [List.lookup_cons, beq_false_of_ne (Ne.symm same), ih,
        List.filter_cons_of_neg (by simpa using same)]

/-- A header is plain when its first value is. -/
theorem plainHeader?_eq (response : Response) (name : String) :
    response.plainHeader? name = (response.values name).head?.filter isPlainValue := by
  rw [plainHeader?, lookup_eq_head?_values]

/-- The first content type is plain text that begins with that of JSON. -/
def SaysJson (response : Response) : Prop :=
  ∃ value ∈ (response.values "content-type").head?, isPlainValue value = true ∧
    "application/json".toList <+: value.toList

theorem isJson_iff : response.isJson = true ↔ response.SaysJson := by
  rw [isJson, plainHeader?_eq, Option.any_eq_true]
  simp only [Option.filter_eq_some_iff, isSome_after?_iff, SaysJson, Option.mem_def, and_assoc]

/-- The first id of the request is plain text, and not blank. -/
def HasId (response : Response) : Prop :=
  ∃ value ∈ (response.values "x-request-id").head?, isPlainValue value = true ∧
    isBlankText value = false

/-- A response that has an id keeps all its ids, and one that has none gets a single one. -/
theorem values_identified (response : Response) (freshId : String) :
    (response.HasId → response.identified freshId = response) ∧
      (¬ response.HasId → response.identified freshId =
        response.setHeader "x-request-id" freshId) := by
  have asked : ((response.plainHeader? "x-request-id").any (!isBlankText ·)) = true ↔
      response.HasId := by
    rw [plainHeader?_eq, Option.any_eq_true]
    simp only [Option.filter_eq_some_iff, Bool.not_eq_true', HasId, Option.mem_def, and_assoc]
  unfold identified
  exact ⟨fun named => if_pos (asked.2 named), fun unnamed => if_neg (mt asked.1 unnamed)⟩

/-- One response is another one in an envelope: the body says which code it has and what the other
body said, with a single detail, in JSON that can be read; of the headers all is kept but the
content type, the length, and ids that are of no use. -/
structure Envelopes (mapped response : Response) (code freshId : String) : Prop where
  body : ∃ detail : Detail, mapped.body =
    (Envelope.failure code (trimmed (String.ofList (Utf8.decodeLossy response.body)))
      [detail]).body
  readable : ∃ found detail, Json.readWhole (Json.readValue Json.nestingLimit) mapped.body =
    .ok found ∧ found.Rearranges (.object [("success", .boolean false),
      ("error", .object [("code", .string code),
        ("message", .string (trimmed (String.ofList (Utf8.decodeLossy response.body)))),
        ("details", .array [detail])])])
  contentType : mapped.values "content-type" = ["application/json"]
  contentLength : mapped.values "content-length" = []
  keepsId : response.HasId → mapped.values "x-request-id" = response.values "x-request-id"
  getsId : ¬ response.HasId → mapped.values "x-request-id" = [freshId]
  others : ∀ name ∉ ["content-type", "content-length", "x-request-id"],
    mapped.values name = response.values name

end Response

/-- The envelope of a failure with one detail is JSON that can be read. -/
theorem Envelope.isReadable_failure (code message : String) (detail : Detail) :
    (Envelope.failure code message [detail]).value.IsReadable Json.nestingLimit := by
  obtain ⟨path, hint⟩ := detail
  -- The members have different names whether or not the detail has both of its own.
  cases path <;> cases hint <;>
    simp [Envelope.value, Detail.value, optionalMember, Json.nestingLimit, Json.Value.IsReadable]

namespace Response

variable {response : Response}

/-- A refusal that is put into an envelope is in one, and has lost nothing else. -/
theorem envelopes_enveloped (response : Response) (code freshId : String) :
    (response.enveloped code freshId).Envelopes response code freshId := by
  obtain ⟨identified, unidentified⟩ := response.values_identified freshId
  -- The headers are those of the response with an id, but for the two that are set behind it.
  have values : ∀ name, (response.enveloped code freshId).values name =
      if name = "content-length" then [] else if name = "content-type" then ["application/json"]
        else (response.identified freshId).values name := by
    intro name
    rw [← values_setHeader, ← values_withoutHeader]
    rfl
  let message := String.ofList (Utf8.decodeLossy response.body)
  let detail : Detail := ⟨rejectionPath? message, rejectionHint? message⟩
  refine ⟨⟨detail, rfl⟩, ?readable, values "content-type", values "content-length", ?keeps, ?gets,
    ?others⟩
  case readable =>
    have readable := Envelope.isReadable_failure code (trimmed message) detail
    obtain ⟨found, parsed, same⟩ := Json.exists_parse_text (Json.Value.Rearranges.refl _) readable
    rw [Json.parse, Json.bytes_text] at parsed
    exact ⟨found, detail.value, parsed, same⟩
  case keeps =>
    intro named
    rw [values, identified named]
    rfl
  case gets =>
    intro unnamed
    rw [values, unidentified unnamed, values_setHeader]
    rfl
  case others =>
    intro name other
    simp only [List.mem_cons, List.not_mem_nil, or_false, not_or] at other
    obtain ⟨type, length, id⟩ := other
    rw [values, if_neg length, if_neg type]
    -- Whether or not an id is set, it is no header of this name.
    by_cases named : response.HasId
    · rw [identified named]
    · rw [unidentified named, values_setHeader, if_neg id]

/-- What is in an envelope says that it is JSON. -/
theorem Envelopes.saysJson {mapped response : Response} {code freshId : String}
    (envelopes : mapped.Envelopes response code freshId) : mapped.SaysJson := by
  refine ⟨"application/json", ?_, by decide, List.prefix_rfl⟩
  rw [envelopes.contentType]
  rfl

/-- What says that it is JSON goes out as it is. -/
theorem run_explained_of_saysJson (typed : response.SaysJson) (freshId : String) (line : Line) :
    (response.explained freshId).run line = (response, line) := by
  unfold explained
  cases rejectionCode? response.status with
  | none => rfl
  | some code =>
    simp only [isJson_iff.2 typed, if_true]
    rfl

/-- What has another status than refusals of bodies goes out as it is. -/
theorem run_explained_of_other (other : rejectionCode? response.status = none) (freshId : String)
    (line : Line) : (response.explained freshId).run line = (response, line) := by
  unfold explained
  simp only [other]
  rfl

/-- A refusal that does not say that it is JSON is put into an envelope, which is noted. -/
theorem run_explained_of_refusal {code status : String}
    (refused : rejectionCode? response.status = some (code, status))
    (other : ¬ response.SaysJson) (freshId : String) (line : Line) :
    (response.explained freshId).run line =
      (response.enveloped code freshId, line.noted (.rejectionMapped status)) := by
  unfold explained
  simp only [refused, mt isJson_iff.1 other]
  rfl

/-- Two statuses are those of refused bodies. -/
theorem rejectionCode?_eq_none_iff {status : Nat} :
    rejectionCode? status = none ↔ status ≠ 400 ∧ status ≠ 422 := by
  unfold rejectionCode?
  split <;> simp_all

/-- What goes out in place of a response has its status. -/
theorem status_explained (response : Response) (freshId : String) (line : Line) :
    ((response.explained freshId).run line).1.status = response.status := by
  unfold explained
  cases rejectionCode? response.status with
  | none => rfl
  | some refusal =>
    -- An envelope is another body, with other headers.
    cases response.isJson with
    | true => rfl
    | false =>
      show (response.identified freshId).status = response.status
      unfold identified
      split <;> rfl

/-- A response goes out with its status. It goes out as it is if its status is not that of a refused
body, or if it says that it is JSON; else it goes out in an envelope with the code for its status,
and has lost nothing besides. In either case it would not be changed again. -/
theorem explained_frame (response : Response) (freshId : String) (line : Line) :
    let mapped := ((response.explained freshId).run line).1
    mapped.status = response.status ∧
      ((response.status ≠ 400 ∧ response.status ≠ 422) ∨ response.SaysJson → mapped = response) ∧
      (¬ response.SaysJson →
        (response.status = 400 → mapped.Envelopes response "BAD_REQUEST" freshId) ∧
          (response.status = 422 → mapped.Envelopes response "UNPROCESSABLE_ENTITY" freshId)) ∧
      ∀ (otherId : String) (otherLine : Line),
        (mapped.explained otherId).run otherLine = (mapped, otherLine) := by
  intro mapped
  refine ⟨status_explained response freshId line, ?_⟩
  -- What goes out as it is goes out so again.
  have kept : (∀ (otherId : String) (otherLine : Line),
      (response.explained otherId).run otherLine = (response, otherLine)) → mapped = response ∧
        ∀ (otherId : String) (otherLine : Line),
          (mapped.explained otherId).run otherLine = (mapped, otherLine) := by
    intro still
    have same : mapped = response := congrArg Prod.fst (still freshId line)
    exact ⟨same, same ▸ still⟩
  by_cases typed : response.SaysJson
  · obtain ⟨same, again⟩ := kept (run_explained_of_saysJson typed)
    exact ⟨fun _ => same, fun other => absurd typed other, again⟩
  cases refused : rejectionCode? response.status with
  | none =>
    obtain ⟨same, again⟩ := kept (run_explained_of_other refused)
    obtain ⟨bad, unprocessable⟩ := rejectionCode?_eq_none_iff.1 refused
    exact ⟨fun _ => same,
      fun _ => ⟨fun status => absurd status bad, fun status => absurd status unprocessable⟩, again⟩
  | some refusal =>
    obtain ⟨code, words⟩ := refusal
    have same : mapped = response.enveloped code freshId :=
      congrArg Prod.fst (run_explained_of_refusal refused typed freshId line)
    have envelopes := response.envelopes_enveloped code freshId
    rw [← same] at envelopes
    -- Its code is the one for its status, and what is in an envelope needs no other one.
    refine ⟨?_, fun _ => ⟨?_, ?_⟩,
      run_explained_of_saysJson envelopes.saysJson⟩
    · intro excepted
      rcases excepted with other | typed'
      · rw [rejectionCode?_eq_none_iff.2 other] at refused
        cases refused
      · exact absurd typed' typed
    all_goals
      intro status
      rw [status] at refused
      cases refused
      exact envelopes

end Response

end MergeNotes
