import MergeNotes.Proofs.Json.Leniency
import MergeNotes.Proofs.Json.NumericKeys
import MergeNotes.Proofs.Json.RecordAgreement

/-! Lenient decoding of what is read strictly: it yields the same, unless the text holds, in a
member that nobody asked for, what a value cannot hold. -/

namespace MergeNotes

open Json (Error Format KeyFormat Value parse)

namespace Json

/-- What a format reads of a text it decodes of the value of that text, if the text has one. -/
theorem Format.Agrees.yields_parse {α : Type} {format : Format α} (agrees : format.Agrees)
    {text : String} {a : α} (read : format.readText text = .ok a) :
    Yields (parse text) fun value => format.decode value = .ok a := by
  obtain ⟨⟨found, last⟩, whole, read⟩ := exists_ok_of_bind read
  obtain ⟨_, ended, read⟩ := exists_ok_of_bind read
  cases read
  have inText : (Cursor.start (Utf8.bytes text)).InText := ⟨text.toList, List.suffix_rfl⟩
  -- Behind the value the text ends on both ways.
  refine (agrees inText whole nestingLimit).bind ?_
  intro found _ holds
  obtain ⟨value, last⟩ := found
  obtain ⟨rfl, decoded⟩ := holds
  show Yields (expectEnd last >>= _) _
  rw [ended]
  exact yields_ok decoded

end Json

/-- The formats of the documents that are decoded: the report, the merge request, conditions and
issues, and lists of them. -/
inductive IsDocument : {α : Type} → Format α → Prop
  | report : IsDocument Report.format
  | mergeRequest : IsDocument MergeRequest.format
  | condition : IsDocument Condition.format
  | issue : IsDocument Issue.format
  | list {α : Type} {format : Format α} (item : IsDocument format) : IsDocument format.list

theorem Condition.agrees : Condition.format.Agrees :=
  Format.agrees_record "Condition" ⟨Format.agrees_string, Format.agrees_choice _ _,
    Format.agrees_string.option, trivial⟩

theorem Issue.agrees : Issue.format.Agrees :=
  Format.agrees_record "ComponentIssue" ⟨Format.agrees_string, Format.agrees_string.option,
    Format.agrees_u32.option, Format.agrees_choice _ _, Format.agrees_string.option,
    Format.agrees_string, Format.agrees_string.option, trivial⟩

theorem DiffRefs.agrees : DiffRefs.format.Agrees :=
  Format.agrees_record "DiffRefs" ⟨Format.agrees_string.option, Format.agrees_string.option,
    Format.agrees_string.option, trivial⟩

theorem MergeRequest.agrees : MergeRequest.format.Agrees :=
  Format.agrees_record "MergeRequestRef" ⟨Format.agrees_u64, Format.agrees_string.option,
    Format.agrees_string.option, DiffRefs.agrees.option, trivial⟩

theorem Report.agrees : Report.format.Agrees :=
  Format.agrees_record "AnalysisReport" ⟨Format.agrees_string, Format.agrees_string,
    Format.agrees_string, Format.agrees_string.dict KeyFormat.agrees_string,
    Format.agrees_choice _ _, Condition.agrees.list, Issue.agrees.list,
    (Format.agrees_string.dict KeyFormat.agrees_u32).dict KeyFormat.agrees_string,
    Format.agrees_string.option, trivial⟩

theorem IsDocument.agrees {α : Type} {format : Format α} (document : IsDocument format) :
    format.Agrees := by
  induction document with
  | report => exact Report.agrees
  | mergeRequest => exact MergeRequest.agrees
  | condition => exact Condition.agrees
  | issue => exact Issue.agrees
  | list _ ih => exact ih.list

/-- A document that is read strictly is decoded as the same exactly where its text has a value.
Where it has none, the text holds what a value cannot, in a member that the strict reading passes
over, and decoding fails for that. -/
theorem decodeLenient_of_readText {α : Type} {format : Format α} (document : IsDocument format)
    {text : String} {a : α} (read : format.readText text = .ok a) :
    (format.decodeLenient text = .ok a ↔ ∃ value, parse text = .ok value) ∧
      ∀ error, parse text = .error error →
        format.decodeLenient text = .error error ∧ error.IsExcess := by
  obtain ⟨value, parsed, decoded⟩ | ⟨refusal, refused, excess⟩ :=
    document.agrees.yields_parse read
  · -- The text has a value, of which the document is decoded.
    have lenient := Format.decodeLenient_of_decode parsed decoded
    refine ⟨⟨fun _ => ⟨value, parsed⟩, fun _ => lenient⟩, fun error failed => ?_⟩
    rw [parsed] at failed
    cases failed
  · -- The text has none, and that is what decoding it fails for.
    have lenient : format.decodeLenient text = .error refusal := by
      rw [Format.decodeLenient, refused]
      rfl
    rw [lenient, refused]
    refine ⟨by simp, fun error failed => ?_⟩
    cases failed
    exact ⟨rfl, excess⟩

/-- An unknown member with a value of any type is ignored. -/
theorem decodeLenient_of_readText_unknown :
    MergeRequest.format.readText "\x7b\"iid\": 7, \"labels\": [1, \"a\"]\x7d" =
        .ok ⟨7, none, none, none⟩ ∧
      MergeRequest.format.decodeLenient "\x7b\"iid\": 7, \"labels\": [1, \"a\"]\x7d" =
        .ok ⟨7, none, none, none⟩ := by
  have read : MergeRequest.format.readText "\x7b\"iid\": 7, \"labels\": [1, \"a\"]\x7d" =
      .ok ⟨7, none, none, none⟩ := by cbv
  have parsed : parse "\x7b\"iid\": 7, \"labels\": [1, \"a\"]\x7d" =
      .ok (.object [("iid", .number (.natural 7)),
        ("labels", .array [.number (.natural 1), .string "a"])]) := by cbv
  exact ⟨read, (decodeLenient_of_readText .mergeRequest read).1.2 ⟨_, parsed⟩⟩

/-- An unknown member that holds a number beyond the floats is not ignored. -/
theorem number_beyond_floats_refused :
    ¬ ∀ (text : String) (mergeRequest : MergeRequest),
      MergeRequest.format.readText text = .ok mergeRequest →
        MergeRequest.format.decodeLenient text = .ok mergeRequest := by
  intro extended
  have read : MergeRequest.format.readText "\x7b\"iid\":7,\"x\":1e400\x7d" =
      .ok ⟨7, none, none, none⟩ := by cbv
  have refused : parse "\x7b\"iid\":7,\"x\":1e400\x7d" =
      .error ⟨.grammar .numberOutOfRange, some ⟨1, 18⟩, [.member "x"]⟩ := by cbv
  have decoded := extended _ _ read
  rw [Format.decodeLenient, refused] at decoded
  cases decoded

end MergeNotes
