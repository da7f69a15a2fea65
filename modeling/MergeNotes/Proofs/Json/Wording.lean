import MergeNotes.Json.Error
import MergeNotes.Proofs.Text.Pieces
import MergeNotes.Proofs.Text.Trim
import MergeNotes.Proofs.Url.Numeral

/-! The words for a refusal: which of them are the sender's, and where in the message they stand. -/

namespace MergeNotes.Json

/-! Mismatches. -/

/-- What the words for a mismatch repeat of what the sender wrote. -/
def Mismatch.sentTexts : Mismatch → List String
  | .wrongType found _ | .wrongValue found _ => [found.message]
  | .unknownVariant name _ => [name]
  | .wrongLength .. | .missingField _ | .duplicateField _ => []

/-- The words for a mismatch that are not the sender's, up to those for the place. -/
def Mismatch.ownWords : Mismatch → List String
  | .wrongType _ expected => ["invalid type", "expected " ++ expected ++ " at line "]
  | .wrongValue _ expected => ["invalid value", "expected " ++ expected ++ " at line "]
  | .wrongLength _ expected => ["invalid length ", "expected " ++ expected ++ " at line "]
  | .unknownVariant _ allowed => ["unknown variant ", "expected " ++ oneOf allowed ++ " at line "]
  | .missingField name => ["missing field ", name, " at line "]
  | .duplicateField name => ["duplicate field ", name, " at line "]

/-- A number stands between other words like a divider. -/
theorem isGap_decimal (n : Nat) : IsGap (decimal n).toList := by
  have digits : ∀ c ∈ decimalDigits n, isDivider c = true := by
    intro c member
    rw [isDivider, Url.isDigit_of_mem_decimalDigits member, Bool.true_or]
  rw [decimal, String.toList_ofList]
  refine ⟨?_, List.all_eq_true.2 fun c member => by rw [digits c member, Bool.true_or]⟩
  cases written : decimalDigits n with
  | nil => exact absurd written (Url.decimalDigits_ne_nil n)
  | cons c others => exact digits c (written ▸ List.mem_cons_self)

/-- The words for a place stand apart from those before it. -/
theorem divides_place (piece : List Char) (line column : Nat) :
    Divides (piece ++ ((decimal line).toList ++ (" column ".toList ++ (decimal column).toList)))
      [piece, " column ".toList, []] := by
  rw [← List.append_nil (decimal column).toList]
  exact .cons piece (isGap_decimal line) (.cons _ (isGap_decimal column) (.last []))

theorem isGap_colon : IsGap ": ".toList :=
  ⟨by decide, by decide⟩

/-- The words for a mismatch at a place are those of the sender, the others, and those for the
place, with gaps between them. -/
theorem Mismatch.exists_divides (mismatch : Mismatch) (line column : Nat) :
    ∃ pieces : List String, Divides (mismatch.message ++ " at line " ++ decimal line ++
        " column " ++ decimal column).toList (pieces.map String.toList) ∧
      pieces.Perm (mismatch.ownWords ++ mismatch.sentTexts ++ [" column ", ""]) := by
  have comma : IsGap ", ".toList := ⟨by decide, by decide⟩
  have tick : IsGap "`".toList := ⟨by decide, by decide⟩
  have untick : IsGap "`, ".toList := ⟨by decide, by decide⟩
  have last (words : String) := divides_place (words ++ " at line ").toList line column
  -- A field is named between backticks.
  have field (kind name : String) :=
    (divides_place " at line ".toList line column).cons name.toList tick |>.cons kind.toList tick
  -- What was found stands between what is wrong with it and what was expected.
  have found (kind : String) (found : Found) (expected : String) :=
    (last ("expected " ++ expected)).cons found.message.toList comma |>.cons kind.toList isGap_colon
  unfold Mismatch.message
  cases mismatch with
  | wrongType value expected =>
    refine ⟨["invalid type", value.message, "expected " ++ expected ++ " at line ", " column ", ""],
      ?_, .cons _ (.swap ..)⟩
    simpa using found "invalid type" value expected
  | wrongValue value expected =>
    refine ⟨["invalid value", value.message, "expected " ++ expected ++ " at line ", " column ",
      ""], ?_, .cons _ (.swap ..)⟩
    simpa using found "invalid value" value expected
  | wrongLength length expected =>
    refine ⟨["invalid length ", "expected " ++ expected ++ " at line ", " column ", ""], ?_,
      .refl _⟩
    have apart := (isGap_decimal length).append comma
    simpa using (last ("expected " ++ expected)).cons "invalid length ".toList apart
  | unknownVariant name allowed =>
    refine ⟨["unknown variant ", name, "expected " ++ oneOf allowed ++ " at line ", " column ", ""],
      ?_, .cons _ (.swap ..)⟩
    have divides := (last ("expected " ++ oneOf allowed)).cons name.toList untick |>.cons
      "unknown variant ".toList tick
    simpa [ticked] using divides
  | missingField name =>
    refine ⟨["missing field ", name, " at line ", " column ", ""], ?_, .refl _⟩
    simpa [ticked] using field "missing field " name
  | duplicateField name =>
    refine ⟨["duplicate field ", name, " at line ", " column ", ""], ?_, .refl _⟩
    simpa [ticked] using field "duplicate field " name

/-- The words for a mismatch begin with a word in which there is no colon, and a space. -/
theorem Mismatch.exists_word (mismatch : Mismatch) :
    ∃ word rest, ':' ∉ word ∧ mismatch.message.toList = word ++ ' ' :: rest := by
  have begins (word rest : String) (plain : ':' ∉ word.toList) :
      ∃ front behind, ':' ∉ front ∧ (word ++ " " ++ rest).toList = front ++ ' ' :: behind :=
    ⟨word.toList, rest.toList, plain, by simp⟩
  unfold Mismatch.message
  cases mismatch with
  | wrongType found expected =>
    simpa using begins "invalid" ("type: " ++ found.message ++ ", expected " ++ expected)
      (by decide)
  | wrongValue found expected =>
    simpa using begins "invalid" ("value: " ++ found.message ++ ", expected " ++ expected)
      (by decide)
  | wrongLength length expected =>
    simpa using begins "invalid" ("length " ++ decimal length ++ ", expected " ++ expected)
      (by decide)
  | unknownVariant name allowed =>
    simpa using begins "unknown" ("variant " ++ ticked name ++ ", expected " ++ oneOf allowed)
      (by decide)
  | missingField name => simpa using begins "missing" ("field " ++ ticked name) (by decide)
  | duplicateField name => simpa using begins "duplicate" ("field " ++ ticked name) (by decide)

/-! Paths. -/

/-- A step at the start of a path, in words. -/
def Segment.first : Segment → String
  | .item index => "[" ++ decimal index ++ "]"
  | .member key => key
  | .unknown => "?"

/-- A step further on, in words. -/
def Segment.further : Segment → String
  | .item index => "[" ++ decimal index ++ "]"
  | .member key => "." ++ key
  | .unknown => ".?"

/-- A path in words is its steps in words, one behind the other. -/
theorem toList_pathText (segment : Segment) (rest : List Segment) :
    (pathText (segment :: rest)).toList =
      segment.first.toList ++ rest.flatMap (·.further.toList) := by
  have same : pathText (segment :: rest) =
      rest.foldl (fun written next => written ++ next.further) segment.first := by
    unfold pathText
    dsimp only
    congr 1
    funext written next
    cases next <;> simp [Segment.further, String.append_assoc]
  rw [same]
  clear same
  generalize segment.first = written
  induction rest generalizing written with
  | nil => simp
  | cons next rest ih =>
    rw [List.foldl_cons, ih, List.flatMap_cons, String.toList_append, List.append_assoc]

/-- A step that is written with at least one character. -/
def Segment.IsWritten : Segment → Prop
  | .item _ => True
  | .member key => key ≠ ""
  | .unknown => False

theorem Segment.IsWritten.first_ne {segment : Segment} (isWritten : segment.IsWritten) :
    segment.first.toList ≠ [] := by
  cases segment with
  | item index => simp [Segment.first]
  | member key =>
    have present : key ≠ "" := isWritten
    simpa [Segment.first] using present
  | unknown => cases isWritten

/-- There are blanks in a step of a path. -/
def Segment.hasBlank : Segment → Bool
  | .member key => key.toList.any isBlank
  | .item _ | .unknown => false

/-- The blanks in a step are those of its key. -/
theorem Segment.any_isBlank (segment : Segment) :
    segment.first.toList.any isBlank = segment.hasBlank ∧
      segment.further.toList.any isBlank = segment.hasBlank := by
  have signs : ['[', ']', '.', '?'].map isBlank = [false, false, false, false] := by decide
  simp only [List.map_cons, List.map_nil, List.cons.injEq, and_true] at signs
  obtain ⟨opens, closes, dot, mark⟩ := signs
  cases segment with
  | item index =>
    have digits : (decimal index).toList.any isBlank = false := by
      rw [decimal, String.toList_ofList, List.any_eq_false]
      intro c member
      simp [isBlank_of_isDigit (Url.isDigit_of_mem_decimalDigits member)]
    simp [Segment.first, Segment.further, Segment.hasBlank, digits, opens, closes]
  | member key => simp [Segment.first, Segment.further, Segment.hasBlank, dot]
  | unknown => simp [Segment.first, Segment.further, Segment.hasBlank, dot, mark]

/-- The blanks in a path are those of its keys. -/
theorem any_isBlank_pathText (path : List Segment) :
    (pathText path).toList.any isBlank = path.any Segment.hasBlank := by
  cases path with
  | nil => decide
  | cons segment rest =>
    rw [toList_pathText, List.any_append, segment.any_isBlank.1, List.any_flatMap, List.any_cons]
    simp only [Segment.any_isBlank]

end MergeNotes.Json
