import Mathlib.Data.List.Infix
import MergeNotes.Text.Search

/-! What is found in a text: the place of the first mark, and whether a run of characters stands
anywhere in it. -/

namespace MergeNotes

variable {start text rest part : List Char}

/-- What follows the beginning of a text is the rest of it. -/
theorem after?_eq_some_iff : after? start text = some rest ↔ text = start ++ rest := by
  induction start generalizing text with
  | nil => simp [after?, eq_comm]
  | cons s start ih =>
    cases text with
    | nil => simp [after?]
    | cons c text =>
      rw [after?, List.cons_append, List.cons.injEq]
      -- The first characters must be the same, and then the others decide.
      by_cases same : s = c
      · rw [if_pos same, ih]
        exact ⟨fun others => ⟨same.symm, others⟩, And.right⟩
      · rw [if_neg same]
        exact ⟨fun found => by simp at found, fun ⟨first, _⟩ => absurd first.symm same⟩

theorem isSome_after?_iff : (after? start text).isSome = true ↔ start <+: text := by
  rw [Option.isSome_iff_exists]
  constructor
  · rintro ⟨rest, found⟩
    exact ⟨rest, (after?_eq_some_iff.1 found).symm⟩
  · rintro ⟨rest, same⟩
    exact ⟨rest, after?_eq_some_iff.2 same.symm⟩

/-- A text is cut at the first of its marks. -/
theorem splitOnce?_of_first {mark : Char} {before after : List Char} (first : mark ∉ before) :
    splitOnce? [mark] (before ++ mark :: after) = some (before, after) := by
  induction before with
  | nil => simp [splitOnce?, after?]
  | cons c before ih =>
    obtain ⟨other, later⟩ := not_or.1 (mt List.mem_cons.2 first)
    -- A character that is not the mark belongs to what stands before it.
    have missing : after? [mark] (c :: (before ++ mark :: after)) = none := by
      rw [after?, if_neg other]
    rw [List.cons_append, splitOnce?, missing, ih later]
    rfl

/-- A text has one first mark. -/
theorem eq_of_first {mark : Char} {before after front rest : List Char} (first : mark ∉ before)
    (again : mark ∉ front) (same : before ++ mark :: after = front ++ mark :: rest) :
    before = front ∧ after = rest := by
  have cut := @splitOnce?_of_first mark before after first
  rw [same, splitOnce?_of_first again, Option.some.injEq, Prod.mk.injEq] at cut
  exact ⟨cut.1.symm, cut.2.symm⟩

/-- A text holds what stands in it in a row. -/
theorem holds_iff : holds part text = true ↔ part <:+: text := by
  induction text with
  | nil => rw [holds, List.isEmpty_iff, List.infix_nil]
  | cons c text ih =>
    -- It begins with the first character, or stands in what comes behind it.
    rw [holds, Bool.or_eq_true, isSome_after?_iff, ih, List.infix_cons_iff]

/-- A text mentions what stands in it in a row. -/
theorem mentions_iff {text part : String} :
    mentions text part = true ↔ part.toList <:+: text.toList :=
  holds_iff

end MergeNotes
