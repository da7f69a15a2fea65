import Mathlib.Data.List.TakeDrop
import Mathlib.Data.List.TakeWhile
import MergeNotes.Text.Search

/-! Texts split at characters, and the pieces put together again. -/

namespace MergeNotes

variable {test : Char → Bool} {text before after : List Char} {c : Char}

/-- A span reaches up to the first character that fails the test. -/
theorem span_of_stop (passed : ∀ c ∈ before, test c = true) (stop : test c = false) :
    (before ++ c :: after).span test = (before, c :: after) := by
  rw [List.span_eq_takeWhile_dropWhile, List.takeWhile_append_of_pos passed,
    List.dropWhile_append_of_pos passed, List.takeWhile_cons_of_neg (by simp [stop]),
    List.dropWhile_cons_of_neg (by simp [stop]), List.append_nil]

/-- A span over characters that all pass the test reaches to the end. -/
theorem span_of_all (passed : ∀ c ∈ text, test c = true) : text.span test = (text, []) := by
  rw [List.span_eq_takeWhile_dropWhile, List.takeWhile_eq_self_iff.2 passed,
    List.dropWhile_eq_nil_iff.2 passed]

/-- Every text either passes the test throughout, or has a first character that fails it. -/
theorem all_or_stop (test : Char → Bool) (text : List Char) :
    (∀ c ∈ text, test c = true) ∨ ∃ before c after, text = before ++ c :: after ∧
      (∀ c ∈ before, test c = true) ∧ test c = false := by
  induction text with
  | nil => exact .inl (by simp)
  | cons head text ih =>
    -- The first character either fails the test itself or leaves it to the others.
    by_cases passed : test head = true
    · rcases ih with all | ⟨before, c, after, same, all, stop⟩
      · exact .inl (List.forall_mem_cons.2 ⟨passed, all⟩)
      · exact .inr ⟨head :: before, c, after, by rw [same, List.cons_append],
          List.forall_mem_cons.2 ⟨passed, all⟩, stop⟩
    · exact .inr ⟨[], head, text, rfl, by simp, by simpa using passed⟩

/-- A text is split into at least one piece. -/
theorem splitAtEach_ne_nil (test : Char → Bool) (text : List Char) :
    splitAtEach test text ≠ [] := by
  cases text with
  | nil => simp [splitAtEach]
  | cons c text =>
    rw [splitAtEach]
    split
    · simp
    · split <;> simp

/-- A text without separators is one piece. -/
theorem splitAtEach_of_none (inside : ∀ c ∈ text, test c = false) :
    splitAtEach test text = [text] := by
  induction text with
  | nil => rfl
  | cons c text ih =>
    -- The first character is put in front of the only piece.
    obtain ⟨first, rest⟩ := List.forall_mem_cons.1 inside
    rw [splitAtEach, first, ih rest]
    rfl

/-- What stands on the two sides of a separator is split by itself. -/
theorem splitAtEach_append (before after : List Char) (separates : test c = true) :
    splitAtEach test (before ++ c :: after) =
      splitAtEach test before ++ splitAtEach test after := by
  induction before with
  | nil => simp [splitAtEach, separates]
  | cons head before ih =>
    rw [List.cons_append, splitAtEach, splitAtEach, ih]
    split
    · rw [List.cons_append]
    · -- The first character joins the first piece, and there always is one.
      cases pieces : splitAtEach test before with
      | nil => exact absurd pieces (splitAtEach_ne_nil test before)
      | cons piece pieces => rfl

/-- The last piece stands behind the last separator, and grows with the text. -/
theorem exists_last_piece (test : Char → Bool) (text : List Char) :
    ∃ front lead last, text = lead ++ last ∧ (∀ c ∈ lead.getLast?, test c = true) ∧
      (∀ c ∈ last, test c = false) ∧
      ∀ more : List Char, (∀ c ∈ more, test c = false) →
        splitAtEach test (text ++ more) = front ++ [last ++ more] := by
  -- The last separator is the first one from the end.
  rcases all_or_stop (!test ·) text.reverse with all | ⟨after, c, before, whole, all, stop⟩
  · have inside : ∀ c ∈ text, test c = false := fun c member => by
      simpa using all c (List.mem_reverse.2 member)
    -- Without separators the whole text is the last piece, with whatever follows it.
    refine ⟨[], [], text, rfl, by simp, inside, fun more behind => ?_⟩
    exact splitAtEach_of_none fun c member => (List.mem_append.1 member).elim (inside c) (behind c)
  · have separates : test c = true := by simpa using stop
    have inside : ∀ c ∈ after.reverse, test c = false := fun c member => by
      simpa using all c (List.mem_reverse.1 member)
    have same : text = before.reverse ++ c :: after.reverse := by
      rw [← List.reverse_reverse text, whole, List.reverse_append, List.reverse_cons,
        List.append_assoc, List.singleton_append]
    refine ⟨splitAtEach test before.reverse, before.reverse ++ [c], after.reverse, ?_, ?_, inside,
      fun more behind => ?_⟩
    · rw [same, List.append_assoc, List.singleton_append]
    · intro final last
      rw [List.getLast?_concat, Option.mem_def, Option.some.injEq] at last
      exact last ▸ separates
    · -- What follows makes the piece behind the separator longer and nothing else.
      have apart : ∀ c ∈ after.reverse ++ more, test c = false := fun c member =>
        (List.mem_append.1 member).elim (inside c) (behind c)
      rw [same, List.append_assoc, List.cons_append, splitAtEach_append _ _ separates,
        splitAtEach_of_none apart]

/-- No piece holds a separator, and its characters are those of the text. -/
theorem mem_splitAtEach {piece : List Char} (member : piece ∈ splitAtEach test text) :
    ∀ c ∈ piece, c ∈ text ∧ test c = false := by
  induction text generalizing piece with
  | nil => simp [splitAtEach] at member; simp [member]
  | cons head text ih =>
    rw [splitAtEach] at member
    -- A separator begins a new piece; any other character joins the piece behind it.
    by_cases separates : test head = true
    · rw [if_pos separates] at member
      rcases List.mem_cons.1 member with rfl | later
      · simp
      · exact fun c inside => ⟨List.mem_cons_of_mem _ (ih later c inside).1, (ih later c inside).2⟩
    · rw [if_neg separates] at member
      have separates : test head = false := by simpa using separates
      cases pieces : splitAtEach test text with
      | nil => exact absurd pieces (splitAtEach_ne_nil test text)
      | cons first pieces' =>
        simp only [pieces] at member
        have old : ∀ piece ∈ first :: pieces', ∀ c ∈ piece, c ∈ head :: text ∧ test c = false :=
          fun piece present c inside =>
            have known := ih (pieces ▸ present) c inside
            ⟨List.mem_cons_of_mem _ known.1, known.2⟩
        rcases List.mem_cons.1 member with rfl | later
        · intro c inside
          rcases List.mem_cons.1 inside with rfl | inside
          · exact ⟨List.mem_cons_self, separates⟩
          · exact old first List.mem_cons_self c inside
        · exact old piece (List.mem_cons_of_mem _ later)

/-- What stands in joined texts stands in one of them or between them. -/
theorem mem_intercalate {between : List Char} {texts : List (List Char)} {c : Char}
    (member : c ∈ between.intercalate texts) : c ∈ between ∨ ∃ text ∈ texts, c ∈ text := by
  induction texts with
  | nil => simp at member
  | cons text texts ih =>
    cases texts with
    | nil =>
      rw [List.intercalate_singleton] at member
      exact .inr ⟨text, List.mem_cons_self, member⟩
    | cons next texts =>
      rw [List.intercalate_cons_cons, List.mem_append, List.mem_append] at member
      -- It stands in the first text, in the mark behind it, or further on.
      rcases member with (first | mark) | later
      · exact .inr ⟨text, List.mem_cons_self, first⟩
      · exact .inl mark
      · refine (ih later).imp_right fun ⟨other, present, inside⟩ => ?_
        exact ⟨other, List.mem_cons_of_mem _ present, inside⟩

end MergeNotes
