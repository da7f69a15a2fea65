import MergeNotes.Text.Blank

/-! Texts without what is at their ends. -/

namespace MergeNotes

variable {α : Type} {test : α → Bool}

/-- A digit is no blank. -/
theorem isBlank_of_isDigit {c : Char} (digit : c.isDigit = true) : isBlank c = false := by
  simp only [Char.isDigit, Bool.and_eq_true, decide_eq_true_eq, UInt32.le_iff_toNat_le] at digit
  obtain ⟨low, high⟩ := digit
  have low : 48 ≤ c.toNat := low
  have high : c.toNat ≤ 57 := high
  unfold isBlank
  generalize c.toNat = n at *
  simp
  omega

/-- What fails the test is not dropped from the front. -/
theorem mem_dropWhile {item : α} {items : List α} (member : item ∈ items)
    (kept : test item = false) : item ∈ items.dropWhile test := by
  rw [← List.takeWhile_append_dropWhile (p := test) (l := items), List.mem_append] at member
  -- What is dropped passes the test, which the item does not.
  refine member.resolve_left fun early => ?_
  have passed := List.all_eq_true.1 (List.all_takeWhile (p := test) (l := items)) item early
  rw [kept] at passed
  simp at passed

/-- What fails the test is not dropped from the end. -/
theorem mem_dropWhileEnd {item : α} {items : List α} (member : item ∈ items)
    (kept : test item = false) : item ∈ dropWhileEnd test items := by
  rw [dropWhileEnd, List.mem_reverse]
  exact mem_dropWhile (List.mem_reverse.2 member) kept

/-- What is dropped from the end passes the test. -/
theorem dropWhileEnd_append (test : α → Bool) (items : List α) :
    ∃ dropped, items = dropWhileEnd test items ++ dropped ∧ ∀ item ∈ dropped, test item = true := by
  refine ⟨(items.reverse.takeWhile test).reverse, ?_, fun item member => ?_⟩
  · rw [dropWhileEnd, ← List.reverse_append, List.takeWhile_append_dropWhile, List.reverse_reverse]
  · exact List.all_eq_true.1 List.all_takeWhile item (List.mem_reverse.1 member)

/-- What is left ends in an item that fails the test. -/
theorem not_of_getLast?_dropWhileEnd {item : α} {items : List α}
    (last : (dropWhileEnd test items).getLast? = some item) : test item = false := by
  -- The last item that is left is the first one of what is left of the reverse.
  have stopped := List.head?_dropWhile_not test items.reverse
  rw [dropWhileEnd, List.getLast?_reverse] at last
  rwa [last] at stopped

/-- The last item is that of the last items. -/
theorem getLast?_append_of_getLast? {front items : List α} {item : α}
    (last : items.getLast? = some item) : (front ++ items).getLast? = some item := by
  rw [List.getLast?_append, last, Option.some_or]

/-- Nothing is dropped behind an item that fails the test. -/
theorem dropWhileEnd_concat {item : α} (kept : test item = false) (items : List α) :
    dropWhileEnd test (items ++ [item]) = items ++ [item] := by
  rw [dropWhileEnd, List.reverse_concat, List.dropWhile_cons_of_neg (by simp [kept]),
    List.reverse_cons, List.reverse_reverse]

/-- A text with no blank at either end is left as it is. -/
theorem trimBlanks_eq_self {text : List Char} (first : ∀ c ∈ text.head?, isBlank c = false)
    (last : ∀ c ∈ text.getLast?, isBlank c = false) : trimBlanks text = text := by
  have whole : text.dropWhile isBlank = text := by
    cases text with
    | nil => rfl
    | cons c rest => exact List.dropWhile_cons_of_neg (by simp [first c rfl])
  rw [trimBlanks, whole]
  cases reversed : text.getLast? with
  | none => rw [List.getLast?_eq_none_iff.1 reversed]; rfl
  | some c =>
    obtain ⟨front, rfl⟩ := List.getLast?_eq_some_iff.1 reversed
    exact dropWhileEnd_concat (last c reversed) front

/-- What is left behind the first item that fails the test is left whatever follows. -/
theorem dropWhile_append_of_ne_nil {items more : List α} (present : items.dropWhile test ≠ []) :
    (items ++ more).dropWhile test = items.dropWhile test ++ more := by
  rw [List.dropWhile_append, if_neg (by simpa using present)]

/-- A text with something besides blanks is not empty when trimmed. -/
theorem trimmed_ne_empty {text : String} (visible : isBlankText text = false) :
    trimmed text ≠ "" := by
  intro empty
  -- One character that is not blank is enough: neither end can lose it.
  rw [isBlankText, List.all_eq_false] at visible
  obtain ⟨c, member, kept⟩ := visible
  have kept : isBlank c = false := Bool.eq_false_iff.2 kept
  have stays : c ∈ trimBlanks text.toList := mem_dropWhileEnd (mem_dropWhile member kept) kept
  have nothing : trimBlanks text.toList = [] := by
    have same := congrArg String.toList empty
    rwa [trimmed, String.toList_ofList] at same
  rw [nothing] at stays
  simp at stays

end MergeNotes
