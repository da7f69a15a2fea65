import MergeNotes.Proofs.Text.Search

/-! Texts in pieces, with dividers between them: what stands in such a text stands in a piece. -/

namespace MergeNotes

variable {part front rest : List Char} {c : Char}

/-- A text does not begin beyond a character that it does not hold. -/
theorem prefix_append_cons_iff (missing : c ∉ part) :
    part <+: front ++ c :: rest ↔ part <+: front := by
  induction front generalizing part with
  | nil =>
    cases part with
    | nil => simp
    | cons head part => simp [List.cons_prefix_cons, Ne.symm (List.ne_of_not_mem_cons missing)]
  | cons first front ih =>
    cases part with
    | nil => simp
    | cons head part =>
      simp [List.cons_prefix_cons, ih (List.not_mem_of_not_mem_cons missing)]

/-- A part stands on one side of a character that it does not hold. -/
theorem infix_append_cons_iff (missing : c ∉ part) :
    part <:+: front ++ c :: rest ↔ part <:+: front ∨ part <:+: rest := by
  induction front with
  | nil =>
    rw [List.nil_append, List.infix_cons_iff, ← List.nil_append (c :: rest),
      prefix_append_cons_iff missing, List.prefix_nil, List.infix_nil]
  | cons first front ih =>
    -- Where the part begins with the first character, it ends before the other one.
    rw [List.cons_append, List.infix_cons_iff, ← List.cons_append, prefix_append_cons_iff missing,
      ih, List.infix_cons_iff, or_assoc]

/-- A part stands behind characters with which it does not begin. -/
theorem infix_append_iff_of_head (other : ∀ c ∈ part.head?, c ∉ front) :
    part <:+: front ++ rest ↔ part <:+: rest := by
  induction front with
  | nil => rw [List.nil_append]
  | cons first front ih =>
    have later : ∀ c ∈ part.head?, c ∉ front := fun c head =>
      mt (List.mem_cons_of_mem first) (other c head)
    rw [List.cons_append, List.infix_cons_iff, ih later, or_iff_right_of_imp]
    intro begins
    cases part with
    | nil => exact List.nil_infix
    | cons head part =>
      obtain ⟨rfl, _⟩ := List.cons_prefix_cons.1 begins
      exact absurd List.mem_cons_self (other head rfl)

/-- A character that stands between the pieces of a message. -/
def isDivider (c : Char) : Bool :=
  c.isDigit || [':', ',', '`'].contains c

/-- What stands between two pieces: a divider, which blanks and more dividers may follow. -/
structure IsGap (gap : List Char) : Prop where
  divider : gap.head?.any isDivider = true
  blank : gap.all (fun c => isDivider c || c == ' ') = true

/-- A gap may go on in another one. -/
theorem IsGap.append {gap other : List Char} (first : IsGap gap) (second : IsGap other) :
    IsGap (gap ++ other) := by
  refine ⟨?_, by rw [List.all_append, first.blank, second.blank, Bool.and_self]⟩
  cases gap with
  | nil => exact second.divider
  | cons c gap => exact first.divider

/-- A text is pieces with gaps between them. -/
inductive Divides : List Char → List (List Char) → Prop where
  | last (piece : List Char) : Divides piece [piece]
  | cons (piece : List Char) {gap rest : List Char} {pieces : List (List Char)} (apart : IsGap gap)
      (others : Divides rest pieces) : Divides (piece ++ (gap ++ rest)) (piece :: pieces)

/-- A run of characters that no divider interrupts, and that does not begin with a space. -/
structure IsUndivided (part : List Char) : Prop where
  whole : part.any isDivider = false
  visible : part.head? ≠ some ' '

/-- What is undivided stands in one of the pieces. -/
theorem Divides.infix_iff {text : List Char} {pieces : List (List Char)}
    (divides : Divides text pieces) (undivided : IsUndivided part) :
    part <:+: text ↔ ∃ piece ∈ pieces, part <:+: piece := by
  induction divides with
  | last piece => simp
  | @cons piece gap rest pieces apart _ ih =>
    obtain ⟨divider, blank⟩ := apart
    have whole : ∀ c ∈ part, ¬ isDivider c = true := List.any_eq_false.1 undivided.whole
    cases gap with
    | nil => cases divider
    | cons c gap =>
      have missing : c ∉ part := fun member => whole c member divider
      have behind : ∀ first ∈ part.head?, first ∉ gap := by
        intro first head member
        have between := List.all_eq_true.1 blank first (List.mem_cons_of_mem c member)
        rcases Bool.or_eq_true_iff.1 between with divides | space
        · exact whole first (List.mem_of_mem_head? head) divides
        · exact undivided.visible (eq_of_beq space ▸ head)
      rw [List.cons_append, infix_append_cons_iff missing, infix_append_iff_of_head behind, ih]
      simp

/-- A colon with a space behind it comes first behind a text without spaces. -/
theorem splitOnce?_colon (spaceless : ' ' ∉ front) :
    splitOnce? [':', ' '] (front ++ ':' :: ' ' :: rest) = some (front, rest) := by
  induction front with
  | nil => rfl
  | cons first front ih =>
    obtain ⟨other, later⟩ := not_or.1 (mt List.mem_cons.2 spaceless)
    -- What comes behind a colon in the front is no space.
    have apart : after? [':', ' '] (first :: (front ++ ':' :: ' ' :: rest)) = none := by
      rw [after?]
      split
      · cases front with
        | nil => rfl
        | cons second front =>
          rw [List.cons_append, after?, if_neg (List.ne_of_not_mem_cons later)]
      · rfl
    rw [List.cons_append, splitOnce?, apart, ih later]
    rfl

/-- Where a text is split, no colon with a space behind it comes before. -/
theorem exists_splitOnce?_colon (front rest : List Char) :
    ∃ before after, splitOnce? [':', ' '] (front ++ ':' :: ' ' :: rest) = some (before, after) ∧
      before <+: front := by
  induction front with
  | nil => exact ⟨[], rest, rfl, List.prefix_rfl⟩
  | cons first front ih =>
    rw [List.cons_append, splitOnce?]
    cases after? [':', ' '] (first :: (front ++ ':' :: ' ' :: rest)) with
    | some behind => exact ⟨[], behind, rfl, List.nil_prefix⟩
    | none =>
      obtain ⟨before, after, split, begins⟩ := ih
      exact ⟨first :: before, after, by rw [split]; rfl, List.cons_prefix_cons.2 ⟨rfl, begins⟩⟩

/-- Where a space comes before the first colon, it stands in what is split off. -/
theorem mem_of_splitOnce? {word before after : List Char} (plain : ':' ∉ word)
    (split : splitOnce? [':', ' '] (word ++ ' ' :: rest) = some (before, after)) :
    ' ' ∈ before := by
  induction word generalizing before with
  | nil =>
    simp only [List.nil_append, splitOnce?, after?, Char.reduceEq, if_false,
      Option.map_eq_some_iff, Prod.mk.injEq] at split
    obtain ⟨_, _, rfl, _⟩ := split
    exact List.mem_cons_self
  | cons first word ih =>
    obtain ⟨other, later⟩ := not_or.1 (mt List.mem_cons.2 plain)
    simp only [List.cons_append, splitOnce?, after?, if_neg other, Option.map_eq_some_iff,
      Prod.mk.injEq] at split
    obtain ⟨⟨behind, _⟩, found, rfl, rfl⟩ := split
    exact List.mem_cons_of_mem _ (ih later found)

end MergeNotes
