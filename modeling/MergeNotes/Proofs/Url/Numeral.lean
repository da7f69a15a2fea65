import MergeNotes.Url.Host

/-! The numbers in URLs, written in digits and read again. -/

namespace MergeNotes.Url

/-- A digit of some base is written as one of sixteen characters. -/
theorem exists_digit_of_mem_toDigits {base : Nat} (enough : 1 < base) {n : Nat} {c : Char}
    (member : c ∈ Nat.toDigits base n) : ∃ digit < base, c = Nat.digitChar digit := by
  induction n using Nat.strongRecOn with
  | ind n ih =>
    rcases Nat.lt_or_ge n base with small | large
    · rw [Nat.toDigits_of_lt_base small, List.mem_singleton] at member
      exact ⟨n, small, member⟩
    · rw [Nat.toDigits_of_base_le enough large, List.mem_append, List.mem_singleton] at member
      -- The last digit is the remainder, and the others are those of the quotient.
      rcases member with earlier | last
      · exact ih (n / base) (Nat.div_lt_self (by omega) enough) earlier
      · exact ⟨n % base, Nat.mod_lt _ (by omega), last⟩

theorem hexValue?_digitChar {digit : Nat} (small : digit < 16) :
    hexValue? (Nat.digitChar digit) = some digit := by
  revert digit
  decide

/-- The digits of a number stand for that number. -/
theorem valueIn?_toDigits {base : Nat} (enough : 1 < base) (known : base ≤ 16) (n : Nat) :
    valueIn? base (Nat.toDigits base n) = some n := by
  induction n using Nat.strongRecOn with
  | ind n ih =>
    rcases Nat.lt_or_ge n base with small | large
    · rw [Nat.toDigits_of_lt_base small]
      simp [valueIn?, hexValue?_digitChar (show n < 16 by omega), small]
    · -- All digits but the last stand for the quotient.
      have rest := ih (n / base) (Nat.div_lt_self (by omega) enough)
      have last : n % base < base := Nat.mod_lt _ (by omega)
      rw [Nat.toDigits_of_base_le enough large, valueIn?, List.foldlM_append]
      rw [valueIn?] at rest
      rw [rest]
      simp [hexValue?_digitChar (show n % base < 16 by omega), last, Nat.div_add_mod']

/-- A number is bounded by how many digits it has. -/
theorem valueIn?_lt {base value : Nat} {digits : List Char}
    (read : valueIn? base digits = some value) : value < Nat.pow base digits.length := by
  -- What was read so far is bounded by how many digits that was.
  have bounded : ∀ (digits : List Char) (total places : Nat), total < base ^ places →
      digits.foldlM (fun total c => do
        let digit ← hexValue? c
        if digit < base then some (total * base + digit) else none) total = some value →
      value < base ^ (places + digits.length) := by
    intro digits
    induction digits with
    | nil =>
      intro total places small same
      simp only [List.foldlM_nil, Option.pure_def, Option.some.injEq] at same
      simpa [← same] using small
    | cons c digits ih =>
      intro total places small same
      simp only [List.foldlM_cons, Option.bind_eq_bind, Option.bind_eq_some_iff] at same
      obtain ⟨next, ⟨digit, _, within⟩, rest⟩ := same
      split at within
      · rename_i below
        simp only [Option.some.injEq] at within
        -- One digit more makes the bound larger by one factor.
        have larger : next < base ^ (places + 1) := by
          rw [← within, Nat.pow_succ]
          calc total * base + digit < total * base + base := by omega
            _ = (total + 1) * base := by rw [Nat.add_mul, Nat.one_mul]
            _ ≤ base ^ places * base := Nat.mul_le_mul_right base small
        have final := ih next (places + 1) larger rest
        rwa [Nat.add_assoc, Nat.add_comm 1] at final
      · simp at within
  have final := bounded digits 0 0 (by simp) read
  rw [Nat.zero_add] at final
  exact final

theorem digitChar_eq {value : Nat} (small : value < 10) :
    digitChar value = Nat.digitChar value := by
  revert value
  decide

/-- Decimal digits are digits of base ten. -/
theorem decimalDigits_eq (n : Nat) : decimalDigits n = Nat.toDigits 10 n := by
  rw [decimalDigits, go_eq (n + 1) n [] (by omega), List.append_nil]
where
  /-- Each round puts the last digit of what is left before those already found. -/
  go_eq (fuel n : Nat) (digits : List Char) (enough : n < fuel) :
      decimalDigits.go fuel n digits = Nat.toDigits 10 n ++ digits := by
    induction fuel generalizing n digits with
    | zero => omega
    | succ fuel ih =>
      rw [decimalDigits.go]
      by_cases small : n < 10
      · rw [if_pos small, Nat.toDigits_of_lt_base small, digitChar_eq small, List.singleton_append]
      · have split : Nat.toDigits 10 n = Nat.toDigits 10 (n / 10) ++ [Nat.digitChar (n % 10)] :=
          Nat.toDigits_of_base_le (by omega) (by omega)
        rw [if_neg small, ih (n / 10) _ (by omega), split, digitChar_eq (Nat.mod_lt _ (by omega)),
          List.append_assoc, List.singleton_append]

/-- A decimal number is a row of decimal digits. -/
theorem isDigit_of_mem_decimalDigits {n : Nat} {c : Char} (member : c ∈ decimalDigits n) :
    c.isDigit = true := by
  rw [decimalDigits_eq] at member
  exact Nat.isDigit_of_mem_toDigits (by omega) (by omega) member

theorem decimalDigits_ne_nil (n : Nat) : decimalDigits n ≠ [] := by
  rw [decimalDigits_eq]
  exact Nat.toDigits_ne_nil

/-- A decimal number is read as itself. -/
theorem valueIn?_decimalDigits (n : Nat) : valueIn? 10 (decimalDigits n) = some n := by
  rw [decimalDigits_eq]
  exact valueIn?_toDigits (by omega) (by omega) n

end MergeNotes.Url
