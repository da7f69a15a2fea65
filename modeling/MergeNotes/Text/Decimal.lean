/-! Natural numbers in decimal digits. -/

namespace MergeNotes

/-- The digit for a value below ten. -/
def digitChar (value : Nat) : Char :=
  Char.ofNat (0x30 + value)

/-- The decimal digits of a number, without leading zeros. -/
def decimalDigits (n : Nat) : List Char :=
  go (n + 1) n []
where
  /-- Puts the digits of `n` before those already found; the fuel exceeds their number. -/
  go : Nat → Nat → List Char → List Char
    | 0, _, digits => digits
    | fuel + 1, n, digits =>
      if n < 10 then digitChar n :: digits
      else go fuel (n / 10) (digitChar (n % 10) :: digits)

/-- A number written in decimal. -/
def decimal (n : Nat) : String :=
  String.ofList (decimalDigits n)

/-- The number that a run of decimal digits stands for. -/
def ofDigits (digits : List Nat) : Nat :=
  digits.foldl (fun total digit => total * 10 + digit) 0

/-- The value of a hexadecimal digit of either case. -/
def hexValue? (c : Char) : Option Nat :=
  if '0' ≤ c ∧ c ≤ '9' then some (c.toNat - 0x30)
  else if 'a' ≤ c ∧ c ≤ 'f' then some (c.toNat - 0x61 + 10)
  else if 'A' ≤ c ∧ c ≤ 'F' then some (c.toNat - 0x41 + 10)
  else none

end MergeNotes
