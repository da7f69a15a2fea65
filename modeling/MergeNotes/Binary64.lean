import MergeNotes.Text.Decimal

/-! Finite binary64 numbers in exact arithmetic: rounding, product, quotient and shortest text. -/

namespace MergeNotes

/-- The number `± significand · 2 ^ exponent`, with at most 53 bits and `-1074 ≤ exponent ≤ 971`. -/
structure Binary64 where
  /-- Zero has a sign too. -/
  negative : Bool
  significand : Nat
  exponent : Int
  deriving DecidableEq, Repr

namespace Binary64

/-- A ratio of naturals times a power of two, as a ratio. -/
def scale (num den : Nat) (exponent : Int) : Nat × Nat :=
  if 0 ≤ exponent then (num <<< exponent.toNat, den) else (num, den <<< (-exponent).toNat)

/-- The nearest natural to a ratio; of two equally near the even one. -/
def roundHalfEven (num den : Nat) : Nat :=
  let quotient := num / den
  let twice := 2 * (num % den)
  if twice < den then quotient
  else if den < twice then quotient + 1
  else quotient + quotient % 2

/-- The number nearest to a ratio, or nothing when that lies beyond the largest finite one. -/
def ofRatio? (negative : Bool) (num den : Nat) : Option Binary64 :=
  if num = 0 then some ⟨negative, 0, 0⟩
  else
    -- The guess is the wanted exponent or one less.
    let guess : Int := (num.log2 : Int) - (den.log2 : Int) - 53
    let (num₁, den₁) := scale num den (-guess)
    let exponent := max (-1074) (if num₁ < den₁ <<< 53 then guess else guess + 1)
    let (num₂, den₂) := scale num den (-exponent)
    let significand := roundHalfEven num₂ den₂
    let carried := significand = 1 <<< 53
    let significand := if carried then 1 <<< 52 else significand
    let exponent := if carried then exponent + 1 else exponent
    if 971 < exponent then none else some ⟨negative, significand, exponent⟩

/-- The number nearest to a natural below `2 ^ 1023`. -/
def ofNat (n : Nat) : Binary64 :=
  (ofRatio? false n 1).getD ⟨false, 0, 0⟩

/-- The rounded product, or nothing when it lies beyond the largest finite number. -/
def mul? (x y : Binary64) : Option Binary64 :=
  let (num, den) := scale (x.significand * y.significand) 1 (x.exponent + y.exponent)
  ofRatio? (x.negative != y.negative) num den

/-- The rounded quotient by a nonzero number, or nothing when it is too large. -/
def div? (x y : Binary64) : Option Binary64 :=
  let (num, den) := scale x.significand y.significand (x.exponent - y.exponent)
  ofRatio? (x.negative != y.negative) num den

/-- The decimal `digits · 10 ^ exponent`. -/
structure Tenths where
  digits : Nat
  exponent : Int
  deriving DecidableEq, Repr

/-- Ten to a power as a ratio. -/
def tenPower (exponent : Int) : Nat × Nat :=
  if 0 ≤ exponent then (Nat.pow 10 exponent.toNat, 1) else (1, Nat.pow 10 (-exponent).toNat)

/-- The exponent of the leading decimal digit of a positive ratio. -/
def leadingExponent (num den : Nat) : Int :=
  -- The quotient of bit lengths is off by at most one decimal place on either side.
  let guess : Int := ((num.log2 : Int) - (den.log2 : Int)) * 30103 / 100000 - 1
  let atLeast (exponent : Int) : Bool :=
    let (up, down) := tenPower exponent
    decide (up * den ≤ num * down)
  if atLeast (guess + 2) then guess + 2 else if atLeast (guess + 1) then guess + 1 else guess

/-- The point nearest to a positive binary number on the decimal grid of `count` digits, when it
lies in the interval of reals that round to that number. -/
def nearestOnGrid? (x : Binary64) (leading : Int) (count : Nat) : Option Tenths :=
  let (num, den) := scale x.significand 1 x.exponent
  let step := leading + 1 - count
  let (up, down) := tenPower step
  -- The value is `ratio / unit` steps of the grid.
  let ratio := num * down
  let unit := den * up
  -- Below a power of two the neighbours stand half as far apart.
  let narrow := x.significand = 1 <<< 52 ∧ -1074 < x.exponent
  let (halfNum, halfDen) := scale 1 2 x.exponent
  let closed := x.significand % 2 = 0
  let inside (grid : Nat) : Bool :=
    -- Distances are compared over one common denominator.
    if ratio ≤ grid * unit then
      let distance := (grid * unit - ratio) * halfDen
      let bound := halfNum * den * down
      decide (distance < bound) || (closed && decide (distance = bound))
    else
      let distance := (ratio - grid * unit) * halfDen * (if narrow then 2 else 1)
      let bound := halfNum * den * down
      decide (distance < bound) || (closed && decide (distance = bound))
  let below := ratio / unit
  let above := below + 1
  let twice := 2 * (ratio % unit)
  let belowFirst := twice < unit ∨ (twice = unit ∧ below % 2 = 0)
  let first := if belowFirst then below else above
  let second := if belowFirst then above else below
  if inside first then some ⟨first, step⟩
  else if inside second then some ⟨second, step⟩
  else none

/-- The shortest decimal that reads back as the number; of several the nearest. -/
def shortest (x : Binary64) : Tenths :=
  let (num, den) := scale x.significand 1 x.exponent
  let leading := leadingExponent num den
  -- Seventeen digits always read back.
  ((List.range 17).findSome? fun count => nearestOnGrid? x leading (count + 1)).getD
    ⟨x.significand, 0⟩

/-- The text of a number: exponents of the leading digit from -5 to 15 are written positionally. -/
def text (x : Binary64) : String :=
  let sign := if x.negative then "-" else ""
  if x.significand = 0 then sign ++ "0.0"
  else
    let decimal := x.shortest
    let trailing := ((decimalDigits decimal.digits).reverse.takeWhile (· == '0')).length
    let digits := decimalDigits (decimal.digits / Nat.pow 10 trailing)
    let leading := decimal.exponent + trailing + digits.length - 1
    let body : List Char :=
      if -5 ≤ leading ∧ leading < 0 then
        '0' :: '.' :: (List.replicate (-leading - 1).toNat '0' ++ digits)
      else if 0 ≤ leading ∧ leading ≤ 15 then
        let whole := leading.toNat + 1
        if digits.length ≤ whole then
          digits ++ List.replicate (whole - digits.length) '0' ++ ['.', '0']
        else digits.take whole ++ '.' :: digits.drop whole
      else
        let mark := if leading < 0 then ['e', '-'] else ['e', '+']
        let point := if digits.length = 1 then [] else '.' :: digits.drop 1
        digits.take 1 ++ point ++ mark ++ decimalDigits leading.natAbs
    sign ++ String.ofList body

end Binary64

end MergeNotes
