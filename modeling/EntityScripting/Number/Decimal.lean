import EntityScripting.Number.Binary

/-!
# Decimal digits of binary values

`shortest` finds the fewest digits that read back as the value, `significant` and `places` round it
to a given number of digits. All three work on the exact ratio that the reading stands for.
-/

namespace EntityScripting.Number

/-- A decimal value `digits · 10 ^ exponent`. -/
structure Decimal where
  digits : Nat
  exponent : Int
deriving DecidableEq, Repr, Inhabited

namespace Decimal

/-- The decimal digits of a natural number, the leading one first. -/
def digitsOf (n : Nat) : List Char := Nat.toDigits 10 n

/-- The same value without zeros at the end of its digits; fuel bounds the digits taken off. -/
def dropZeros : Nat → Decimal → Decimal
  | 0, d => d
  | fuel + 1, d =>
    if d.digits ≠ 0 ∧ d.digits % 10 = 0 then dropZeros fuel ⟨d.digits / 10, d.exponent + 1⟩ else d

/-- The greatest `e` with `10 ^ e ≤ num / den`, for a positive ratio. -/
def floorLog10 (num den : Nat) : Int :=
  let guess := Int.fdiv (floorLog2 num den * 30103) 100000
  if num * pow10 (-guess) < den * pow10 guess then guess - 1
  else if den * pow10 (guess + 1) ≤ num * pow10 (-(guess + 1)) then guess + 1
  else guess

/-- Which way a tie between two decimals goes. -/
inductive Tie where
  | up
  | even
deriving DecidableEq, Repr

/-- Whether `c · 10 ^ k` lies among the reals whose nearest value in the format is `m · 2 ^ u`. All
lengths are multiplied by four and cleared of their denominators. -/
def readsBack (f : Format) (m : Nat) (u : Int) (c : Nat) (k : Int) : Bool :=
  let scale := pow10 (-k) * 4
  let value := m * pow2 u * scale
  let gap := pow2 u * scale / 2
  let below := if m = f.hidden ∧ f.leastUnit < u then gap / 2 else gap
  let candidate := c * pow10 k * pow2 (-u) * 4
  if m % 2 = 0 then decide (candidate ≤ value + gap ∧ value ≤ candidate + below)
  else decide (candidate < value + gap ∧ value < candidate + below)

/-- The decimal with this exponent that reads back and is nearest to `m · 2 ^ u`, if one of the two
neighbours of the value reads back. -/
def atExponent? (f : Format) (tie : Tie) (m : Nat) (u k : Int) : Option Nat :=
  let num := m * pow2 u * pow10 (-k)
  let den := pow2 (-u) * pow10 k
  let low := num / den
  let high := low + 1
  match readsBack f m u low k, readsBack f m u high k with
  | true, true =>
    let rest := 2 * (num % den)
    if rest < den then some low
    else if den < rest then some high
    else match tie with
      | .up => some high
      | .even => if low % 2 = 0 then some low else some high
  | true, false => some low
  | false, true => some high
  | false, false => none

/-- The first exponent, from `k` down, whose grid has a decimal that reads back. -/
def search (f : Format) (tie : Tie) (m : Nat) (u : Int) : Nat → Int → Decimal
  | 0, k => ⟨m * pow2 u * pow10 (-k) / (pow2 (-u) * pow10 k), k⟩
  | fuel + 1, k =>
    match atExponent? f tie m u k with
    | some digits => ⟨digits, k⟩
    | none => search f tie m u fuel (k - 1)

/-- The decimal with the fewest digits among those that read back as `m · 2 ^ u`, and the nearest
of these. -/
def shortest (f : Format) (tie : Tie) (m : Nat) (u : Int) : Decimal :=
  if m = 0 then ⟨0, 0⟩
  else dropZeros 20 (search f tie m u 20 (floorLog10 (m * pow2 u) (pow2 (-u))))

/-- The value rounded to this many significant digits, a tie to the even digit. -/
def significant (count m : Nat) (u : Int) : Decimal :=
  if m = 0 then ⟨0, 0⟩
  else
    let k := floorLog10 (m * pow2 u) (pow2 (-u)) + 1 - count
    let digits := roundHalfEven (m * pow2 u * pow10 (-k)) (pow2 (-u) * pow10 k)
    dropZeros (count + 1) ⟨digits, k⟩

/-- The value in units of `10 ^ -count`, rounded to the nearest, a tie to the even one. -/
def places (count m : Nat) (u : Int) : Nat :=
  roundHalfEven (m * pow2 u * pow10 count) (pow2 (-u))

/-- The format's nearest value to a decimal. Exponents far outside the range of the format are cut
off before any power is computed. -/
def toReading (f : Format) (negative : Bool) (d : Decimal) : Reading :=
  if d.digits = 0 then .finite negative 0 f.leastUnit
  else
    let size := d.exponent + (digitsOf d.digits).length
    if 400 < size then .infinite negative
    else if size < -400 then .finite negative 0 f.leastUnit
    else f.nearest negative (d.digits * pow10 d.exponent) (pow10 (-d.exponent))

end Decimal

end EntityScripting.Number
