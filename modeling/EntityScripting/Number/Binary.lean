/-!
# Binary floating-point formats

A bit pattern of a format stands for not-a-number, an infinity, or a sign and a multiple of a power
of two. Every operation here works on that reading in exact integer arithmetic and rounds once, to
the nearest multiple and on a tie to the even one, so each result is the format's nearest value to
the exact one.
-/

namespace EntityScripting.Number

/-- A binary format: the bits of a significand, the leading one counted, and of the exponent. -/
structure Format where
  precision : Nat
  exponentBits : Nat
deriving DecidableEq, Repr

def binary32 : Format := ⟨24, 8⟩

def binary64 : Format := ⟨53, 11⟩

namespace Format

def bias (f : Format) : Int := (1 <<< (f.exponentBits - 1) - 1 : Nat)

/-- The exponent of the unit in which the smallest values are counted. -/
def leastUnit (f : Format) : Int := 2 - f.bias - f.precision

/-- The exponent of the unit in which the largest values are counted. -/
def greatestUnit (f : Format) : Int := f.bias + 1 - f.precision

/-- The least significand with a leading one. -/
def hidden (f : Format) : Nat := 1 <<< (f.precision - 1)

/-- The pattern of the sign bit alone. -/
def signBit (f : Format) : Nat := 1 <<< (f.precision + f.exponentBits - 1)

/-- The pattern of positive infinity. -/
def infinityBits (f : Format) : Nat := (1 <<< f.exponentBits - 1) * f.hidden

end Format

/-- What a bit pattern stands for: `finite negative m u` is `m · 2 ^ u`, negated if `negative`. -/
inductive Reading where
  | nan (negative : Bool)
  | infinite (negative : Bool)
  | finite (negative : Bool) (magnitude : Nat) (unit : Int)
deriving DecidableEq, Repr, Inhabited

/-- The quotient rounded to the nearest integer, a tie to the even one. -/
def roundHalfEven (num den : Nat) : Nat :=
  let quotient := num / den
  let rest := num % den
  if 2 * rest < den then quotient
  else if den < 2 * rest then quotient + 1
  else if quotient % 2 = 0 then quotient else quotient + 1

/-- `2 ^ e` for a nonnegative exponent and one for a negative one. -/
def pow2 (e : Int) : Nat := 1 <<< e.toNat

/-- `10 ^ e` for a nonnegative exponent and one for a negative one. -/
def pow10 (e : Int) : Nat := Nat.pow 10 e.toNat

/-- The greatest `e` with `2 ^ e ≤ num / den`, for a positive ratio. -/
def floorLog2 (num den : Nat) : Int :=
  let e : Int := (num.log2 : Int) - den.log2
  if den * pow2 e ≤ num * pow2 (-e) then e else e - 1

namespace Format

/-- The reading of a pattern of this format. -/
def unpack (f : Format) (bits : Nat) : Reading :=
  let negative := f.signBit ≤ bits % (2 * f.signBit)
  let rest := bits % f.signBit
  let field := rest / f.hidden
  let fraction := rest % f.hidden
  if field = 1 <<< f.exponentBits - 1 then
    if fraction = 0 then .infinite negative else .nan negative
  else if field = 0 then .finite negative fraction f.leastUnit
  else .finite negative (f.hidden + fraction) (f.leastUnit + (field - 1 : Nat))

/-- The pattern of a reading that is counted in the unit the format keeps it in. -/
def pack (f : Format) (r : Reading) : Nat :=
  let signed (negative : Bool) (rest : Nat) := if negative then f.signBit + rest else rest
  match r with
  | .nan negative => signed negative (f.infinityBits + f.hidden / 2)
  | .infinite negative => signed negative f.infinityBits
  | .finite negative m u => signed negative ((u - f.leastUnit).toNat * f.hidden + m)

/-- The unit in which the format keeps values of the size of `num / den`. -/
def unitOf (f : Format) (num den : Nat) : Int :=
  max (floorLog2 num den + 1 - f.precision) f.leastUnit

/-- The format's nearest value to `num / den`, negated if `negative`. -/
def nearest (f : Format) (negative : Bool) (num den : Nat) : Reading :=
  if num = 0 then .finite negative 0 f.leastUnit
  else
    let u := f.unitOf num den
    let m := roundHalfEven (num * pow2 (-u)) (den * pow2 u)
    let (m, u) := if m = 2 * f.hidden then (f.hidden, u + 1) else (m, u)
    if f.greatestUnit < u then .infinite negative else .finite negative m u

/-- The format's nearest value to `m · 2 ^ u`. -/
def nearestScaled (f : Format) (negative : Bool) (m : Nat) (u : Int) : Reading :=
  f.nearest negative (m * pow2 u) (pow2 (-u))

/-- The format's nearest value to an integer; zero is positive. -/
def nearestInt (f : Format) (n : Int) : Reading := f.nearest (decide (n < 0)) n.natAbs 1

/-- The format's nearest value to a reading of any format. -/
def convert (f : Format) : Reading → Reading
  | .finite negative m u => f.nearestScaled negative m u
  | r => r

end Format

namespace Reading

def isNaN : Reading → Bool
  | .nan _ => true
  | _ => false

def isFinite : Reading → Bool
  | .finite .. => true
  | _ => false

def isZero : Reading → Bool
  | .finite _ m _ => m == 0
  | _ => false

def isNegative : Reading → Bool
  | .nan negative => negative
  | .infinite negative => negative
  | .finite negative _ _ => negative

def negate : Reading → Reading
  | .nan negative => .nan (!negative)
  | .infinite negative => .infinite (!negative)
  | .finite negative m u => .finite (!negative) m u

def abs : Reading → Reading
  | .nan _ => .nan false
  | .infinite _ => .infinite false
  | .finite _ m u => .finite false m u

/-- The magnitude as a ratio of natural numbers. -/
def ratio : Reading → Nat × Nat
  | .finite _ m u => (m * pow2 u, pow2 (-u))
  | _ => (0, 1)

/-- The signed multiple of `2 ^ u` for `u` not above the unit of the reading. -/
def count (u : Int) : Reading → Int
  | .finite negative m v =>
    let n : Nat := m * pow2 (v - u)
    if negative then -(n : Int) else n
  | _ => 0

/-- A unit in which both magnitudes are integers. -/
def commonUnit : Reading → Reading → Int
  | .finite _ _ u, .finite _ _ v => min u v
  | _, _ => 0

/-- The greatest integer that is not above the reading, if it is finite. -/
def floor? : Reading → Option Int
  | .finite negative m u =>
    let n : Int := (m * pow2 u : Nat)
    let d : Int := (pow2 (-u) : Nat)
    some (Int.fdiv (if negative then -n else n) d)
  | _ => none

/-- The integer that the reading is equal to, if there is one. -/
def exactInt? (r : Reading) : Option Int :=
  match r with
  | .finite negative m u =>
    if m * pow2 u % pow2 (-u) = 0 then
      let n : Nat := m * pow2 u / pow2 (-u)
      some (if negative then -(n : Int) else n)
    else none
  | _ => none

/-! ### Comparison -/

/-- The order of the values, `none` if one of them is not a number; the two zeros are equal. -/
def compare? : Reading → Reading → Option Ordering
  | .nan _, _ => none
  | _, .nan _ => none
  | .infinite false, .infinite false => some .eq
  | .infinite true, .infinite true => some .eq
  | .infinite negative, _ => some (if negative then .lt else .gt)
  | _, .infinite negative => some (if negative then .gt else .lt)
  | a, b => let u := commonUnit a b; some (compare (a.count u) (b.count u))

def lt (a b : Reading) : Bool := compare? a b == some .lt

def le (a b : Reading) : Bool := compare? a b == some .lt || compare? a b == some .eq

def eq (a b : Reading) : Bool := compare? a b == some .eq

end Reading

namespace Format

open Reading

/-- The result of an operation that has no number as its value. -/
def invalid : Reading := .nan true

/-- The one of two operands that is not a number, the first before the second. -/
def nanOf : Reading → Reading → Option Reading
  | .nan negative, _ => some (.nan negative)
  | _, .nan negative => some (.nan negative)
  | _, _ => none

/-! ### Arithmetic -/

def add (f : Format) (a b : Reading) : Reading :=
  match nanOf a b with
  | some r => r
  | none =>
    match a, b with
    | .infinite s, .infinite t => if s = t then .infinite s else invalid
    | .infinite s, _ => .infinite s
    | _, .infinite t => .infinite t
    | a, b =>
      let u := commonUnit a b
      let sum := a.count u + b.count u
      if sum = 0 then .finite (a.isNegative && b.isNegative) 0 f.leastUnit
      else f.nearestScaled (decide (sum < 0)) sum.natAbs u

def sub (f : Format) (a b : Reading) : Reading :=
  match nanOf a b with
  | some r => r
  | none => f.add a b.negate

def mul (f : Format) (a b : Reading) : Reading :=
  match nanOf a b with
  | some r => r
  | none =>
    let negative := a.isNegative != b.isNegative
    match a, b with
    | .finite _ m u, .finite _ n v => f.nearestScaled negative (m * n) (u + v)
    | a, b => if a.isZero || b.isZero then invalid else .infinite negative

def div (f : Format) (a b : Reading) : Reading :=
  match nanOf a b with
  | some r => r
  | none =>
    let negative := a.isNegative != b.isNegative
    match a, b with
    | .infinite _, .infinite _ => invalid
    | .infinite _, _ => .infinite negative
    | _, .infinite _ => .finite negative 0 f.leastUnit
    | a, b =>
      if b.isZero then if a.isZero then invalid else .infinite negative
      else f.nearest negative (a.ratio.1 * b.ratio.2) (a.ratio.2 * b.ratio.1)

/-- The remainder of the division toward zero; it has the sign of the first operand. -/
def mod (f : Format) (a b : Reading) : Reading :=
  match nanOf a b with
  | some r => r
  | none =>
    match a, b with
    | .infinite _, _ => invalid
    | a, .infinite _ => a
    | a, b =>
      if b.isZero then invalid
      else
        let u := commonUnit a b
        f.nearestScaled a.isNegative ((a.count u).natAbs % (b.count u).natAbs) u

/-- The integer square root, by one more binary digit of the root for each two of the number. -/
def rootFloor : Nat → Nat → Nat
  | 0, _ => 0
  | digits + 1, n =>
    let half := 2 * rootFloor digits (n / 4)
    if (half + 1) * (half + 1) ≤ n then half + 1 else half

/-- The square root: the radicand is scaled so that its integer root has bits to spare, and a bit
that stands for the remainder keeps an inexact root off a tie. -/
def sqrt (f : Format) (a : Reading) : Reading :=
  match a with
  | .nan negative => .nan negative
  | .infinite negative => if negative then invalid else .infinite false
  | .finite negative m u =>
    if m = 0 then .finite negative 0 f.leastUnit
    else if negative then invalid
    else
      let shift : Nat := 2 * f.precision + (if (u - 2 * (f.precision : Int)) % 2 = 0 then 0 else 1)
      let radicand := m <<< shift
      let root := rootFloor (radicand.log2 / 2 + 1) radicand
      let sticky := if root * root = radicand then 0 else 1
      f.nearestScaled false (2 * root + sticky) ((u - shift) / 2 - 1)

end Format

end EntityScripting.Number
