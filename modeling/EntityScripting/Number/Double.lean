import EntityScripting.Number.Binary

/-!
# The two float types

`Double` is the number type of scripts and of saved numbers, `Single` that of entities: time, delays
and vectors. A value is its bit pattern, so two values are equal when they are the same bits; the
numeric comparisons are `lt`, `le` and `eq`.
-/

namespace EntityScripting.Number

/-- A 64-bit float. -/
structure Double where
  bits : UInt64 := 0
deriving DecidableEq, Repr, Inhabited

/-- A 32-bit float. -/
structure Single where
  bits : UInt32 := 0
deriving DecidableEq, Repr, Inhabited

namespace Double

def read (x : Double) : Reading := binary64.unpack x.bits.toNat

def ofReading (r : Reading) : Double := ⟨(binary64.pack r).toUInt64⟩

def zero : Double := {}

/-- The nearest value to an integer. -/
def ofInt (n : Int) : Double := ofReading (binary64.nearestInt n)

def nan : Double := ofReading (.nan false)

def infinity : Double := ofReading (.infinite false)

def isNaN (x : Double) : Bool := x.read.isNaN

def isFinite (x : Double) : Bool := x.read.isFinite

def negate (x : Double) : Double := ofReading x.read.negate

def abs (x : Double) : Double := ofReading x.read.abs

def add (x y : Double) : Double := ofReading (binary64.add x.read y.read)

def sub (x y : Double) : Double := ofReading (binary64.sub x.read y.read)

def mul (x y : Double) : Double := ofReading (binary64.mul x.read y.read)

def div (x y : Double) : Double := ofReading (binary64.div x.read y.read)

def sqrt (x : Double) : Double := ofReading (binary64.sqrt x.read)

def lt (x y : Double) : Bool := x.read.lt y.read

def le (x y : Double) : Bool := x.read.le y.read

def eq (x y : Double) : Bool := x.read.eq y.read

/-- The greatest integral value that is not above `x`; a zero result keeps the sign of `x`. -/
def floor (x : Double) : Double :=
  match x.read with
  | .finite negative 0 u => ofReading (.finite negative 0 u)
  | r =>
    match r.floor? with
    | some n => ofInt n
    | none => x

/-- The least integral value that is not below `x`. -/
def ceil (x : Double) : Double := (x.negate.floor).negate

/-- The remainder of the division toward zero. -/
def remainder (x y : Double) : Double := ofReading (binary64.mod x.read y.read)

/-- The quotient rounded down. -/
def floorDiv (x y : Double) : Double := (x.div y).floor

/-- The remainder with the sign of the divisor. -/
def floorMod (x y : Double) : Double :=
  let r := x.remainder y
  let opposite := if zero.lt r then y.lt zero else r.lt zero && zero.lt y
  if opposite then r.add y else r

/-- A power. The square is a product; other powers are those of the platform. -/
def pow (x y : Double) : Double :=
  if y.bits = (ofInt 2).bits then x.mul x
  else
    let result := Float.pow (Float.ofBits x.bits) (Float.ofBits y.bits)
    if result.isNaN then
      if x.isNaN then x else if y.isNaN then y else ofReading (.nan true)
    else ⟨result.toBits⟩

/-- The integer that `x` is equal to, if there is one. -/
def exactInt? (x : Double) : Option Int := x.read.exactInt?

/-- Whether `x` is a finite integral value. -/
def isIntegral (x : Double) : Bool := x.exactInt?.isSome

end Double

namespace Single

def read (x : Single) : Reading := binary32.unpack x.bits.toNat

def ofReading (r : Reading) : Single := ⟨(binary32.pack r).toUInt32⟩

def zero : Single := {}

/-- The nearest value to an integer. -/
def ofInt (n : Int) : Single := ofReading (binary32.nearestInt n)

/-- The nearest value to a 64-bit float. -/
def ofDouble (x : Double) : Single := ofReading (binary32.convert x.read)

/-- The same value as a 64-bit float. -/
def toDouble (x : Single) : Double := Double.ofReading (binary64.convert x.read)

def isNaN (x : Single) : Bool := x.read.isNaN

def isFinite (x : Single) : Bool := x.read.isFinite

def negate (x : Single) : Single := ofReading x.read.negate

def add (x y : Single) : Single := ofReading (binary32.add x.read y.read)

def sub (x y : Single) : Single := ofReading (binary32.sub x.read y.read)

def mul (x y : Single) : Single := ofReading (binary32.mul x.read y.read)

def div (x y : Single) : Single := ofReading (binary32.div x.read y.read)

def sqrt (x : Single) : Single := ofReading (binary32.sqrt x.read)

def one : Single := ofInt 1

def lt (x y : Single) : Bool := x.read.lt y.read

def le (x y : Single) : Bool := x.read.le y.read

def eq (x y : Single) : Bool := x.read.eq y.read

/-- The larger of `x` and zero, and zero for what is not a number. -/
def orZero (x : Single) : Single := if zero.lt x then x else zero

/-- Where a pattern stands in the order of all patterns: negative ones from the largest magnitude
up, then positive ones, with the patterns that are not numbers at both ends. -/
def rank (x : Single) : Int :=
  let magnitude : Int := (x.bits.toNat % 0x80000000 : Nat)
  if x.bits.toNat < 0x80000000 then magnitude else -magnitude - 1

end Single

end EntityScripting.Number
