import EntityScripting.Number.Notation
import EntityScripting.Script.Numeral
import EntityScripting.Script.Value

/-!
# Arithmetic of scripts

Integers wrap around at 64 bits; an operation with a float makes a float of both operands. Integer
quotients are rounded down, so a remainder has the sign of the divisor. Integers and floats are
compared exactly, never by rounding one to the other's type.
-/

namespace EntityScripting.Script

open Number Text

/-- Why an operation on values fails. -/
inductive OperationError where
  | arithmetic (typeName : String)
  | bitwise (typeName : String)
  /-- A float with a fraction, or too large, where an integer is needed. -/
  | noInteger
  | divisionByZero
  | remainderByZero
  | concat (typeName : String)
  | compare (left right : String)
  | length (typeName : String)
  | index (typeName : String)
  | call (typeName : String)
deriving DecidableEq, Repr, Inhabited

def OperationError.message : OperationError → String
  | .arithmetic typeName => s!"attempt to perform arithmetic on a {typeName} value"
  | .bitwise typeName => s!"attempt to perform bitwise operation on a {typeName} value"
  | .noInteger => "number has no integer representation"
  | .divisionByZero => "attempt to perform 'n//0'"
  | .remainderByZero => "attempt to perform 'n%%0'"
  | .concat typeName => s!"attempt to concatenate a {typeName} value"
  | .compare left right =>
    if left = right then s!"attempt to compare two {left} values"
    else s!"attempt to compare {left} with {right}"
  | .length typeName => s!"attempt to get length of a {typeName} value"
  | .index typeName => s!"attempt to index a {typeName} value"
  | .call typeName => s!"attempt to call a {typeName} value"

namespace Numeric

def toDouble : Numeric → Double
  | .integer n => Double.ofInt n.toInt
  | .number x => x

/-- The exact value. -/
def reading : Numeric → Reading
  | .integer n => .finite (decide (n < 0)) n.toInt.natAbs 0
  | .number x => x.read

def eq (a b : Numeric) : Bool := a.reading.eq b.reading

def lt (a b : Numeric) : Bool := a.reading.lt b.reading

def le (a b : Numeric) : Bool := a.reading.le b.reading

/-- The integer that a number is equal to, if it has 64 bits. -/
def toInteger? : Numeric → Option Int64
  | .integer n => some n
  | .number x => x.exactInt?.bind int64OfInt?

/-- A number as scripts write it. -/
def text : Numeric → String
  | .integer n => intText n.toInt
  | .number x => x.scriptText

def value : Numeric → Value
  | .integer n => .integer n
  | .number x => .number x

end Numeric

/-- The bits of an integer moved up by `n` places, down for a negative `n`; zeros come in. -/
def shift (x n : Int64) : Int64 :=
  let bits := x.toUInt64.toNat
  let places := n.toInt
  if places ≤ -64 ∨ 64 ≤ places then 0
  else if 0 ≤ places then Int64.ofNat (bits <<< places.toNat)
  else Int64.ofNat (bits >>> (-places).toNat)

namespace Numeric

/-- An operation that makes an integer of two integers and a float of all others. -/
def combine (onIntegers : Int64 → Int64 → Int64) (onFloats : Double → Double → Double)
    (a b : Numeric) : Except OperationError Numeric :=
  match a, b with
  | .integer m, .integer n => .ok (.integer (onIntegers m n))
  | a, b => .ok (.number (onFloats a.toDouble b.toDouble))

/-- An operation on the bits of two integers. -/
def bitwise (op : Int64 → Int64 → Int64) (a b : Numeric) : Except OperationError Numeric :=
  match a.toInteger?, b.toInteger? with
  | some m, some n => .ok (.integer (op m n))
  | _, _ => .error .noInteger

/-- Whether two operands are integers of which the second is zero. -/
def isZeroDivision : Numeric → Numeric → Bool
  | .integer _, .integer n => n == 0
  | _, _ => false

/-- The number that an operator makes of two numbers; the operators that do not make numbers have
none. -/
def operate (op : BinaryOp) (a b : Numeric) : Option (Except OperationError Numeric) :=
  match op with
  | .add => some (combine (· + ·) Double.add a b)
  | .sub => some (combine (· - ·) Double.sub a b)
  | .mul => some (combine (· * ·) Double.mul a b)
  | .div => some (.ok (.number (a.toDouble.div b.toDouble)))
  | .pow => some (.ok (.number (a.toDouble.pow b.toDouble)))
  | .floorDiv => some (if isZeroDivision a b then .error .divisionByZero
      else combine (fun m n => Int64.ofInt (Int.fdiv m.toInt n.toInt)) Double.floorDiv a b)
  | .mod => some (if isZeroDivision a b then .error .remainderByZero
      else combine (fun m n => Int64.ofInt (Int.fmod m.toInt n.toInt)) Double.floorMod a b)
  | .bitAnd => some (bitwise (· &&& ·) a b)
  | .bitOr => some (bitwise (· ||| ·) a b)
  | .bitXor => some (bitwise (· ^^^ ·) a b)
  | .shiftLeft => some (bitwise shift a b)
  | .shiftRight => some (bitwise (fun m n => if n = Int64.minValue then 0 else shift m (-n)) a b)
  | _ => none

def negate : Numeric → Numeric
  | .integer n => .integer (-n)
  | .number x => .number x.negate

end Numeric

namespace Value

/-- The number that a value is. -/
def numeric? : Value → Option Numeric
  | .integer n => some (.integer n)
  | .number x => some (.number x)
  | _ => none

/-- The number that a value is or that its text stands for. -/
def toNumeric? : Value → Option Numeric
  | .text s => Numeric.ofBytes? s
  | v => v.numeric?

/-- The text that a value is or that its number is written as. -/
def toBytes? : Value → Option Bytes
  | .text s => some s
  | v => v.numeric?.map fun n => utf8 n.text

/-- Equality without regard to what the engine's values contain. -/
def rawEq (v w : Value) : Bool :=
  match v.numeric?, w.numeric? with
  | some a, some b => a.eq b
  | _, _ => v == w

end Value

end EntityScripting.Script
