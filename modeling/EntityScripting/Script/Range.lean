import EntityScripting.Script.Arithmetic

/-!
# Ranges

The values of a counting loop. With an integer start and an integer step all of them are integers,
and their number is known beforehand, so the count never runs past the last integer; otherwise they
are floats that are added up one after another.
-/

namespace EntityScripting.Script

open Number

/-- The values that are still to come. -/
inductive Range where
  | integers (next step : Int64) (count : Nat)
  | numbers (next : Option Double) (limit step : Double)
deriving DecidableEq, Repr, Inhabited

inductive RangeError where
  | noNumber (part typeName : String)
  | zeroStep
deriving DecidableEq, Repr, Inhabited

def RangeError.message : RangeError → String
  | .noNumber part typeName => s!"bad 'for' {part} (number expected, got {typeName})"
  | .zeroStep => "'for' step is zero"

namespace Range

/-- The integer where a range ends: the limit rounded toward the start and cut to 64 bits. -/
def lastInteger (isRising : Bool) : Numeric → Int
  | .integer n => n.toInt
  | .number x =>
    match (if isRising then x.read.floor? else x.negate.read.floor?.map (-·)) with
    | some n => max Int64.minValue.toInt (min Int64.maxValue.toInt n)
    | none => (if Double.zero.lt x then Int64.maxValue else Int64.minValue).toInt

/-- Whether a limit lies beyond all integers on the side where the range begins. -/
def isOutside (isRising : Bool) : Numeric → Bool
  | .integer _ => false
  | .number x =>
    if isRising then (Numeric.number x).lt (.integer Int64.minValue) || x.isNaN
    else (Numeric.integer Int64.maxValue).lt (.number x)

def ofIntegers (start step : Int64) (limit : Numeric) : Range :=
  let isRising := 0 < step.toInt
  let last := lastInteger isRising limit
  let distance := if isRising then last - start.toInt else start.toInt - last
  if isOutside isRising limit ∨ distance < 0 then .integers start step 0
  else .integers start step (distance.toNat / step.toInt.natAbs + 1)

def ofNumbers (start limit step : Double) : Range :=
  let isEmpty := if Double.zero.lt step then limit.lt start else start.lt limit
  .numbers (if isEmpty then none else some start) limit step

/-- The range of three values, or the first fault among them. -/
def ofValues (start limit step : Value) : Except RangeError Range :=
  let number (part : String) (v : Value) : Except RangeError Numeric :=
    match v.toNumeric? with
    | some n => .ok n
    | none => .error (.noNumber part v.operandTypeName)
  match start, step with
  | .integer m, .integer n => do
    if n = 0 then throw .zeroStep
    return ofIntegers m n (← number "limit" limit)
  | start, step => do
    let limit ← number "limit" limit
    let step ← number "step" step
    let start ← number "initial value" start
    if step.toDouble.eq Double.zero then throw .zeroStep
    return ofNumbers start.toDouble limit.toDouble step.toDouble

/-- The next value, and the values after it. -/
def next? : Range → Option (Value × Range)
  | .integers _ _ 0 => none
  | .integers n step (count + 1) => some (.integer n, .integers (n + step) step count)
  | .numbers none _ _ => none
  | .numbers (some x) limit step =>
    let following := x.add step
    let goesOn := if Double.zero.lt step then following.le limit else limit.le following
    some (.number x, .numbers (if goesOn then some following else none) limit step)

end Range

end EntityScripting.Script
