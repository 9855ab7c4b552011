import EntityScripting.Script.Argument

/-!
# Mathematical functions

Integers stay integers where the result is one. Trigonometric functions, logarithms and powers are
those of the platform; everything else is exact or rounded once.
-/

namespace EntityScripting.Script

open Number Text Activity

namespace Numeric

/-- An integral float as an integer, if it has 64 bits. -/
def ofIntegral (x : Double) : Numeric :=
  match (Numeric.number x).toInteger? with
  | some n => .integer n
  | none => .number x

/-- The greatest integer that is not above a number. -/
def floor : Numeric → Numeric
  | .integer n => .integer n
  | .number x => ofIntegral x.floor

/-- The least integer that is not below a number. -/
def ceil : Numeric → Numeric
  | .integer n => .integer n
  | .number x => ofIntegral x.ceil

def abs : Numeric → Numeric
  | .integer n => .integer (if n < 0 then -n else n)
  | .number x => .number x.abs

/-- A number without its fraction, and the fraction. -/
def parts : Numeric → Numeric × Double
  | .integer n => (.integer n, Double.zero)
  | .number x =>
    let whole := if x.lt Double.zero then x.ceil else x.floor
    (.number whole, if x.eq whole then Double.zero else x.sub whole)

end Numeric

/-- A function of the platform. -/
def onPlatform (f : Float → Float) (x : Double) : Double := ⟨(f (Float.ofBits x.bits)).toBits⟩

namespace MathFunction

/-- The ratio of the circumference of a circle to its diameter. -/
def pi : Double := ⟨0x400921FB54442D18⟩

/-- The entries of the table that are no functions. -/
def constants : List (String × Value) :=
  [("pi", .number pi), ("huge", .number Double.infinity),
    ("maxinteger", .integer Int64.maxValue),
    ("mininteger", .integer Int64.minValue)]

/-- The one of some values, the first of them `best`, that none of the others comes before. -/
def extreme (before : Value → Value → Activity Bool) (best : Value) : List Value → Activity Value
  | [] => pure best
  | v :: rest => do extreme before (if ← before v best then v else best) rest

/-- The remainder of a division toward zero. -/
def remainder (call : Invocation) : Activity Value := do
  match call.arg 1, call.arg 2 with
  | .integer m, .integer n =>
    if n = 0 then call.badArgument 2 "zero"
    else return .integer (Int64.ofInt (m.toInt.tmod n.toInt))
  | _, _ => return .number ((← call.number 1).toDouble.remainder (← call.number 2).toDouble)

/-- The logarithm to a base, the natural one if none is given. -/
def logarithm (call : Invocation) : Activity Value := do
  let x := (← call.number 1).toDouble
  if call.lacks 2 then return .number (onPlatform Float.log x)
  else
    let base := (← call.number 2).toDouble
    if base.eq (Double.ofInt 2) then return .number (onPlatform Float.log2 x)
    else if base.eq (Double.ofInt 10) then return .number (onPlatform Float.log10 x)
    else return .number ((onPlatform Float.log x).div (onPlatform Float.log base))

/-- How many floats below one are drawn from. -/
def fractions : Nat := 0x20000000000000

/-- An integer by chance between two bounds. A single bound of zero stands for all integers. -/
def drawnBetween (call : Invocation) (low high : Int) : Activity Value := do
  if call.args.length = 1 ∧ high = 0 then
    return .integer (Int64.ofNat (← ask (.draw UInt64.size)))
  else if high < low then call.badArgument call.args.length "interval is empty"
  else return .integer (Int64.ofInt (low + (← ask (.draw (high - low + 1).toNat))))

/-- A number by chance: below one without arguments, else an integer between two bounds. -/
def drawn (call : Invocation) : Activity Value := do
  match call.args with
  | [] => return .number ((Double.ofInt (← ask (.draw fractions))).div (Double.ofInt fractions))
  | [_] => drawnBetween call 1 (← call.integer 1)
  | [_, _] => drawnBetween call (← call.integer 1) (← call.integer 2)
  | _ => call.fail "wrong number of arguments"

def run (f : MathFunction) (call : Invocation) : Activity (List Value) := do
  let plain (g : Float → Float) : Activity (List Value) :=
    return [.number (onPlatform g (← call.number 1).toDouble)]
  match f with
  | .abs => return [(← call.number 1).abs.value]
  | .ceil => return [(← call.number 1).ceil.value]
  | .floor => return [(← call.number 1).floor.value]
  | .max => do
    let best ← extreme (fun v best => best.lessThan none v) (← call.value 1) call.args.tail
    return [best]
  | .min => do
    let best ← extreme (fun v best => v.lessThan none best) (← call.value 1) call.args.tail
    return [best]
  | .fmod => return [← remainder call]
  | .modf => do
    let (whole, fraction) := (← call.number 1).parts
    return [whole.value, .number fraction]
  | .log => return [← logarithm call]
  | .exp => plain Float.exp
  | .sqrt => return [.number (← call.number 1).toDouble.sqrt]
  | .sin => plain Float.sin
  | .cos => plain Float.cos
  | .tan => plain Float.tan
  | .asin => plain Float.asin
  | .acos => plain Float.acos
  | .atan => do
    let y := (← call.number 1).toDouble
    let x := (← if call.lacks 2 then pure (.integer 1) else call.number 2).toDouble
    return [.number ⟨(Float.atan2 (Float.ofBits y.bits) (Float.ofBits x.bits)).toBits⟩]
  | .deg => return [.number ((← call.number 1).toDouble.mul ((Double.ofInt 180).div pi))]
  | .rad => return [.number ((← call.number 1).toDouble.mul (pi.div (Double.ofInt 180)))]
  | .tointeger => do
    match (← call.value 1).toNumeric?.bind Numeric.toInteger? with
    | some n => return [.integer n]
    | none => return [.nil]
  | .type => do
    match ← call.value 1 with
    | .integer _ => return [.ofString "integer"]
    | .number _ => return [.ofString "float"]
    | _ => return [.nil]
  | .ult => do
    let (m, n) := (Int64.ofInt (← call.integer 1), Int64.ofInt (← call.integer 2))
    return [.boolean (m.toUInt64 < n.toUInt64)]
  | .random => return [← drawn call]
  | .randomseed => return []

end MathFunction

end EntityScripting.Script
