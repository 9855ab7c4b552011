import EntityScripting.Script.Argument

/-!
# Base functions

The functions that a script finds without a table: errors and their guard, iteration, conversions
and printing. `pairs` of a view goes through the table behind it.
-/

namespace EntityScripting.Script

open Number Text Activity

/-- The value of a digit in bases up to 36. -/
def baseDigit? (c : Char) : Option Nat :=
  if c.isDigit then some (c.toNat - '0'.toNat)
  else if c.isAlpha then some (c.toUpper.toNat - 'A'.toNat + 10)
  else none

/-- The integer that a text stands for in a base; it wraps around. -/
def integerInBase? (base : Nat) (bs : Bytes) : Option Int64 :=
  let cs := (bs.map fun b => Char.ofNat b.toNat).dropWhile Numeral.isSpace
  let (negative, digits) := takeSign (cs.reverse.dropWhile Numeral.isSpace).reverse
  let step (n : Option Nat) (c : Char) : Option Nat := do
    let digit ← baseDigit? c
    if digit < base then some (base * (← n) + digit) else none
  if digits.isEmpty then none
  else (digits.foldl step (some 0)).map fun n =>
    Int64.ofInt (if negative then -(n : Int) else n)

/-- Raises a value; a text gets in front of it the place that is `level` calls up. -/
def raiseAt {α : Type} (trace : Trace) (level : Int) (error : Value) : Activity α :=
  match error with
  | .text message =>
    let place := if 0 < level then (trace.drop (level.toNat - 1)).head?.join else none
    raise (.text ((place.map Site.text).getD [] ++ message))
  | error => raise error

namespace BaseFunction

/-- A table with the present values of a table of variables. -/
def snapshot (kind : VariableKind) : Activity Value := do
  let values ← (← ask (.allVariables kind)).mapM fun (name, value) => do
    return (Value.ofString name, ← Value.ofScriptValue value)
  return .table (← access (.newTable (.ofList values)))

/-- The parts of an iteration over a value. -/
def pairsOf (call : Invocation) : Activity (List Value) := do
  let state ← match ← call.value 1 with
    | .table t => pure (.table (← access (.source t)))
    | .userdata (.variableTable kind) _ => snapshot kind
    | v => pure v
  return [.builtin (.base .next), state, .nil]

def selected (call : Invocation) : Activity (List Value) :=
  let count := call.args.length
  match call.arg 1 with
  | .text (35 :: _) => pure [.ofNat (count - 1)]
  | _ => do
    let i ← call.integer 1
    let i := if i < 0 then count + i else i
    if i < 1 then call.badArgument 1 "index out of range" else return call.args.drop i.toNat

def converted (call : Invocation) : Activity (List Value) :=
  if call.lacks 2 then do
    match (← call.value 1).toNumeric? with
    | some n => return [n.value]
    | none => return [.nil]
  else do
    let base ← call.integer 2
    match call.arg 1 with
    | .text s =>
      if 2 ≤ base ∧ base ≤ 36 then
        match integerInBase? base.toNat s with
        | some n => return [.integer n]
        | none => return [.nil]
      else call.badArgument 2 "base out of range"
    | _ => call.unexpected 1 "string"

def run (f : BaseFunction) (call : Invocation) : Activity (List Value) :=
  match f with
  | .assert => do
    if (← call.value 1).isTrue then return call.args
    else raiseAt call.trace 1 (if call.has 2 then call.arg 2 else .ofString "assertion failed!")
  | .error => do raiseAt call.trace (← call.integerOr 2 1) (call.arg 1)
  | .ipairs => do return [.builtin .position, ← call.value 1, .integer 0]
  | .next => do
    match ← access (.next (← call.table 1) (call.arg 2)) with
    | some (key, value) => return [key, value]
    | none => return [.nil]
  | .pairs => pairsOf call
  | .pcall =>
    match call.args with
    | [] => raise (.ofString "not enough arguments to pcall")
    | callee :: args => do
      match ← guard callee args (none :: call.trace) with
      | .ok values => return .boolean true :: values
      | .error e => return [.boolean false, e]
  | .select => selected call
  | .tonumber => converted call
  | .tostring => do return [.text (← (← call.value 1).toText)]
  | .type => do return [.ofString (← call.value 1).typeName]
  | .print => do
    ask (.print ("\t".intercalate (call.args.map Value.printed)))
    return []

end BaseFunction

/-- One step of an iteration over the positions from one on. -/
def nextPosition (call : Invocation) : Activity (List Value) := do
  let i := .integer (Int64.ofInt ((← call.integer 2) + 1))
  match ← (call.arg 1).index none i with
  | .nil => return [.nil]
  | v => return [i, v]

end EntityScripting.Script
