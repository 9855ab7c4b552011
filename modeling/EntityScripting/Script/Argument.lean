import EntityScripting.Script.Operation

/-!
# Arguments

What a built-in function takes from its arguments. The functions of the engine convert them and say
which conversion failed; the general functions check them and raise an error at the place of the
call.
-/

namespace EntityScripting.Script

open Number Text Activity

/-- A call of a built-in function. -/
structure Invocation where
  name : String
  args : List Value
  trace : Trace

namespace Invocation

/-- Where the function was called. -/
def place (call : Invocation) : Place := call.trace.head?.join

/-- The argument at a position from one on, nil if it is missing. -/
def arg (call : Invocation) (n : Nat) : Value := (call.args[n - 1]?).getD .nil

def has (call : Invocation) (n : Nat) : Bool := n ≤ call.args.length

/-- Whether the argument is missing or nil. -/
def lacks (call : Invocation) (n : Nat) : Bool := call.arg n = .nil

/-- Calls a value from within the function. -/
def callBack (call : Invocation) (callee : Value) (args : List Value) : Activity (List Value) :=
  Activity.call callee args (none :: call.trace)

/-! ### General functions -/

def fail {α : Type} (call : Invocation) (message : String) : Activity α :=
  Activity.fail call.place message

def badArgument {α : Type} (call : Invocation) (n : Nat) (reason : String) : Activity α :=
  call.fail (s!"bad argument #{n} to '" ++ call.name ++ s!"' ({reason})")

def unexpected {α : Type} (call : Invocation) (n : Nat) (expected : String) : Activity α :=
  let got := if call.has n then (call.arg n).operandTypeName else "no value"
  call.badArgument n s!"{expected} expected, got {got}"

/-- Any value, but not a missing one. -/
def value (call : Invocation) (n : Nat) : Activity Value :=
  if call.has n then pure (call.arg n) else call.badArgument n "value expected"

def number (call : Invocation) (n : Nat) : Activity Numeric :=
  match (call.arg n).toNumeric? with
  | some a => pure a
  | none => call.unexpected n "number"

def integer (call : Invocation) (n : Nat) : Activity Int := do
  match (← call.number n).toInteger? with
  | some i => return i.toInt
  | none => call.badArgument n "number has no integer representation"

def integerOr (call : Invocation) (n : Nat) (default : Int) : Activity Int :=
  if call.lacks n then pure default else call.integer n

def bytes (call : Invocation) (n : Nat) : Activity Bytes :=
  match (call.arg n).toBytes? with
  | some s => pure s
  | none => call.unexpected n "string"

def bytesOr (call : Invocation) (n : Nat) (default : Bytes) : Activity Bytes :=
  if call.lacks n then pure default else call.bytes n

def table (call : Invocation) (n : Nat) : Activity TableId :=
  match call.arg n with
  | .table t => pure t
  | _ => call.unexpected n "table"

end Invocation

/-! ### Functions of the engine -/

/-- The conversion of a value to a type that the engine takes, or why it fails. -/
abbrev Conversion (α : Type) := Value → Except String α

namespace Conversion

def failure {α : Type} (v : Value) (target note : String) : Except String α :=
  .error (s!"error converting Lua {v.engineTypeName} to {target}"
    ++ if note.isEmpty then "" else s!" ({note})")

/-- Text of well-formed bytes, or of a number as scripts write it. -/
def text : Conversion String
  | .text s =>
    match decode s with
    | .ok s => .ok s
    | .error e => failure (.text s) "String" e.message
  | v =>
    match v.numeric? with
    | some n => .ok n.text
    | none => failure v "String" "expected string or number"

/-- A number, or what a text stands for, rounded to single precision. -/
def single : Conversion Single := fun v =>
  match v.toNumeric? with
  | some n => .ok (Single.ofDouble n.toDouble)
  | none => failure v "f32" "expected number or string coercible to number"

def table : Conversion TableId
  | .table t => .ok t
  | v => failure v "table" ""

def function : Conversion Value
  | .function f => .ok (.function f)
  | v => failure v "function" ""

/-- Nothing for nil. -/
def optional {α : Type} (convert : Conversion α) : Conversion (Option α)
  | .nil => .ok none
  | v => (convert v).map some

end Conversion

namespace Invocation

/-- The argument at a position, converted. -/
def take {α : Type} (call : Invocation) (n : Nat) (convert : Conversion α) : Activity α :=
  match convert (call.arg n) with
  | .ok a => pure a
  | .error reason => refuse (.argument s!"bad argument #{n}: {reason}")

/-- An argument of a method; the receiver is the first. -/
def takeOf {α : Type} (call : Invocation) (owner : String) (n : Nat) (convert : Conversion α) :
    Activity α :=
  match convert (call.arg n) with
  | .ok a => pure a
  | .error reason =>
    refuse (.argument (s!"bad argument #{n} to `{owner}." ++ call.name ++ s!"`: {reason}"))

/-- The receiver of a method. -/
def receiver {α : Type} (call : Invocation) (owner : String) (accept : UserData → Option α) :
    Activity α :=
  let refusal (reason : String) : Activity α :=
    refuse (.argument (s!"bad argument `self` to `{owner}." ++ call.name ++ s!"`: {reason}"))
  match call.args with
  | [] => refusal "error converting Lua missing argument to userdata"
  | .userdata data _ :: _ =>
    match accept data with
    | some a => pure a
    | none => refusal "userdata is not expected type"
  | _ :: _ => refusal "userdata is not expected type"

end Invocation

end EntityScripting.Script
