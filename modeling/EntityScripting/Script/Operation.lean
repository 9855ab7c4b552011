import EntityScripting.Script.Arithmetic
import EntityScripting.Script.Routine

/-!
# Operations on values

Indexing, assignment, the operators and the text of a value, as a script performs them at a place of
its own or as a built-in function performs them at none. What an entity, a vector or a table of
variables does under an operation is decided here.
-/

namespace EntityScripting.Script

open Number Text Activity

/-- An operand: a value that is already known, or a variable that is read when it is needed. -/
inductive Operand where
  | value (v : Value)
  | cell (id : CellId)

def Operand.read : Operand → Activity Value
  | .value v => pure v
  | .cell id => access (.cell id)

/-- Where an operation takes place; none for one of a built-in function. -/
abbrev Place := Option Site

/-- Raises the error of an operation. -/
def failWith {α : Type} (place : Place) (error : OperationError) : Activity α :=
  fail place error.message

namespace Value

/-- A variable's value as a script gets it. -/
def ofScriptValue : ScriptValue → Activity Value
  | .integer n => pure (.integer n)
  | .number x => pure (.number x)
  | .boolean b => pure (.boolean b)
  | .text s => pure (ofString s)
  | .entity h => wrap (.entity h)
  | .vector v => wrap (.vector v)

/-- An entity, or nil for none. -/
def ofHandle? : Option Handle → Activity Value
  | some h => wrap (.entity h)
  | none => pure .nil

/-! ### Text -/

/-- What the text of a fault has after its message. -/
def faultTrailer : String := "\nstack traceback:\n\t[C]: in ?"

/-- The text of a value without a text of its own: its type and a number that tells it apart. -/
def anonymousText (v : Value) : String :=
  let number := match v with
    | .table t => 4 * t
    | .function (.closure f) => 4 * f + 1
    | .function (.cursor c) => 4 * c + 2
    | .userdata _ i => 4 * i + 3
    | _ => 0
  s!"{v.operandTypeName}: 0x{natText number}"

/-- The text of a value, given the texts of entities. -/
def textWith (describe : Handle → String) : Value → Bytes
  | .nil => utf8 "nil"
  | .boolean b => utf8 (if b then "true" else "false")
  | .integer n => utf8 (intText n.toInt)
  | .number x => utf8 x.scriptText
  | .text s => s
  | .userdata (.entity h) _ => utf8 (describe h)
  | .userdata (.vector v) _ => utf8 (v.text " ")
  | .userdata (.fault cause) _ => utf8 (cause.message ++ faultTrailer)
  | .function (.builtin b) => utf8 s!"function: builtin: {b.label}"
  | v => utf8 v.anonymousText

def toText (v : Value) : Activity Bytes :=
  match v with
  | .userdata (.entity h) _ => return utf8 (← ask (.describe h))
  | v => pure (v.textWith Handle.text)

/-- Why a routine failed, as the engine keeps it: its own errors as they are, all others as the part
of their text in front of a zero byte. -/
def causeWith (describe : Handle → String) : Value → Cause
  | .userdata (.fault cause) _ => cause
  | error => .failure (lossy ((error.textWith describe).takeWhile (· != 0)))

def toCause (error : Value) : Activity Cause :=
  match error with
  | .userdata (.entity h) _ => do
    let text ← ask (.describe h)
    return error.causeWith fun _ => text
  | error => pure (error.causeWith Handle.text)

/-- A value as it is printed. -/
def printed : Value → String
  | .nil => "nil"
  | .boolean b => if b then "true" else "false"
  | .integer n => intText n.toInt
  | .number x => x.storedText
  | .text s => lossy s
  | .userdata (.entity h) _ => h.text
  | .userdata (.vector v) _ => v.text " "
  | v => v.engineTypeName

/-! ### Members -/

/-- The member of this name among some built-in functions. -/
def memberOf {β : Type} (all : List β) (name : β → String) (make : β → Builtin) (key : Bytes) :
    Value :=
  match all.find? fun f => utf8 (name f) = key with
  | some f => builtin (make f)
  | none => .nil

/-- What a value has at a key. -/
def index (place : Place) (object key : Value) : Activity Value :=
  match object, key with
  | .table t, key => access (.get t key)
  | .text _, .text name => pure (memberOf TextFunction.all (·.name) .text name)
  | .text _, _ => pure .nil
  | .userdata (.entity _) _, .text name => pure (memberOf EntityMethod.all (·.name) .entity name)
  | .userdata (.entity _) _, _ => pure .nil
  | .userdata (.vector _) _, .text name => pure (memberOf VectorMethod.all (·.name) .vector name)
  | .userdata (.vector _) _, _ => pure .nil
  | .userdata (.variableTable kind) _, .text name => do
    match ← ask (.variable kind (lossy name)) with
    | some value => ofScriptValue value
    | none => return .nil
  | .userdata (.variableTable _) _, _ => pure .nil
  | object, _ => failWith place (.index object.operandTypeName)

/-- Puts a value at a key. Entities and vectors take none; the keys of variables are texts. -/
def setIndex (place : Place) (object key value : Value) : Activity Unit :=
  match object, key with
  | .table t, key => do
    match ← access (.set t key value) with
    | .ok () => return ()
    | .error (.refused e) => refuse (.refused e)
    | .error .nilKey => fail place "table index is nil"
    | .error .nanKey => fail place "table index is NaN"
  | .userdata (.entity _) _, _ | .userdata (.vector _) _, _ => refuse (.refused .readOnly)
  | .userdata (.variableTable kind) _, .text name => do
    orRefuse (← ask (.setVariable kind (lossy name) value.datum))
  | .userdata (.variableTable kind) _, _ => refuse (.refused (.variableKey kind))
  | object, _ => failWith place (.index object.operandTypeName)

/-- The number of items of a list or of bytes of a text. -/
def length (place : Place) (v : Value) : Activity Value :=
  match v with
  | .table t => return .ofNat (← access (.length t))
  | .text s => pure (.ofNat s.length)
  | v => failWith place (.length v.operandTypeName)

/-! ### Comparisons -/

/-- A wrong receiver of an entity's comparison. -/
def wrongReceiver (method : String) : Cause :=
  .argument s!"bad argument `self` to `EntityHandle.{method}`: userdata is not expected type"

/-- Equality. Two of the engine's values are compared as the first of them that knows how. -/
def equals (v w : Value) : Activity Bool :=
  match v, w with
  | .userdata a i, .userdata b j =>
    if i = j then pure true
    else match a, b with
      | .entity _, .fault _ => refuse (.argument
          "bad argument #2 to `EntityHandle.__eq`: error converting Lua error to userdata")
      | .entity h, b => pure (b == .entity h)
      | .vector x, .vector y => pure (x.eq y)
      | .vector _, _ => pure false
      | _, .entity _ => refuse (wrongReceiver "__eq")
      | _, _ => pure false
  | v, w => pure (v.rawEq w)

/-- An order of numbers and of texts. -/
def compare (place : Place) (onNumbers : Numeric → Numeric → Bool) (onTexts : Bytes → Bytes → Bool)
    (v w : Value) : Activity Bool :=
  match v, w with
  | .text s, .text t => pure (onTexts s t)
  | v, w =>
    match v.numeric?, w.numeric? with
    | some a, some b => pure (onNumbers a b)
    | _, _ => failWith place (.compare v.operandTypeName w.operandTypeName)

def lessThan (place : Place) : Value → Value → Activity Bool :=
  compare place Numeric.lt fun s t => decide (s < t)

def atMost (place : Place) : Value → Value → Activity Bool :=
  compare place Numeric.le fun s t => !decide (t < s)

/-! ### Operators -/

def isNaN : Value → Bool
  | .number x => x.isNaN
  | _ => false

def isVector : Value → Bool
  | .userdata (.vector _) _ => true
  | _ => false

/-- The vector that a value is, or the error of the engine. -/
def toVector (v : Value) : Activity Vec3 := orRefuse v.datum.vector

/-- A vector scaled by a number that stands on either side. -/
def scaled (v w : Value) : Activity Value :=
  match v.datum.vector, w.datum.vector with
  | .ok x, .error _ => times x w
  | .error _, .ok x => times x v
  | _, _ => refuse (.refused (.argument "vectors can only be scaled by a number"))
where
  times (x : Vec3) : Value → Activity Value
    | .integer n => wrap (.vector (x.scale (Single.ofInt n.toInt)))
    | .number factor => wrap (.vector (x.scale (Single.ofDouble factor)))
    | other => refuse (.refused (.argument
        s!"vectors can only be scaled by a number, got {other.engineTypeName}"))

/-- The error of an operator on a value that is no number. -/
def operandError (op : BinaryOp) (v w : Value) : OperationError :=
  let culprit := if v.toNumeric?.isSome then w else v
  match op with
  | .bitAnd | .bitOr | .bitXor | .shiftLeft | .shiftRight => .bitwise culprit.operandTypeName
  | _ => .arithmetic culprit.operandTypeName

/-- An operator that makes a number of two numbers. -/
def arithmetic (place : Place) (op : BinaryOp) (v w : Value) : Activity Value :=
  match v.toNumeric?, w.toNumeric? with
  | some a, some b =>
    match Numeric.operate op a b with
    | some (.ok n) => pure n.value
    | some (.error e) => failWith place e
    | none => pure .nil
  | _, _ => failWith place (operandError op v w)

/-- Two texts, or numbers in their place, one after the other. -/
def concat (place : Place) (v w : Value) : Activity Value :=
  match v.toBytes?, w.toBytes? with
  | some s, some t => pure (.text (s ++ t))
  | some _, none => failWith place (.concat w.operandTypeName)
  | none, _ => failWith place (.concat v.operandTypeName)

/-- The value of a binary operator. A vector decides what its sums, differences and products are. -/
def binary (place : Place) (op : BinaryOp) (v w : Value) : Activity Value :=
  match op with
  | .eq => return .boolean (← equals v w)
  | .ne => return .boolean (!(← equals v w))
  | .lt => return .boolean (← lessThan place v w)
  | .le => return .boolean (← atMost place v w)
  | .gt => return .boolean (← lessThan place w v)
  | .ge => return .boolean (← atMost place w v)
  | .concat => concat place v w
  | op =>
    if v.isVector || w.isVector then
      match op with
      | .add => do wrap (.vector ((← toVector v).add (← toVector w)))
      | .sub => do wrap (.vector ((← toVector v).sub (← toVector w)))
      | .mul => scaled v w
      | op => arithmetic place op v w
    else arithmetic place op v w

/-- The value of a unary operator. -/
def unary (place : Place) (op : UnaryOp) (v : Value) : Activity Value :=
  match op with
  | .not => pure (.boolean (!v.isTrue))
  | .length => length place v
  | .negate =>
    match v, v.toNumeric? with
    | .userdata (.vector x) _, _ => wrap (.vector x.negate)
    | _, some n => pure n.negate.value
    | v, none => failWith place (.arithmetic v.operandTypeName)
  | .complement =>
    match v.toNumeric? with
    | none => failWith place (.bitwise v.operandTypeName)
    | some n =>
      match n.toInteger? with
      | some n => pure (.integer (~~~n))
      | none => failWith place .noInteger

end Value

end EntityScripting.Script
