import EntityScripting.Number.Word
import EntityScripting.Script.Builtin
import EntityScripting.Script.Program
import EntityScripting.Variable.Table

/-!
# Values of scripts

What a script computes with. Tables and functions are named by their place in the heap; a value that
the engine hands out (an entity, a vector, a table of variables, an error) has an identity of its
own, so two of them with one content are still told apart as keys.
-/

namespace EntityScripting.Script

open Number Text

abbrev TableId := Nat

abbrev CellId := Nat

abbrev ClosureId := Nat

abbrev CursorId := Nat

abbrev StoreId := Nat

/-- Why a call of the engine was refused. -/
inductive Cause where
  | refused (error : ScriptError)
  /-- An argument is not of the type that the engine takes. -/
  | argument (text : String)
  /-- An error of a script that came back through the engine. -/
  | failure (text : String)
deriving DecidableEq, Repr, Inhabited

def Cause.message : Cause → String
  | .refused error => error.message
  | .argument text => text
  | .failure text => "runtime error: " ++ text

/-- The contents that the engine hands out. -/
inductive UserData where
  | entity (h : Handle)
  | vector (v : Vec3)
  | variableTable (kind : VariableKind)
  | fault (cause : Cause)
deriving DecidableEq, Repr, Inhabited

inductive Callee where
  | closure (id : ClosureId)
  | builtin (b : Builtin)
  /-- An iteration over the list of a cursor. -/
  | cursor (id : CursorId)
deriving DecidableEq, Repr

inductive Value where
  | nil
  | boolean (b : Bool)
  | integer (n : Int64)
  | number (x : Double)
  | text (s : Bytes)
  | table (id : TableId)
  | function (f : Callee)
  | userdata (data : UserData) (identity : Nat)
deriving DecidableEq, Repr

instance : Inhabited Value := ⟨.nil⟩

namespace Value

def ofString (s : String) : Value := .text (utf8 s)

def builtin (b : Builtin) : Value := .function (.builtin b)

def ofNat (n : Nat) : Value := .integer (Int64.ofNat n)

/-- Every value but nil and false counts as true. -/
def isTrue : Value → Bool
  | .nil | .boolean false => false
  | _ => true

/-- The type that a script sees. -/
def typeName : Value → String
  | .nil => "nil"
  | .boolean _ => "boolean"
  | .integer _ | .number _ => "number"
  | .text _ => "string"
  | .table _ => "table"
  | .function _ => "function"
  | .userdata .. => "userdata"

/-- The type that messages of the engine name: integers and errors are types of their own. -/
def engineTypeName : Value → String
  | .integer _ => "integer"
  | .userdata (.fault _) _ => "error"
  | v => v.typeName

/-- The type that a failed operation names. -/
def operandTypeName : Value → String
  | .userdata (.entity _) _ => "EntityHandle"
  | .userdata (.vector _) _ => "ScriptVector"
  | .userdata (.variableTable _) _ => "VariableProxy"
  | v => v.typeName

/-! ### Keys -/

/-- The form of a value as a key: a float that is equal to an integer is that integer. -/
def key : Value → Value
  | .number x =>
    match x.exactInt?.bind int64OfInt? with
    | some n => .integer n
    | none => .number x
  | v => v

/-- Where the kind of a key stands in the order of keys. -/
def rank : Value → Nat
  | .integer _ => 0
  | .number _ => 1
  | .text _ => 2
  | .boolean _ => 3
  | .table _ => 4
  | .function (.closure _) => 5
  | .function (.cursor _) => 6
  | .function (.builtin _) => 7
  | .userdata .. => 8
  | .nil => 9

/-- The order in which a table is gone through: integers first, the smallest first. -/
def before : Value → Value → Bool
  | .integer m, .integer n => m < n
  | .number x, .number y => x.bits < y.bits
  | .text s, .text t => s < t
  | .boolean b, .boolean c => !b && c
  | .table t, .table u => t < u
  | .function (.closure f), .function (.closure g) => f < g
  | .function (.cursor f), .function (.cursor g) => f < g
  | .function (.builtin f), .function (.builtin g) => f.label < g.label
  | .userdata _ i, .userdata _ j => i < j
  | v, w => v.rank < w.rank

instance : LT Value := ⟨fun v w => v.before w = true⟩

instance (v w : Value) : Decidable (v < w) := inferInstanceAs (Decidable (v.before w = true))

end Value

/-- What the engine sees of a value: the variables' types, nothing, or something it cannot take. -/
inductive Datum where
  | nothing
  | value (v : ScriptValue)
  | other (typeName : String)
deriving DecidableEq, Repr, Inhabited

namespace Datum

/-- The type that messages of the engine name. -/
def typeName : Datum → String
  | .nothing => "nil"
  | .value (.integer _) => "integer"
  | .value (.number _) => "number"
  | .value (.boolean _) => "boolean"
  | .value (.text _) => "string"
  | .value (.entity _) | .value (.vector _) => "userdata"
  | .other typeName => typeName

/-- The vector that a value is, or why it is none. -/
def vector : Datum → Except ScriptError Vec3
  | .value (.vector v) => .ok v
  | d => .error (.argument s!"vector expected, got {d.typeName}")

/-- The value that a table of variables is given, if it takes it. -/
def forVariable (kind : VariableKind) : Datum → Except ScriptError (Option ScriptValue)
  | .nothing => .ok none
  | .value v => if kind.allows v then .ok (some v) else .error (.variableType kind)
  | .other _ => .error (.variableType kind)

end Datum

/-- A value as the engine sees it; ill-formed parts of a text are replaced. -/
def Value.datum : Value → Datum
  | .nil => .nothing
  | .boolean b => .value (.boolean b)
  | .integer n => .value (.integer n)
  | .number x => .value (.number x)
  | .text s => .value (.text (lossy s))
  | .userdata (.entity h) _ => .value (.entity h)
  | .userdata (.vector v) _ => .value (.vector v)
  | v => .other v.engineTypeName

end EntityScripting.Script
