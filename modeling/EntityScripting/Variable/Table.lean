import EntityScripting.ScriptError

/-!
# Script variables

Tables of typed values by name. A table that outlives the level holds no entities and no vectors; a
value it does not take leaves it as it was.
-/

namespace EntityScripting

open Number

/-- A value of a script variable. -/
inductive ScriptValue where
  | integer (n : Int64)
  | number (x : Double)
  | boolean (b : Bool)
  | text (s : String)
  | entity (h : Handle)
  | vector (v : Vec3)
deriving DecidableEq, Repr, Inhabited

def ScriptValue.typeName : ScriptValue → String
  | .integer _ | .number _ => "number"
  | .boolean _ => "boolean"
  | .text _ => "string"
  | .entity _ => "entity"
  | .vector _ => "vector"

/-- Whether a table of this kind takes a value. -/
def VariableKind.allows (kind : VariableKind) : ScriptValue → Bool
  | .entity _ | .vector _ => kind = .level
  | _ => true

/-- A table of script variables. -/
structure VariableTable where
  kind : VariableKind
  entries : SortedMap String ScriptValue := {}
deriving DecidableEq, Repr, Inhabited

namespace VariableTable

def get? (t : VariableTable) (key : String) : Option ScriptValue := t.entries.get? key

/-- Binds a name to a value, or unbinds it. -/
def set (t : VariableTable) (key : String) : Option ScriptValue → Except ScriptError VariableTable
  | none => .ok { t with entries := t.entries.erase key }
  | some value =>
    if t.kind.allows value then .ok { t with entries := t.entries.insert key value }
    else .error (.variableType t.kind)

def clear (t : VariableTable) : VariableTable := { t with entries := {} }

/-- The table with every entry of another, which counts where both have a name. -/
def absorb (t other : VariableTable) : VariableTable :=
  { t with entries := t.entries.union other.entries }

/-! ### Reading after a write -/

theorem get?_set_some {t t' : VariableTable} {key : String} {value : ScriptValue}
    (h : t.set key (some value) = .ok t') (other : String) :
    t'.get? other = if other = key then some value else t.get? other := by
  simp only [set] at h
  split at h
  · cases h; exact SortedMap.get?_insert t.entries key other value
  · cases h

theorem get?_set_none {t t' : VariableTable} {key : String} (h : t.set key none = .ok t')
    (other : String) : t'.get? other = if other = key then none else t.get? other := by
  cases h; exact SortedMap.get?_erase t.entries key other

end VariableTable

end EntityScripting
