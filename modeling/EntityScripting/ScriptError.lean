import EntityScripting.Pool.Basic

/-!
# Errors a script can catch

What the engine refuses, with its reasons. A script sees such an error as a value whose text is
`ScriptError.message`.
-/

namespace EntityScripting

/-- The two tables of script variables: `script.vars` lasts for a level, `script.persistent` for a
game. -/
inductive VariableKind where
  | level
  | persistent
deriving DecidableEq, Repr, Inhabited

namespace VariableKind

def label : VariableKind → String
  | .level => "script"
  | .persistent => "persistent"

/-- The types a table takes, for messages. -/
def allowed : VariableKind → String
  | .level => "number, string, boolean, entity, or vector"
  | .persistent => "number, string, or boolean"

end VariableKind

inductive ScriptError where
  | staleEntity
  | notTriggerable (classname : String)
  | selfTrigger
  | notAPlayer (classname : String)
  | isAPlayer
  | unknownItem (classname : String)
  | unknownField (name : String)
  | readOnly
  | notSearchable
  | fieldType (field : Field) (expected found : String)
  | variableKey (kind : VariableKind)
  | variableType (kind : VariableKind)
  | globalKey
  | globalType
  | reservedGlobalName
  | globalRedefinition
  | argument (text : String)
  | pool (error : PoolError)
deriving DecidableEq, Repr, Inhabited

namespace ScriptError

def message : ScriptError → String
  | .staleEntity => "entity reference is no longer valid"
  | .notTriggerable classname => s!"entity of type {classname} has no trigger function"
  | .selfTrigger => "script triggered itself with no delay"
  | .notAPlayer classname => s!"entity must be a player - is {classname}"
  | .isAPlayer => "entity cannot be a player"
  | .unknownItem classname => s!"invalid item classname {classname}"
  | .unknownField name => s!"invalid entity key {name}"
  | .readOnly => "attempt to set a read-only value"
  | .notSearchable => "attempt to search by non-string key"
  | .fieldType field expected found =>
    s!"bad value for entity key {field.name}: {expected} expected, got {found}"
  | .variableKey kind => s!"invalid key for {kind.label} variable: must be string"
  | .variableType kind => s!"invalid type for {kind.label} variable: must be {kind.allowed}"
  | .globalKey => "invalid key for global variable: must be string"
  | .globalType => "invalid type for global variable: must be function or table"
  | .reservedGlobalName => "name for global variable cannot be 'script'"
  | .globalRedefinition =>
    "global variable being added has the same name as an existing variable"
  | .argument text => text
  | .pool error => error.message

end ScriptError

/-! ### Steps that may end with an error -/

namespace Except

variable {ε α β : Type} {x : Except ε α} {b : β} {e : ε}

theorem bind_eq_ok_iff {f : α → Except ε β} :
    (x >>= f) = .ok b ↔ ∃ a, x = .ok a ∧ f a = .ok b := by
  cases x <;> simp [bind, Except.bind]

theorem bind_eq_error_iff {f : α → Except ε β} :
    (x >>= f) = .error e ↔ x = .error e ∨ ∃ a, x = .ok a ∧ f a = .error e := by
  cases x <;> simp [bind, Except.bind]

theorem map_eq_ok_iff {f : α → β} : x.map f = .ok b ↔ ∃ a, x = .ok a ∧ f a = b := by
  cases x <;> simp [Except.map]

theorem map_eq_error_iff {f : α → β} : x.map f = .error e ↔ x = .error e := by
  cases x <;> simp [Except.map]

/-- Of a step that does not end with an error something comes. -/
theorem exists_ok_iff : (∃ a, x = .ok a) ↔ ∀ e, x ≠ .error e := by
  cases x <;> simp

end Except

end EntityScripting
