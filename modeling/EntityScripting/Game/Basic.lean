import EntityScripting.Config.Basic
import EntityScripting.Script.Value
import EntityScripting.TextPool
import EntityScripting.TriggerStack
import EntityScripting.Variable.Codec

/-!
# The game

All that scripts work on beside their own heap: the pool, the interned texts, the variables, the
trigger stack and the level that is loaded. A new level clears what lasts for a level only.
-/

namespace EntityScripting

open Script

/-- A level whose script has been loaded. -/
structure Level where
  name : String
  /-- Where its global names are. -/
  globals : StoreId
deriving DecidableEq, Repr, Inhabited

structure Game where
  config : ScriptConfig
  pool : Pool
  texts : TextPool := {}
  vars : VariableTable := { kind := .level }
  persistent : VariableTable := { kind := .persistent }
  triggers : TriggerStack := {}
  level : Option Level := none
  /-- The table that scripts know as `script`. -/
  api : TableId
  /-- What the next number by chance is made from. -/
  seed : Nat := 1
  log : Array Record := #[]

namespace Game

def new (config : ScriptConfig) (api : TableId) (seed : Nat) : Game :=
  { config, pool := Pool.new config.pool, api, seed }

/-! ### Records -/

def note (g : Game) (severity : Severity) (text : String) : Game :=
  { g with log := g.log.push ⟨severity, text⟩ }

/-- The game with the pool that an operation leaves, and the operation's records. -/
def withPool (g : Game) (pool : Logged Pool) : Game :=
  { g with pool := pool.value, log := g.log ++ pool.records }

/-- The same for an operation with a result. -/
def keep {α : Type} (g : Game) (result : Logged (α × Pool)) : α × Game :=
  (result.value.1, { g with pool := result.value.2, log := g.log ++ result.records })

/-! ### Parts -/

def modifyFields (g : Game) (id : EntityId) (f : Fields → Fields) : Game :=
  { g with pool := g.pool.modifyFields id f }

def modifyBody (g : Game) (id : EntityId) (f : Body → Body) : Game :=
  { g with pool := g.pool.modifyBody id f }

/-- The game with a text among the shared ones. -/
def intern (g : Game) (text : String) : Game := { g with texts := (g.texts.intern text).2 }

def table (g : Game) : VariableKind → VariableTable
  | .level => g.vars
  | .persistent => g.persistent

/-- The game with another table in the place of the one of its kind. -/
def withTable (g : Game) (kind : VariableKind) (table : VariableTable) : Game :=
  match kind with
  | .level => { g with vars := table }
  | .persistent => { g with persistent := table }

def setVariable (g : Game) (kind : VariableKind) (name : String) (value : Option ScriptValue) :
    Except ScriptError Game :=
  ((g.table kind).set name value).map (g.withTable kind)

def isLoaded (g : Game) : Bool := g.level.isSome

/-- Forgets what lasts for a level only. -/
def clearLevel (g : Game) : Game :=
  { g with texts := g.texts.reset, vars := g.vars.clear, triggers := {}, level := none }

/-- Forgets what lasts for a game. -/
def clearGame (g : Game) : Game := { g with persistent := g.persistent.clear }

/-- A number below a bound, by chance. -/
def draw (g : Game) (bound : Nat) : Nat × Game :=
  let seed := (g.seed * 6364136223846793005 + 1442695040888963407) % UInt64.size
  (seed * bound / UInt64.size, { g with seed })

/-! ### Saving variables -/

/-- Every variable of a kind in its saved text. -/
def snapshot (g : Game) (kind : VariableKind) : SortedMap String String :=
  (g.table kind).snapshot g.pool

/-- Puts saved entries into the table of a kind, all of them or none. -/
def restore (g : Game) (kind : VariableKind) (saved : SortedMap String String) :
    Except CodecError Game :=
  ((g.table kind).restore g.pool saved).map (g.withTable kind)

def save (g : Game) : SavedVariables := ⟨g.snapshot .level, g.snapshot .persistent⟩

/-- Replaces both tables by saved ones, if every entry of both can be read. -/
def load (g : Game) (saved : SavedVariables) : Except CodecError Game := do
  let vars ← VariableTable.decode .level g.pool saved.vars
  let persistent ← VariableTable.decode .persistent g.pool saved.persistent
  return { g with vars, persistent }

end Game

end EntityScripting
