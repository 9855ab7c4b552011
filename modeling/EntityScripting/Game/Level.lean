import EntityScripting.Files.Basic
import EntityScripting.Game.Use
import EntityScripting.Script.WellFormed

/-!
# Levels

An engine begins with the table of its functions, frozen once for all levels. Loading a level runs
its script in an environment of its own; once the script has ended without an error its global names
are sealed, and until then no script function can be called from outside.
-/

namespace EntityScripting

open Text Script

/-- Why a script was not loaded. -/
inductive LoadCause where
  /-- The source is no program. -/
  | grammar
  | script (cause : Cause)
deriving DecidableEq, Repr, Inhabited

def LoadCause.message : LoadCause → String
  | .grammar => "syntax error"
  | .script cause => cause.message

inductive LoadError where
  | unreadable (path : String) (error : FileError)
  | failed (level : String) (cause : LoadCause)
deriving DecidableEq, Repr, Inhabited

namespace Engine

/-! ### The functions of the engine -/

/-- A table of built-in functions. -/
def libraryOf {β : Type} (all : List β) (name : β → String) (make : β → Builtin)
    (constants : List (String × Value)) : TableObject :=
  .plain (.ofList ((all.map fun f => (Value.ofString (name f), Value.builtin (make f)))
    ++ constants.map fun (name, v) => (Value.ofString name, v)))

/-- The heap with the table that scripts know as `script`, not frozen yet. -/
def openApi : TableId × Heap :=
  let (math, heap) := ({} : Heap).newTable
    (libraryOf MathFunction.all (·.name) .math MathFunction.constants)
  let (text, heap) := heap.newTable (libraryOf TextFunction.all (·.name) .text [])
  let (table, heap) := heap.newTable (libraryOf TableFunction.all (·.name) .table [])
  heap.newTable (libraryOf EngineFunction.all (·.name) .engine
    [("vars", .userdata (.variableTable .level) 0),
      ("persistent", .userdata (.variableTable .persistent) 1),
      ("math", .table math), ("string", .table text), ("table", .table table)])

/-- The heap with the table of the engine's functions. -/
def frozenApi : TableId × Heap :=
  let (api, heap) := openApi
  heap.freeze api

/-- An engine without a level. -/
def new (config : ScriptConfig) (seed : Nat) : Engine :=
  let (api, heap) := frozenApi
  ⟨Game.new config api seed, heap⟩

/-! ### Loading -/

/-- The global names that every level begins with. -/
def initialGlobals (api : TableId) : GlobalStore where
  bindings := .ofList ((Heap.apiName, .table api) ::
    BaseFunction.all.map fun f => (utf8 f.name, Value.builtin (.base f)))

/-- The longest name of a level that messages give whole, and what is left of a longer one. -/
def longestChunk : Nat := 59

def chunkTail : Nat := 56

/-- The name of a level as the messages of its script give it. -/
def chunkName (level : String) : Bytes :=
  let name := utf8 level
  if name.length ≤ longestChunk then name
  else utf8 "..." ++ name.drop (name.length - chunkTail)

/-- The heap with a fresh environment for a program, the function that runs the program, and where
its global names are. -/
def prepare (heap : Heap) (api : TableId) (level : String) (code : FunctionBody) :
    StoreId × ClosureId × Heap :=
  let (store, heap) := heap.newStore (initialGlobals api)
  let (environment, heap) := heap.newTable (.environment store)
  let (cell, heap) := heap.newCell (.table environment)
  let (closure, heap) := heap.newClosure ⟨code, {
    bindings := [⟨Scope.environmentName, cell, 0⟩]
    depth := 0
    chunk := chunkName level }⟩
  (store, closure, heap)

/-- Runs a program as the script of a level; its global names are sealed if it ends well. -/
def runLevel (limits : Limits) (level : String) (code : FunctionBody) (engine : Engine) :
    Option (Except Cause StoreId × Engine) :=
  let ⟨g, heap⟩ := engine
  let (store, closure, heap) := prepare heap g.api level code
  let routine := (Activity.call (.function (.closure closure)) [] []).routine
  match routine.run limits (perform (use limits)) ⟨g, heap⟩ with
  | none => none
  | some (.ok _, ⟨g, heap⟩) => some (.ok store, ⟨g, heap.sealStore store⟩)
  | some (.error e, ⟨g, heap⟩) => some (.error (e.causeWith g.describe), ⟨g, heap⟩)

/-- The outcome of a load that failed. -/
def loadFailure (level : String) (cause : LoadCause) (engine : Engine) :
    Except LoadError Unit × Engine :=
  (.error (.failed level cause),
    engine.note .warn s!"error loading script for level {level}: {cause.message}")

/-- Loads the script of a level from its source, in the place of the level before. -/
def loadSource (limits : Limits) (level source : String) (engine : Engine) :
    Option (Except LoadError Unit × Engine) :=
  let engine := engine.update Game.clearLevel
  match Program.read? (utf8 source) with
  | none => some (loadFailure level .grammar engine)
  | some code =>
    match runLevel limits level code engine with
    | none => none
    | some (.error cause, engine) => some (loadFailure level (.script cause) engine)
    | some (.ok globals, engine) =>
      some (.ok (), engine.update fun g =>
        ({ g with level := some ⟨level, globals⟩ } : Game).note .info
          s!"loaded script for level {level}")

/-- Loads the script of a level from what its file holds. -/
def loadFile (limits : Limits) (level : String) (content : Except FileError String)
    (engine : Engine) : Option (Except LoadError Unit × Engine) :=
  match content with
  | .ok source => engine.loadSource limits level source
  | .error e =>
    let path := engine.state.config.scriptPath level
    some (.error (.unreadable path e), engine.update fun g => g.clearLevel.note .warn
      s!"couldn't read script for level {level} at {path}: {e.message}")

end Engine

end EntityScripting
