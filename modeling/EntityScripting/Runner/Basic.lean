import EntityScripting.Game.Level
import EntityScripting.Game.MapEntity
import EntityScripting.Json.Printer
import EntityScripting.Json.Reader
import EntityScripting.Runner.Arguments
import EntityScripting.Variable.Saved

/-!
# The runner

Loads a level, makes the entities of its map, fires some of them and lets the clock run: a level
script without a game around it. What the players would see and hear is printed, one JSON object a
line. The files are reached through `FileAccess`, so a run is a function wherever they are one.
-/

namespace EntityScripting

open Script

/-- What a run leaves beside the files it writes. -/
structure Report where
  /-- 0 if all went well, 1 after an error, 2 for arguments that are not well-formed. -/
  code : Nat := 0
  output : List String := []
  log : Array Record := #[]
  error : Option String := none
deriving Repr

def Event.toJson : Event → Json
  | .centerPrint entity text =>
    .object [("kind", .string "center_print"), ("entity", .ofNat entity), ("text", .string text)]
  | .sound entity sample =>
    .object [("kind", .string "sound"), ("entity", .ofNat entity), ("sample", .string sample)]

namespace ScriptConfig

/-- The configuration in a file, or what could not be done with the file. -/
def ofFile (path : String) (content : Except FileError String) : Except String ScriptConfig :=
  match content with
  | .error _ => .error s!"reading script config {path}"
  | .ok text =>
    match parse? text with
    | some config => .ok config
    | none => .error s!"parsing script config {path}"

end ScriptConfig

namespace Runner

/-- What a run has come to: the engine, if there is one, and what was printed. -/
structure Progress where
  engine : Option Engine := none
  output : List String := []

/-- A part of a run; an error ends the run. -/
abbrev Run (m : Type → Type) := ExceptT String (StateT Progress m)

variable {m : Type → Type} [Monad m]

def printLine (line : String) : Run m Unit :=
  modify fun progress => { progress with output := progress.output ++ [line] }

def setEngine (engine : Engine) : Run m Unit :=
  modify fun progress => { progress with engine := some engine }

/-- The value of an operation that keeps within the limits. -/
def within {α : Type} (result : Option α) : Run m α :=
  match result with
  | some a => pure a
  | none => throw "the limits of the run were exceeded"

/-- The text of a file that is read for a purpose. -/
def readFor (files : FileAccess m) (purpose path : String) : Run m String := do
  match ← (files.readText path : m _) with
  | .ok text => return text
  | .error _ => throw s!"reading {purpose} {path}"

/-- The value that a JSON text holds, read for a purpose. -/
def parseFor {α : Type} (purpose path text : String) (read : Json → Option α) : Run m α :=
  match (Json.parse? text).bind read with
  | some value => pure value
  | none => throw s!"parsing {purpose} {path}"

/-- Makes the entities of a map; those that cannot be made are reported and left out. -/
def spawnAll : List EntitySpec → Engine → Engine
  | [], engine => engine
  | spec :: rest, engine =>
    let ⟨g, heap⟩ := engine
    let g := match Game.placeEntity spec g with
      | (.ok (some _), g) => g
      | (.ok none, g) => g.note .warn s!"{spec.classname} has no spawn function; skipped"
      | (.error e, g) => g.note .warn s!"{spec.classname}: {e.message}"
    spawnAll rest ⟨g, heap⟩

/-- Uses entities one after another, for a player. -/
def useAll (limits : Limits) (player : EntityId) : List EntityId → Engine → Option Engine
  | [], engine => some engine
  | target :: rest, engine =>
    match engine.use limits ⟨target, some player, some player⟩ with
    | some engine => useAll limits player rest engine
    | none => none

/-- Uses the entities of each name in turn, for a player. -/
def fireAll (limits : Limits) (player : EntityId) : List String → Engine → Option Engine
  | [], engine => some engine
  | name :: rest, engine =>
    let targets := engine.state.pool.find .targetname name
    let engine :=
      if targets.isEmpty then engine.note .warn s!"no entity named {name} to fire" else engine
    match useAll limits player targets engine with
    | some engine => fireAll limits player rest engine
    | none => none

/-- Lets the clock run for a number of frames. -/
def advanceAll (limits : Limits) (seconds : Number.Single) : Nat → Engine → Option Engine
  | 0, engine => some engine
  | count + 1, engine =>
    match engine.advance limits seconds with
    | some engine => advanceAll limits seconds count engine
    | none => none

/-- The configuration that the arguments name. -/
def loadConfig (files : FileAccess m) (args : Arguments) : Run m ScriptConfig := do
  match args.config with
  | none => return .ofGameDir args.gameDir
  | some path =>
    match ScriptConfig.ofFile path (← (files.readText path : m _)) with
    | .ok config => return config
    | .error e => throw e

/-- Prints the events and says how the run ended. -/
def finish (engine : Engine) : Run m Engine := do
  let (events, pool) := engine.state.pool.takeEvents
  for event in events do
    printLine event.toJson.compress
  let engine := engine.update fun g => ({ g with pool } : Game).note .info
    s!"finished at t={pool.time.placesText 2}s with {pool.killed.toNat} monsters killed"
  setEngine engine
  return engine

/-- Everything that the arguments ask for, step by step. -/
def perform (limits : Limits) (seed : Nat) (files : FileAccess m) (args : Arguments) :
    Run m Unit := do
  let config ← loadConfig files args
  let content ← (files.readText (config.scriptPath args.level) : m _)
  let (loaded, engine) ← within ((Engine.new config seed).loadFile limits args.level content)
  setEngine engine
  if loaded.isOk then pure () else throw s!"loading script for {args.level}"
  let some (player, pool) := engine.state.pool.connect? 0
    | throw "configuration leaves no player slot"
  let mut engine := engine.update fun g => { g with pool }
  if let some path := args.entities then
    let text ← readFor files "entity list" path
    engine := spawnAll (← parseFor "entity list" path text EntitySpec.listOfJson?) engine
    setEngine engine
  if let some path := args.restoreFrom then
    let text ← readFor files "saved variables" path
    let saved ← parseFor "saved variables" path text SavedVariables.ofJson?
    match engine.state.load saved with
    | .ok g => engine := engine.update fun _ => g
    | .error _ => throw "restoring saved variables"
  engine ← within (fireAll limits player args.fire engine)
  engine ← within (advanceAll limits args.frameTime args.frames engine)
  engine ← finish engine
  if let some path := args.saveTo then
    match ← (files.writeText path engine.state.save.toJson.pretty : m _) with
    | .ok () => printLine s!"Saved script variables to {path}"
    | .error _ => throw s!"writing saved variables to {path}"

/-- The report of a run with the words of a command line. -/
def run (limits : Limits) (seed : Nat) (files : FileAccess m) (words : List String) : m Report := do
  match Arguments.ofWords? words with
  | none => return { code := 2 }
  | some args =>
    match args.problem? with
    | some problem => return { code := 1, error := some problem }
    | none =>
      let (outcome, progress) ← (perform limits seed files args).run.run {}
      let log := (progress.engine.map fun engine => engine.state.log).getD #[]
      match outcome with
      | .ok () => return { output := progress.output, log }
      | .error e => return { code := 1, output := progress.output, log, error := some e }

end Runner

end EntityScripting
