import EntityScripting.Game.Primitive
import EntityScripting.Script.Execution

/-!
# Uses

What happens when an entity is used. A script entity calls its level function, a relay uses its
targets, a native callback works on the pool; a script may use further entities before it goes on,
so uses lie one inside another. Delayed actions are uses, kills and messages whose time has come.
-/

namespace EntityScripting

open Number Script

/-- The game and the heap of its scripts. -/
abbrev Engine := World Game

/-- A way to use entities; `none` says that the limits did not suffice. -/
abbrev Usage := UseEvent → Engine → Option Engine

namespace Engine

/-- The engine with its game changed. -/
def update (engine : Engine) (f : Game → Game) : Engine :=
  let ⟨game, heap⟩ := engine
  ⟨f game, heap⟩

def note (engine : Engine) (severity : Severity) (text : String) : Engine :=
  engine.update fun g => g.note severity text

/-- Answers a request of a script. A trigger that is not put off uses its entity before the script
goes on. -/
def perform (usage : Usage) {α : Type} (request : Request α) (engine : Engine) :
    Option (α × Engine) :=
  let ⟨g, heap⟩ := engine
  let answer {β : Type} (result : β × Game) : Option (β × Engine) :=
    some (result.1, ⟨result.2, heap⟩)
  match request with
  | .print line => answer ((), g.note .print line)
  | .variable kind name => answer ((g.table kind).get? name, g)
  | .setVariable kind name d => answer (Game.assignVariable kind name d g)
  | .allVariables kind => answer ((g.table kind).entries.entries, g)
  | .context => answer (g.context, g)
  | .spawn classname origin angles => answer (Game.spawn classname origin angles g)
  | .find value key => answer (g.search value key, g)
  | .draw bound => answer (g.draw bound)
  | .get h key => answer (g.getField h key, g)
  | .set h key d => answer (Game.setField h key d g)
  | .trigger h delay =>
    match Game.trigger h delay g with
    | (.error e, g) => answer (.error e, g)
    | (.ok none, g) => answer (.ok (), g)
    | (.ok (some event), g) =>
      match usage event ⟨g, heap⟩ with
      | some engine => some (.ok (), engine)
      | none => none
  | .kill h delay => answer (Game.kill h delay g)
  | .message h text delay => answer (Game.message h text delay g)
  | .give h item => answer (Game.give h item g)
  | .flag h flag => answer (g.flag h flag, g)
  | .isValid h => answer (h.isValid g.pool, g)
  | .describe h => answer (g.describe h, g)

/-! ### Uses -/

/-- The routine of a level function that is called for an entity. -/
def callRoutine (callee : Callee) (self : Handle) (other activator : Option Handle) : Routine :=
  Activity.routine do
    let self ← Activity.wrap (.entity self)
    let other ← Value.ofHandle? other
    let activator ← Value.ofHandle? activator
    Activity.call (.function callee) [self, other, activator] []

/-- Calls a level function for an entity, with a frame on the trigger stack while it runs. An error
of the function ends here. -/
def callScript (limits : Limits) (usage : Usage) (callee : Callee) (label name : String) :
    Usage := fun event engine =>
  let ⟨g, heap⟩ := engine
  let self := g.pool.wrap event.target
  let activator := event.activator.map g.pool.wrap
  let routine := callRoutine callee self (event.other.map g.pool.wrap) activator
  let depth := g.triggers.depth
  let pushed := { g with triggers := g.triggers.push ⟨self, activator⟩ }
  match routine.run limits (perform usage) ⟨pushed, heap⟩ with
  | none => none
  | some (outcome, ⟨g, heap⟩) =>
    let g := match outcome with
      | .ok _ => g
      | .error e =>
        g.note .warn s!"{label} error calling function {name}: {(e.causeWith g.describe).message}"
    let popped := g.triggers.pop depth
    some ⟨{ g with triggers := popped.value, log := g.log ++ popped.records }, heap⟩

/-- Uses a script entity: its function is the one that the loaded level has under that name. -/
def useScript (limits : Limits) (usage : Usage) : Usage := fun event engine =>
  match engine.state.pool.entity? event.target with
  | none => some engine
  | some e =>
    let label := e.label e.index
    match engine.state.level, e.fields.scriptFunction with
    | none, _ => some (engine.note .warn s!"{label} triggered but script not loaded")
    | some _, none => some (engine.note .warn s!"{label} has no function set")
    | some level, some name =>
      match engine.heap.bound level.globals (.ofString name) with
      | .function callee => callScript limits usage callee label name event engine
      | .nil => some (engine.note .warn s!"{label} tried to call nonexistent function {name}")
      | other => some (engine.note .warn
          s!"{label} tried to call non-function object {name} ({other.engineTypeName})")

/-- Uses the entities of some handles that are still there when their turn comes. -/
def useEach (usage : Usage) (other activator : Option EntityId) :
    List Handle → Engine → Option Engine
  | [], engine => some engine
  | h :: rest, engine =>
    match h.resolve engine.state.pool with
    | none => useEach usage other activator rest engine
    | some target =>
      match usage { target, other, activator } engine with
      | some engine => useEach usage other activator rest engine
      | none => none

/-- The handles of the entities that a relay uses. -/
def relayTargets (g : Game) (relay : EntityId) : List Handle :=
  match (g.pool.entity? relay).bind (·.fields.target) with
  | some name => (g.pool.find .targetname name).map g.pool.wrap
  | none => []

/-- Uses a relay: its targets are found first, and each is used if it is still there. -/
def useRelay (usage : Usage) : Usage := fun event engine =>
  useEach usage (some event.target) event.activator (relayTargets engine.state event.target) engine

/-- What a slot does when it is used; nothing if it is not in use. -/
def behavior? (g : Game) (id : EntityId) : Option UseBehavior :=
  match g.pool.entity? id with
  | some e => if e.inUse then e.use else none
  | none => none

/-- Uses an entity; the depth bounds how many uses lie one inside another. -/
def useWithin (limits : Limits) : (depth : Nat) → Usage
  | 0, _, _ => none
  | depth + 1, event, engine =>
    match behavior? engine.state event.target with
    | none => some (engine.note .debug s!"entity #{event.target} has no use behavior")
    | some .script => useScript limits (useWithin limits depth) event engine
    | some .relay => useRelay (useWithin limits depth) event engine
    | some (.native callback) =>
      some (engine.update fun g => g.withPool (g.pool.runCallback (callback event)))

/-- Uses an entity. -/
def use (limits : Limits) : Usage := useWithin limits limits.nesting

/-! ### Delayed actions -/

/-- Carries out the delayed action of a helper. -/
def fire (usage : Usage) (helper : EntityId) : Think → Engine → Option Engine
  | .trigger target activator, engine =>
    let pool := engine.state.pool
    match target.resolve pool with
    | none => some (engine.note .info "script delayed trigger target no longer exists")
    | some id =>
      if (pool.entity? id).any fun e => e.use.isSome then
        usage ⟨id, some helper, activator.bind fun h => h.resolve pool⟩ engine
      else some (engine.note .info "script delayed trigger target no longer has a trigger function")
  | .kill target, engine =>
    match target.resolve engine.state.pool with
    | none => some (engine.note .info "script delayed kill target no longer exists")
    | some id => some (engine.update fun g => g.withPool (g.pool.kill id))
  | .message target, engine =>
    let pool := engine.state.pool
    match target.resolve pool, (pool.entity? helper).bind (·.fields.message) with
    | none, _ => some (engine.note .info "script delayed message target no longer exists")
    | some id, some text => some (engine.update fun g => g.announce id text)
    | some _, none => some engine

/-- Frees a helper whose action is done, unless its slot has been given to another entity. -/
def retire (helper : Handle) (engine : Engine) : Engine :=
  engine.update fun g =>
    match helper.resolve g.pool with
    | some id => g.withPool (g.pool.free id)
    | none => g

/-- Carries out the actions that are due, one after another, for so many at most. -/
def fireDue (usage : Usage) : (count : Nat) → Engine → Option Engine
  | 0, _ => none
  | count + 1, engine =>
    match engine.state.pool.takeDue? with
    | none => some engine
    | some (helper, think, pool) =>
      let stamp := pool.wrap helper
      match fire usage helper think (engine.update fun g => { g with pool }) with
      | some engine => fireDue usage count (retire stamp engine)
      | none => none

/-- Moves the clock forward and carries out what is due then. -/
def advance (limits : Limits) (seconds : Single) (engine : Engine) : Option Engine :=
  fireDue (use limits) limits.steps
    (engine.update fun g => { g with pool := g.pool.advance seconds })

end Engine

end EntityScripting
