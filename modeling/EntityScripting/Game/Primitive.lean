import EntityScripting.Game.Basic
import EntityScripting.Script.Routine

/-!
# Primitives

What the engine does for a script: one function for each thing that a script can ask, from the game
to the answer and the game after it. Every operation on an entity first finds out whether its handle
still names one. Using an entity at once is not done here: `trigger` only says what is to be used.
-/

namespace EntityScripting

open Number Script

/-- The answer of an operation that can be refused, and the game after it. -/
abbrev Primitive (α : Type) := Game → Except ScriptError α × Game

/-! ### Values for keys -/

/-- The key of a name, or the error that there is none. -/
def Field.named (name : String) : Except ScriptError Field :=
  match Field.ofName? name with
  | some field => .ok field
  | none => .error (.unknownField name)

/-- The value that a script gives for a key, in the kind of the key. -/
def FieldValue.ofDatum (field : Field) (d : Datum) : Except ScriptError FieldValue :=
  let mismatch (expected : String) : Except ScriptError FieldValue :=
    .error (.fieldType field expected d.typeName)
  match field.kind with
  | .text =>
    match d with
    | .nothing => .ok (.text none)
    | .value (.text s) => .ok (.text (some s))
    | .value (.integer n) => .ok (.text (some (intText n.toInt)))
    | .value (.number x) => .ok (.text (some x.storedText))
    | _ => mismatch "string"
  | .float =>
    match d with
    | .value (.integer n) => .ok (.float (Single.ofInt n.toInt))
    | .value (.number x) => .ok (.float (Single.ofDouble x))
    | _ => mismatch "number"
  | .integer =>
    match d with
    | .value (.integer n) =>
      match int32OfInt? n.toInt with
      | some n => .ok (.integer n)
      | none => mismatch "integer"
    | .value (.number x) =>
      match x.exactInt?.bind balancedInt32? with
      | some n => .ok (.integer n)
      | none => mismatch "integer"
    | _ => mismatch "integer"
  | .vector => d.vector.map .vector

namespace Game

/-- The entity of a handle, or the error that it is gone. -/
def entity (g : Game) (h : Handle) : Except ScriptError Entity :=
  match h.entity? g.pool with
  | some e => .ok e
  | none => .error .staleEntity

/-! ### Fields -/

def getField (g : Game) (h : Handle) (name : String) : Except ScriptError FieldValue := do
  let field ← Field.named name
  return (← g.entity h).fields.get field

/-- The key and the value of an assignment that nothing stands against. -/
def assignment (g : Game) (h : Handle) (name : String) (d : Datum) :
    Except ScriptError (Field × FieldValue) := do
  let field ← Field.named name
  if !field.isWritable then throw .readOnly
  discard (g.entity h)
  return (field, ← FieldValue.ofDatum field d)

/-- The game with the text of a value among the shared ones. -/
def internValue (g : Game) : FieldValue → Game
  | .text (some s) => g.intern s
  | _ => g

def setField (h : Handle) (name : String) (d : Datum) : Primitive Unit := fun g =>
  match g.assignment h name d with
  | .error e => (.error e, g)
  | .ok (field, value) =>
    (.ok (), (g.internValue value).modifyFields h.slot fun fields =>
      (fields.set? field value).getD fields)

/-! ### Finding and making entities -/

def search (g : Game) (value key : String) : Except ScriptError (List Handle) := do
  let field ← Field.named key
  if field.kind ≠ .text then throw .notSearchable
  return (g.pool.find field value).map g.pool.wrap

/-- Makes an entity of a class. If the class does not take it, the handle is one of an entity that
is gone. -/
def spawn (classname : String) (origin angles : Vec3) : Primitive Handle := fun g =>
  let g := g.intern classname
  match g.pool.spawn? with
  | none => (.error (.pool .exhausted), g)
  | some (id, pool) =>
    let pool := pool.modifyFields id fun fields =>
      { fields with classname := some classname, origin, angles }
    let (accepted, g) := g.keep (pool.setUp id)
    let g :=
      if accepted then g.modifyBody id fun body => { body with counted := false }
      else g.note .debug s!"script spawn of entity #{id} was rejected"
    (.ok (g.pool.wrap id), g)

/-- Lets a player pick up a new item of a class; an item that is not taken is removed again. -/
def give (h : Handle) (name : String) : Primitive Bool := fun g =>
  match g.entity h with
  | .error e => (.error e, g)
  | .ok player =>
    if !player.isPlayer then (.error (.notAPlayer player.classname), g)
    else match Item.find? g.pool.items name with
      | none => (.error (.unknownItem name), g)
      | some item =>
        let g := g.intern item.classname
        match g.pool.spawn? with
        | none => (.error (.pool .exhausted), g)
        | some (id, pool) =>
          let pool := pool.modifyFields id fun fields =>
            { fields with classname := some item.classname, origin := player.fields.origin }
          let (accepted, g) := g.keep (pool.setUp id)
          if !accepted then (.ok false, g)
          else
            let (taken, g) := g.keep (g.pool.touch id player.index)
            (.ok taken, if taken then g else g.withPool (g.pool.free id))

/-! ### Delayed actions -/

/-- The class of the entity that carries a delayed action. -/
def helperClass : Think → String
  | .trigger .. => "DelayedTrigger"
  | .kill _ => "DelayedKill"
  | .message _ => "DelayedMessage"

/-- Makes an entity that carries an action until its time comes. The helper of a trigger has the
argument that the target has now. -/
def postpone (target : Handle) (delay : Single) (think : Think) : Primitive EntityId := fun g =>
  match g.entity target with
  | .error e => (.error e, g)
  | .ok e =>
    let classname := helperClass think
    let g := g.intern classname
    match g.pool.spawn? with
    | none => (.error (.pool .exhausted), g)
    | some (id, pool) =>
      let pool := pool.modifyFields id fun fields =>
        { fields with
          classname := some classname
          scriptArg := match think with
            | .trigger .. => e.fields.scriptArg
            | _ => fields.scriptArg }
      (.ok id, { g with pool := pool.schedule id delay think })

/-- Makes the helper of a delayed message, with its text. -/
def postponeMessage (target : Handle) (delay : Single) (text : String) : Primitive EntityId :=
  fun g =>
    match postpone target delay (.message target) g with
    | (.error e, g) => (.error e, g)
    | (.ok id, g) =>
      (.ok id, (g.intern text).modifyFields id fun fields => { fields with message := some text })

/-- The outcome of scheduling, which scripts do not see. -/
def scheduled : Except ScriptError EntityId × Game → Except ScriptError Unit × Game
  | (outcome, g) => (outcome.map fun _ => (), g)

/-! ### Triggers, kills and messages -/

/-- What the trigger of an entity is to use at once, or nothing if it was put off. A script function
cannot use its own entity at once. -/
def trigger (h : Handle) (delay : Single) : Primitive (Option UseEvent) := fun g =>
  match g.entity h with
  | .error e => (.error e, g)
  | .ok e =>
    if e.use.isNone then (.error (.notTriggerable e.classname), g)
    else
      let frame := g.triggers.current?
      let activator := frame.bind (·.activator)
      if Single.zero.lt delay then
        let (outcome, g) := postpone h delay (.trigger h activator) g
        (outcome.map fun _ => none, g)
      else if frame.any fun frame => frame.self = h then (.error .selfTrigger, g)
      else
        (.ok (some {
          target := e.index
          other := frame.bind fun frame => frame.self.resolve g.pool
          activator := activator.bind fun h => h.resolve g.pool }), g)

/-- Removes an entity that is no player, now or later. -/
def kill (h : Handle) (delay : Single) : Primitive Unit := fun g =>
  match g.entity h with
  | .error e => (.error e, g)
  | .ok e =>
    if e.isPlayer then (.error .isAPlayer, g)
    else if Single.zero.lt delay then scheduled (postpone h delay (.kill h) g)
    else (.ok (), g.withPool (g.pool.kill e.index))

/-- The game with a message shown to an entity, and the sound that goes with it. -/
def announce (g : Game) (id : EntityId) (text : String) : Game :=
  { g with pool := (g.pool.centerPrint id text).sound id talkSound }

/-- Shows a player a message, now or later. -/
def message (h : Handle) (text : String) (delay : Single) : Primitive Unit := fun g =>
  match g.entity h with
  | .error e => (.error e, g)
  | .ok e =>
    if !e.isPlayer then (.error (.notAPlayer e.classname), g)
    else if Single.zero.lt delay then scheduled (postponeMessage h delay text g)
    else (.ok (), g.announce e.index text)

/-! ### Questions -/

def flag (g : Game) (h : Handle) (flag : EntityFlag) : Except ScriptError Bool :=
  (g.entity h).map fun e =>
    match flag with
    | .player => e.isPlayer
    | .monster => e.isMonster
    | .damageable => e.takeDamage

/-- The class and the slot of an entity, or that it is gone. -/
def describe (g : Game) (h : Handle) : String :=
  match h.entity? g.pool with
  | some e => e.label e.index
  | none => "stale " ++ h.text

def assignVariable (kind : VariableKind) (name : String) (d : Datum) : Primitive Unit := fun g =>
  match d.forVariable kind with
  | .error e => (.error e, g)
  | .ok value =>
    match g.setVariable kind name value with
    | .error e => (.error e, g)
    | .ok g => (.ok (), g)

/-- The entities of the running script function. -/
def context (g : Game) : Option Handle × Option Handle :=
  let frame := g.triggers.current?
  (frame.map (·.self), frame.bind (·.activator))

end Game

end EntityScripting
