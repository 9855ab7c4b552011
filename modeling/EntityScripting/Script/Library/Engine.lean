import EntityScripting.Script.Argument

/-!
# Functions of the engine

What `script`, entities and vectors offer. The list functions work on what a table itself holds, so
they find nothing in a view. An error of a function that they call comes back as an error of the
engine.
-/

namespace EntityScripting.Script

open Number Text Activity

/-- Calls a function of a script; its error is passed on as one of the engine. -/
def Invocation.callScript (call : Invocation) (callee : Value) (args : List Value) :
    Activity (List Value) := do
  match ← guard callee args (none :: call.trace) with
  | .ok values => return values
  | .error e => refuse (← e.toCause)

/-- The table with these values at the positions from one on. -/
def listOf (values : List Value) : Activity Value :=
  return .table (← access (.newTable (.withItems {} values)))

namespace EngineFunction

/-- Calls a function for each item from a position on, as many as `count` says. -/
def visit (call : Invocation) (list : TableId) (callee : Value) :
    (count position : Nat) → Activity Unit
  | 0, _ => pure ()
  | count + 1, position => do
    let item ← access (.rawGet list (.ofNat position))
    discard (call.callScript callee [item])
    visit call list callee count (position + 1)

/-- The items from a position on for which a function gives something that counts as true. -/
def keep (call : Invocation) (list : TableId) (callee : Value) :
    (count position : Nat) → Activity (List Value)
  | 0, _ => pure []
  | count + 1, position => do
    let item ← access (.rawGet list (.ofNat position))
    let verdict := (← call.callScript callee [item]).headD .nil
    let rest ← keep call list callee count (position + 1)
    return if verdict.isTrue then item :: rest else rest

def run (f : EngineFunction) (call : Invocation) : Activity (List Value) :=
  match f with
  | .vector => do
    let x ← call.take 1 (.optional .single)
    let y ← call.take 2 (.optional .single)
    let z ← call.take 3 (.optional .single)
    return [← wrap (.vector ⟨x.getD {}, y.getD {}, z.getD {}⟩)]
  | .spawn => do
    let classname ← call.take 1 .text
    let origin ← (call.arg 2).toVector
    let angles ← if call.lacks 3 then pure .zero else (call.arg 3).toVector
    return [← wrap (.entity (← orRefuse (← ask (.spawn classname origin angles))))]
  | .find => do
    let value ← call.take 1 .text
    let key ← call.take 2 (.optional .text)
    let handles ← orRefuse (← ask (.find value (key.getD "targetname")))
    return [← listOf (← handles.mapM fun h => wrap (.entity h))]
  | .foreach => do
    let list ← call.take 1 .table
    let callee ← call.take 2 .function
    visit call list callee (← access (.rawLength list)) 1
    return []
  | .filter => do
    let list ← call.take 1 .table
    let callee ← call.take 2 .function
    let kept ← keep call list callee (← access (.rawLength list)) 1
    return [← listOf kept, .ofNat kept.length]
  | .pick => do
    let list ← call.take 1 .table
    let count ← access (.rawLength list)
    if count = 0 then return [.nil]
    else return [← access (.rawGet list (.ofNat ((← ask (.draw count)) + 1)))]
  | .values => do
    let list ← call.take 1 .table
    return [.function (.cursor (← access (.newCursor list)))]
  | .context => do
    let (self, activator) ← ask .context
    return [← Value.ofHandle? self, ← Value.ofHandle? activator]

end EngineFunction

namespace EntityMethod

/-- The value of a key as a script gets it. -/
def ofFieldValue : FieldValue → Activity Value
  | .text none => pure .nil
  | .text (some s) => pure (.ofString s)
  | .float x => pure (.number x.toDouble)
  | .integer n => pure (.integer (Int64.ofInt n.toInt))
  | .vector v => wrap (.vector v)

/-- The entity that a method is called on. -/
def handleOf : UserData → Option Handle
  | .entity h => some h
  | _ => none

def run (f : EntityMethod) (call : Invocation) : Activity (List Value) := do
  let owner := "EntityHandle"
  let h ← call.receiver owner handleOf
  let delay (n : Nat) : Activity Single :=
    return (← call.takeOf owner n (.optional .single)).getD {}
  let flag (f : EntityFlag) : Activity (List Value) :=
    return [.boolean (← orRefuse (← ask (.flag h f)))]
  match f with
  | .get => do
    let value ← orRefuse (← ask (.get h (← call.takeOf owner 2 .text)))
    return [← ofFieldValue value]
  | .set => do
    orRefuse (← ask (.set h (← call.takeOf owner 2 .text) (call.arg 3).datum))
    return []
  | .trigger => do
    orRefuse (← ask (.trigger h (← delay 2)))
    return []
  | .kill => do
    orRefuse (← ask (.kill h (← delay 2)))
    return []
  | .message => do
    let text ← call.takeOf owner 2 .text
    orRefuse (← ask (.message h text (← delay 3)))
    return []
  | .give => do
    return [.boolean (← orRefuse (← ask (.give h (← call.takeOf owner 2 .text))))]
  | .player => flag .player
  | .monster => flag .monster
  | .damageable => flag .damageable
  | .valid => do return [.boolean (← ask (.isValid h))]

end EntityMethod

namespace VectorMethod

/-- The vector that a method is called on. -/
def vectorOf : UserData → Option Vec3
  | .vector v => some v
  | _ => none

def run (f : VectorMethod) (call : Invocation) : Activity (List Value) := do
  let owner := "ScriptVector"
  let v ← call.receiver owner vectorOf
  match f with
  | .direction => do return [← wrap (.vector ((← (call.arg 2).toVector).sub v).direction)]
  | .distance => do return [.number (v.distance (← (call.arg 2).toVector)).toDouble]
  | .lerp => do
    let fraction ← call.takeOf owner 3 .single
    return [← wrap (.vector (v.lerp (← (call.arg 2).toVector) fraction))]
  | .values => return v.components.map fun x => .number x.toDouble

end VectorMethod

end EntityScripting.Script
