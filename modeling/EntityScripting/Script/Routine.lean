import EntityScripting.Script.Heap

/-!
# Routines

What a running script does, one step after another: it uses the heap, asks the engine for
something, calls a function, and ends with values or an error. A routine can touch the game in no
other way than by a `Request`, so what holds for every request holds for every script. `Activity`
builds routines: an activity is a routine that still lacks what comes after it.
-/

namespace EntityScripting.Script

open Number Text

/-- What a flag of an entity says. -/
inductive EntityFlag where
  | player
  | monster
  | damageable
deriving DecidableEq, Repr

/-- What a script can ask the engine for, and the type of the answer. -/
inductive Request : Type → Type where
  | print (line : String) : Request Unit
  | variable (kind : VariableKind) (name : String) : Request (Option ScriptValue)
  | setVariable (kind : VariableKind) (name : String) (value : Datum) :
    Request (Except ScriptError Unit)
  | allVariables (kind : VariableKind) : Request (List (String × ScriptValue))
  /-- The entity of the running script function and the one that set it off. -/
  | context : Request (Option Handle × Option Handle)
  | spawn (classname : String) (origin angles : Vec3) : Request (Except ScriptError Handle)
  | find (value key : String) : Request (Except ScriptError (List Handle))
  /-- A number below a bound, by chance. -/
  | draw (bound : Nat) : Request Nat
  | get (h : Handle) (key : String) : Request (Except ScriptError FieldValue)
  | set (h : Handle) (key : String) (value : Datum) : Request (Except ScriptError Unit)
  | trigger (h : Handle) (delay : Single) : Request (Except ScriptError Unit)
  | kill (h : Handle) (delay : Single) : Request (Except ScriptError Unit)
  | message (h : Handle) (text : String) (delay : Single) : Request (Except ScriptError Unit)
  | give (h : Handle) (item : String) : Request (Except ScriptError Bool)
  | flag (h : Handle) (flag : EntityFlag) : Request (Except ScriptError Bool)
  | isValid (h : Handle) : Request Bool
  | describe (h : Handle) : Request String

inductive Routine : Type 1 where
  | done (values : List Value)
  | raise (error : Value)
  | access {α : Type} (access : Access α) (next : α → Routine)
  | ask {α : Type} (request : Request α) (next : α → Routine)
  /-- Calls a value; an error of the call is the error of the routine. -/
  | call (callee : Value) (args : List Value) (trace : Trace) (next : List Value → Routine)
  /-- Calls a value and goes on with its result or its error. -/
  | guard (callee : Value) (args : List Value) (trace : Trace)
      (next : Except Value (List Value) → Routine)
  /-- A turn of a loop. -/
  | pause (next : Unit → Routine)
  /-- A loop took more turns than were allowed for. -/
  | exhausted

/-- The place in front of a message. -/
def Site.text (site : Site) : Bytes := site.chunk ++ utf8 s!":{site.line}: "

/-- A part of a routine that yields a value to the rest of it. -/
def Activity (α : Type) : Type 1 := (α → Routine) → Routine

namespace Activity

def bind {α β : Type} (x : Activity α) (f : α → Activity β) : Activity β :=
  fun next => x fun a => f a next

instance : Monad Activity where
  pure a := fun next => next a
  bind := bind

def raise {α : Type} (error : Value) : Activity α := fun _ => .raise error

def access {α : Type} (a : Access α) : Activity α := fun next => .access a next

def ask {α : Type} (request : Request α) : Activity α := fun next => .ask request next

def call (callee : Value) (args : List Value) (trace : Trace) : Activity (List Value) :=
  fun next => .call callee args trace next

def guard (callee : Value) (args : List Value) (trace : Trace) :
    Activity (Except Value (List Value)) :=
  fun next => .guard callee args trace next

def pause : Activity Unit := fun next => .pause fun _ => next ()

def exhausted {α : Type} : Activity α := fun _ => .exhausted

/-- The routine of an activity with nothing after it. -/
def routine (x : Activity (List Value)) : Routine := x .done

/-- Repeats a turn until it gives a result, for so many turns at most. -/
def repeatUntil {σ β : Type} (turn : σ → Activity (σ ⊕ β)) : Nat → σ → Activity β
  | 0, _ => exhausted
  | turns + 1, state => do
    pause
    match ← turn state with
    | .inl state => repeatUntil turn turns state
    | .inr result => return result

/-- A new value with contents of the engine. -/
def wrap (data : UserData) : Activity Value := return .userdata data (← access .newIdentity)

/-- Raises an error of the engine. -/
def refuse {α : Type} (cause : Cause) : Activity α := do raise (← wrap (.fault cause))

/-- The value, or the error of the engine. -/
def orRefuse {α : Type} : Except ScriptError α → Activity α
  | .ok a => pure a
  | .error e => refuse (.refused e)

/-- Raises an error of the script, with the place if a script is there. -/
def fail {α : Type} (site : Option Site) (message : String) : Activity α :=
  raise (.text ((site.map Site.text).getD [] ++ utf8 message))

end Activity

end EntityScripting.Script
