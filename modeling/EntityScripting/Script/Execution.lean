import EntityScripting.Script.Evaluation
import EntityScripting.Script.Library.Base
import EntityScripting.Script.Library.Engine
import EntityScripting.Script.Library.Math
import EntityScripting.Script.Library.Table
import EntityScripting.Script.Library.Text

/-!
# Execution

Carrying a routine out: its accesses on a heap, its requests by whoever stands for the engine, its
calls by the routine of the function that is called. The calls under way are a list of frames, and a
number of steps is given, so that every run ends; `none` says that the steps or the turns of a loop
did not suffice.
-/

namespace EntityScripting.Script

/-- How much a run may take. -/
structure Limits where
  /-- The steps of one routine. -/
  steps : Nat
  /-- The turns of one loop. -/
  turns : Nat
  /-- How many uses of entities may lie one inside another. -/
  nesting : Nat
deriving DecidableEq, Repr, Inhabited

/-- Limits that only an endless run exceeds. -/
def Limits.generous : Limits := ⟨1000000000000000, 1000000000000000, 1000000000000000⟩

/-- The library: a call of any built-in function. -/
def Builtin.run (b : Builtin) (args : List Value) (trace : Trace) : Activity (List Value) :=
  let call : Invocation := ⟨b.path.2, args, trace⟩
  match b with
  | .base f => f.run call
  | .position => nextPosition call
  | .engine f => f.run call
  | .entity f => f.run call
  | .vector f => f.run call
  | .math f => f.run call
  | .text f => f.run call
  | .table f => f.run call

/-- The routine of a call. -/
def Value.invoke (turns : Nat) (callee : Value) (args : List Value) (trace : Trace) : Routine :=
  match callee with
  | .function (.closure id) =>
    Activity.routine do
      match ← Activity.access (.closure id) with
      | some closure => closure.enter turns args trace
      | none => return []
  | .function (.builtin b) => (b.run args trace).routine
  | .function (.cursor id) => Activity.routine do return [← Activity.access (.advance id)]
  | v => (failWith trace.head?.join (.call v.operandTypeName)).routine

/-- A call under way, with what comes after it. -/
inductive Frame where
  | next (rest : List Value → Routine)
  | guard (rest : Except Value (List Value) → Routine)

/-- The heap of the scripts beside the state of the engine. -/
structure World (σ : Type) where
  state : σ
  heap : Heap

/-- What answers the requests of routines. -/
abbrev Performer (σ : Type) := {α : Type} → Request α → World σ → Option (α × World σ)

namespace Routine

/-- How a routine ends: with values, or with the error that nothing guarded. -/
abbrev Outcome := Except Value (List Value)

/-- Runs a routine within the calls under way. -/
def runWith {σ : Type} (turns : Nat) (perform : Performer σ) :
    (steps : Nat) → Routine → List Frame → World σ → Option (Outcome × World σ)
  | 0, _, _, _ => none
  | steps + 1, routine, frames, world =>
    match routine, frames with
    | .done values, [] => some (.ok values, world)
    | .done values, .next rest :: frames => runWith turns perform steps (rest values) frames world
    | .done values, .guard rest :: frames =>
      runWith turns perform steps (rest (.ok values)) frames world
    | .raise error, [] => some (.error error, world)
    | .raise error, .next _ :: frames => runWith turns perform steps (.raise error) frames world
    | .raise error, .guard rest :: frames =>
      runWith turns perform steps (rest (.error error)) frames world
    | .access request rest, frames =>
      let ⟨state, heap⟩ := world
      let (answer, heap) := request.run heap
      runWith turns perform steps (rest answer) frames ⟨state, heap⟩
    | .ask request rest, frames =>
      match perform request world with
      | some (answer, world) => runWith turns perform steps (rest answer) frames world
      | none => none
    | .call callee args trace rest, frames =>
      runWith turns perform steps (callee.invoke turns args trace) (.next rest :: frames) world
    | .guard callee args trace rest, frames =>
      runWith turns perform steps (callee.invoke turns args trace) (.guard rest :: frames) world
    | .pause rest, frames => runWith turns perform steps (rest ()) frames world
    | .exhausted, _ => none

/-- Runs a routine by itself. -/
def run {σ : Type} (limits : Limits) (perform : Performer σ) (routine : Routine)
    (world : World σ) : Option (Outcome × World σ) :=
  routine.runWith limits.turns perform limits.steps [] world

end Routine

end EntityScripting.Script
