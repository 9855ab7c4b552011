import EntityScripting.Script.Execution

/-!
# What a part of a routine leads to

A call runs within other calls as it does by itself (`runWith_append`). So an activity leads to a
value, or to an error, whatever comes after it, and what a built-in function comes to is put together
from what its parts lead to: its accesses, its requests and the calls that it makes.
-/

namespace EntityScripting.Script

variable {σ α β : Type} {turns : Nat} {perform : Performer σ}

namespace Routine

def ofOutcome : Outcome → Routine
  | .ok values => .done values
  | .error e => .raise e

/-- A run within calls goes on where the run by itself has ended. -/
theorem runWith_append {steps : Nat} {routine : Routine} {frames : List Frame}
    {world last : World σ} {outcome : Outcome}
    (ran : runWith turns perform steps routine frames world = some (outcome, last)) :
    ∃ used, ∀ (base : List Frame) (more : Nat),
      runWith turns perform (used + more) routine (frames ++ base) world =
        runWith turns perform more (ofOutcome outcome) base last := by
  -- One step of the run by itself is one step of the run within calls.
  have step {routine next : Routine} {frames frames' : List Frame} {world world' : World σ}
      (one : ∀ base n, runWith turns perform (n + 1) routine (frames ++ base) world =
        runWith turns perform n next (frames' ++ base) world')
      (rest : ∃ used, ∀ base more,
        runWith turns perform (used + more) next (frames' ++ base) world' =
          runWith turns perform more (ofOutcome outcome) base last) :
      ∃ used, ∀ base more,
        runWith turns perform (used + more) routine (frames ++ base) world =
          runWith turns perform more (ofOutcome outcome) base last := by
    obtain ⟨used, same⟩ := rest
    refine ⟨used + 1, fun base more => ?_⟩
    rw [Nat.succ_add, ← same base more]
    exact one _ _
  induction steps generalizing routine frames world with
  | zero => cases ran
  | succ steps ih =>
    match routine, frames with
    | .done _, [] | .raise _, [] =>
      cases ran
      exact ⟨0, fun base more => by rw [Nat.zero_add]; rfl⟩
    | .done _, .next _ :: _ | .done _, .guard _ :: _ => exact step (fun _ _ => rfl) (ih ran)
    | .raise _, .next _ :: _ | .raise _, .guard _ :: _ => exact step (fun _ _ => rfl) (ih ran)
    | .access _ _, frames => exact step (fun _ _ => rfl) (ih ran)
    | .ask request rest, frames =>
      simp only [runWith] at ran
      split at ran
      · rename_i answered
        refine step (fun base n => ?_) (ih ran)
        simp only [runWith, answered]
      · cases ran
    | .call .., frames => exact step (fun _ _ => rfl) (ih ran)
    | .guard .., frames => exact step (fun _ _ => rfl) (ih ran)
    | .pause _, frames => exact step (fun _ _ => rfl) (ih ran)
    | .exhausted, _ => cases ran

/-- An outcome is returned to the call that guards it. -/
theorem runWith_ofOutcome (outcome : Outcome) (next : Except Value (List Value) → Routine)
    (frames : List Frame) (world : World σ) (more : Nat) :
    runWith turns perform (more + 1) (ofOutcome outcome) (.guard next :: frames) world =
      runWith turns perform more (next outcome) frames world := by
  cases outcome <;> rfl

end Routine

/-- Whether a call, made by itself, comes to an outcome and leaves a world. -/
def Comes (turns : Nat) (perform : Performer σ) (callee : Value) (args : List Value) (trace : Trace)
    (world : World σ) (outcome : Routine.Outcome) (last : World σ) : Prop :=
  ∃ steps, (callee.invoke turns args trace).runWith turns perform steps [] world =
    some (outcome, last)

/-- A call comes to one outcome only. -/
theorem Comes.unique {callee : Value} {args : List Value} {trace : Trace} {world last last' : World σ}
    {outcome outcome' : Routine.Outcome}
    (comes : Comes turns perform callee args trace world outcome last)
    (comes' : Comes turns perform callee args trace world outcome' last') :
    outcome = outcome' ∧ last = last' := by
  obtain ⟨steps, ran⟩ := comes
  obtain ⟨steps', ran'⟩ := comes'
  obtain ⟨used, same⟩ := Routine.runWith_append ran
  obtain ⟨used', same'⟩ := Routine.runWith_append ran'
  have ends (outcome : Routine.Outcome) (last : World σ) (more : Nat) :
      Routine.runWith turns perform (more + 1) (Routine.ofOutcome outcome) [] last =
        some (outcome, last) := by
    cases outcome <;> rfl
  have long := same [] (used' + 1)
  have long' := same' [] (used + 1)
  rw [show used' + (used + 1) = used + (used' + 1) by omega, long, ends, ends] at long'
  obtain ⟨rfl, rfl⟩ := Prod.mk.inj (Option.some.inj long')
  exact ⟨rfl, rfl⟩

/-! ### Activities -/

/-- Whether an activity goes on as another one in a later world, whatever comes after it. -/
def Leads (turns : Nat) (perform : Performer σ) (x : Activity α) (world : World σ) (y : Activity α)
    (last : World σ) : Prop :=
  ∃ used, ∀ (next : α → Routine) (frames : List Frame) (more : Nat),
    (x next).runWith turns perform (used + more) frames world =
      (y next).runWith turns perform more frames last

namespace Leads

variable {world later last : World σ} {x y z : Activity α}

theorem refl (x : Activity α) (world : World σ) : Leads turns perform x world x world :=
  ⟨0, fun next frames more => by rw [Nat.zero_add]⟩

theorem trans (first : Leads turns perform x world y later)
    (second : Leads turns perform y later z last) : Leads turns perform x world z last := by
  obtain ⟨used, runs⟩ := first
  obtain ⟨used', runs'⟩ := second
  refine ⟨used + used', fun next frames more => ?_⟩
  rw [Nat.add_assoc, runs, runs']

/-- What comes after an activity is as far off as it was. -/
theorem bind (leads : Leads turns perform x world y last) (f : α → Activity β) :
    Leads turns perform (x >>= f) world (y >>= f) last := by
  obtain ⟨used, runs⟩ := leads
  exact ⟨used, fun next frames more => runs (fun a => f a next) frames more⟩

theorem access (access : Access α) (world : World σ) :
    Leads turns perform (Activity.access access) world (pure (access.run world.heap).1)
      ⟨world.state, (access.run world.heap).2⟩ :=
  ⟨1, fun next frames more => by rw [Nat.add_comm]; rfl⟩

theorem ask {request : Request α} {a : α}
    (answered : perform request world = some (a, last)) :
    Leads turns perform (Activity.ask request) world (pure a) last := by
  refine ⟨1, fun next frames more => ?_⟩
  rw [Nat.add_comm]
  simp only [Activity.ask, Routine.runWith, answered]
  rfl

theorem guard {callee : Value} {args : List Value} {trace : Trace} {outcome : Routine.Outcome}
    (comes : Comes turns perform callee args trace world outcome last) :
    Leads turns perform (Activity.guard callee args trace) world (pure outcome) last := by
  obtain ⟨steps, ran⟩ := comes
  obtain ⟨used, same⟩ := Routine.runWith_append ran
  refine ⟨used + 2, fun next frames more => ?_⟩
  have called := same (.guard next :: frames) (more + 1)
  rw [Routine.runWith_ofOutcome] at called
  rw [show used + 2 + more = used + (more + 1) + 1 by omega]
  exact called

theorem refuse (cause : Cause) (world : World σ) :
    Leads turns perform (Activity.refuse cause : Activity α) world
      (Activity.raise (.userdata (.fault cause) world.heap.nextIdentity))
      ⟨world.state, { world.heap with nextIdentity := world.heap.nextIdentity + 1 }⟩ :=
  ⟨1, fun next frames more => by rw [Nat.add_comm]; rfl⟩

/-- A built-in function comes to the values that its activity leads to. -/
theorem comes {builtin : Builtin} {args values : List Value} {trace : Trace}
    (leads : Leads turns perform (builtin.run args trace) world (pure values) last) :
    Comes turns perform (.builtin builtin) args trace world (.ok values) last := by
  obtain ⟨used, runs⟩ := leads
  exact ⟨used + 1, runs .done [] 1⟩

/-- It comes to the error that its activity leads to. -/
theorem comes_error {builtin : Builtin} {args : List Value} {trace : Trace} {e : Value}
    (leads : Leads turns perform (builtin.run args trace) world (Activity.raise e) last) :
    Comes turns perform (.builtin builtin) args trace world (.error e) last := by
  obtain ⟨used, runs⟩ := leads
  exact ⟨used + 1, runs .done [] 1⟩

end Leads

end EntityScripting.Script
