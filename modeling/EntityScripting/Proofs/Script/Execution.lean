import EntityScripting.Script.Execution

/-!
# Invariants of runs

A routine touches the world by its accesses and its requests only. What every access and every
answer keeps, a whole run keeps (`runWith_keeps`), and two performers that agree wherever that holds
run every routine alike (`runWith_congr`).
-/

namespace EntityScripting.Script.Routine

structure Kept {σ : Type} (perform : Performer σ) (Good : World σ → Prop) : Prop where
  access : ∀ {α : Type} (access : Access α) {world : World σ},
    Good world → Good ⟨world.state, (access.run world.heap).2⟩
  ask : ∀ {α : Type} (request : Request α) {world next : World σ} {answer : α},
    Good world → perform request world = some (answer, next) → Good next

section

variable {σ : Type} {perform : Performer σ} {Good : World σ → Prop}

theorem runWith_keeps (kept : Kept perform Good) (turns : Nat) {steps : Nat} {routine : Routine}
    {frames : List Frame} {world last : World σ} {outcome : Outcome} (good : Good world)
    (ran : runWith turns perform steps routine frames world = some (outcome, last)) : Good last := by
  induction steps generalizing routine frames world with
  | zero => cases ran
  | succ steps ih =>
    match routine, frames with
    | .done _, [] | .raise _, [] =>
      cases ran
      exact good
    | .done _, .next _ :: _ | .done _, .guard _ :: _ => exact ih good ran
    | .raise _, .next _ :: _ | .raise _, .guard _ :: _ => exact ih good ran
    | .access a rest, _ => exact ih (kept.access a good) ran
    | .ask request rest, frames =>
      simp only [runWith] at ran
      split at ran
      · rename_i answered
        exact ih (kept.ask request good answered) ran
      · cases ran
    | .call .., _ | .guard .., _ | .pause _, _ => exact ih good ran
    | .exhausted, _ => cases ran

/-- What a performer does where the property does not hold makes no difference to a run. -/
theorem runWith_congr (kept : Kept perform Good) {other : Performer σ}
    (agree : ∀ {α : Type} (request : Request α) {world : World σ},
      Good world → perform request world = other request world)
    (turns steps : Nat) (routine : Routine) (frames : List Frame) {world : World σ}
    (good : Good world) :
    runWith turns perform steps routine frames world =
      runWith turns other steps routine frames world := by
  induction steps generalizing routine frames world with
  | zero => rfl
  | succ steps ih =>
    match routine, frames with
    | .done _, [] | .raise _, [] => rfl
    | .done _, .next _ :: _ | .done _, .guard _ :: _ => exact ih _ _ good
    | .raise _, .next _ :: _ | .raise _, .guard _ :: _ => exact ih _ _ good
    | .access a rest, _ => exact ih _ _ (kept.access a good)
    | .ask request rest, frames =>
      simp only [runWith, ← agree request good]
      split
      · rename_i answered
        exact ih _ _ (kept.ask request good answered)
      · rfl
    | .call .., _ | .guard .., _ | .pause _, _ => exact ih _ _ good
    | .exhausted, _ => rfl

end

end EntityScripting.Script.Routine
