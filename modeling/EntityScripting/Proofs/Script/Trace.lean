import EntityScripting.Proofs.Script.Execution

/-!
# Traces of runs

All that a routine does to the world, in order, with the world that each access and each request
finds. What is done inside the answer to a request comes right after it. `runWith_accounts` derives
what a run comes to from its trace, `runWith_meets` what holds all along it, however it ends.
-/

namespace EntityScripting.Script

inductive Happening (σ : Type) : Type 1 where
  | access {α : Type} (access : Access α) (world : World σ)
  | ask {α : Type} (request : Request α) (world : World σ)

def Happening.world {σ : Type} : Happening σ → World σ
  | .access _ world | .ask _ world => world

abbrev Inside (σ : Type) := {α : Type} → Request α → World σ → List (Happening σ)

/-- What is counted to happen inside a happening. -/
def Happening.within {σ : Type} (inside : Inside σ) : Happening σ → List (Happening σ)
  | .access .. => []
  | .ask request world => inside request world

namespace Routine

variable {σ : Type} {perform : Performer σ} {inside : Inside σ}

def trace (turns : Nat) (perform : Performer σ) (inside : Inside σ) :
    (steps : Nat) → Routine → List Frame → World σ → List (Happening σ)
  | 0, _, _, _ => []
  | steps + 1, routine, frames, world =>
    match routine, frames with
    | .done _, [] | .raise _, [] | .exhausted, _ => []
    | .done values, .next rest :: frames => trace turns perform inside steps (rest values) frames world
    | .done values, .guard rest :: frames =>
      trace turns perform inside steps (rest (.ok values)) frames world
    | .raise error, .next _ :: frames => trace turns perform inside steps (.raise error) frames world
    | .raise error, .guard rest :: frames =>
      trace turns perform inside steps (rest (.error error)) frames world
    | .access request rest, frames =>
      let (answer, heap) := request.run world.heap
      .access request world :: trace turns perform inside steps (rest answer) frames ⟨world.state, heap⟩
    | .ask request rest, frames =>
      .ask request world :: (inside request world ++
        match perform request world with
        | some (answer, world) => trace turns perform inside steps (rest answer) frames world
        | none => [])
    | .call callee args trace' rest, frames =>
      trace turns perform inside steps (callee.invoke turns args trace') (.next rest :: frames) world
    | .guard callee args trace' rest, frames =>
      trace turns perform inside steps (callee.invoke turns args trace') (.guard rest :: frames) world
    | .pause rest, frames => trace turns perform inside steps (rest ()) frames world

/-- A run does what it does itself, and what happens inside that besides. -/
theorem trace_eq_flatMap (turns steps : Nat) (routine : Routine) (frames : List Frame)
    (world : World σ) :
    trace turns perform inside steps routine frames world =
      (trace turns perform (fun _ _ => []) steps routine frames world).flatMap
        fun happening => happening :: happening.within inside := by
  induction steps generalizing routine frames world with
  | zero => rfl
  | succ steps ih =>
    match routine, frames with
    | .done _, [] | .raise _, [] | .exhausted, _ => rfl
    | .done _, .next _ :: _ | .done _, .guard _ :: _ => exact ih ..
    | .raise _, .next _ :: _ | .raise _, .guard _ :: _ => exact ih ..
    | .access a rest, _ => exact congrArg (List.cons _) (ih ..)
    | .ask request rest, frames =>
      simp only [trace, List.flatMap_cons, List.nil_append, List.cons_append]
      refine congrArg (List.cons _ <| inside request world ++ ·) ?_
      cases perform request world with
      | none => rfl
      | some result => exact ih ..
    | .call .., _ | .guard .., _ | .pause _, _ => exact ih ..

/-- A relation between a world, what happens then, and the world after it. -/
structure Accounts (perform : Performer σ) (inside : Inside σ)
    (Account : World σ → List (Happening σ) → World σ → Prop) : Prop where
  nothing : ∀ world, Account world [] world
  append : ∀ {world middle last : World σ} {first second : List (Happening σ)},
    Account world first middle → Account middle second last → Account world (first ++ second) last
  access : ∀ {α : Type} (access : Access α) (world : World σ),
    Account world [.access access world] ⟨world.state, (access.run world.heap).2⟩
  ask : ∀ {α : Type} (request : Request α) {world next : World σ} {answer : α},
    perform request world = some (answer, next) →
    Account world (.ask request world :: inside request world) next

theorem runWith_accounts {Account : World σ → List (Happening σ) → World σ → Prop}
    (accounts : Accounts perform inside Account) (turns : Nat) {steps : Nat} {routine : Routine}
    {frames : List Frame} {world last : World σ} {outcome : Outcome}
    (ran : runWith turns perform steps routine frames world = some (outcome, last)) :
    Account world (trace turns perform inside steps routine frames world) last := by
  induction steps generalizing routine frames world with
  | zero => cases ran
  | succ steps ih =>
    match routine, frames with
    | .done _, [] | .raise _, [] =>
      cases ran
      exact accounts.nothing _
    | .done _, .next _ :: _ | .done _, .guard _ :: _ => exact ih ran
    | .raise _, .next _ :: _ | .raise _, .guard _ :: _ => exact ih ran
    | .access a rest, _ => exact accounts.append (accounts.access a world) (ih ran)
    | .ask request rest, frames =>
      simp only [runWith] at ran
      split at ran
      · -- What happens inside the answer stands between the request and the rest of the run.
        rename_i answered
        have later := accounts.append (accounts.ask request answered) (ih ran)
        simpa only [trace, answered, List.cons_append] using later
      · cases ran
    | .call .., _ | .guard .., _ | .pause _, _ => exact ih ran
    | .exhausted, _ => cases ran

/-- What accesses and answers keep holds of every world that the run finds, the worlds inside the
answers included. -/
theorem runWith_meets {Good : World σ → Prop} (kept : Kept perform Good)
    (within : ∀ {α : Type} (request : Request α) {world : World σ}, Good world →
      ∀ happening ∈ inside request world, Good happening.world)
    (turns : Nat) {steps : Nat} {routine : Routine} {frames : List Frame} {world : World σ}
    (good : Good world) :
    ∀ happening ∈ trace turns perform inside steps routine frames world, Good happening.world := by
  induction steps generalizing routine frames world with
  | zero => exact fun _ member => nomatch member
  | succ steps ih =>
    match routine, frames with
    | .done _, [] | .raise _, [] | .exhausted, _ => exact fun _ member => nomatch member
    | .done _, .next _ :: _ | .done _, .guard _ :: _ => exact ih good
    | .raise _, .next _ :: _ | .raise _, .guard _ :: _ => exact ih good
    | .access a rest, _ =>
      intro happening member
      rcases List.mem_cons.mp member with rfl | later
      · exact good
      · exact ih (kept.access a good) _ later
    | .ask request rest, frames =>
      intro happening member
      rcases List.mem_cons.mp member with rfl | member
      · exact good
      rcases List.mem_append.mp member with inner | later
      · exact within request good _ inner
      · split at later
        · rename_i answered
          exact ih (kept.ask request good answered) _ later
        · cases later
    | .call .., _ | .guard .., _ | .pause _, _ => exact ih good

end Routine

end EntityScripting.Script
