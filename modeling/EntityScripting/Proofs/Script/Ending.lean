import EntityScripting.Script.Execution

/-!
# What a call ends with

Most built-in functions convert their arguments, ask the engine once, and end. `Routine.Ends` says
what every end of a routine is like, with one rule for each thing that such a routine does; the heap
has no part in it. `run_asking` and `run_handing` are whole runs, of a routine whose request is
refused and of one whose request is granted.
-/

namespace EntityScripting.Script

variable {σ : Type} {perform : Performer σ} {α : Type}

/-- Whether an outcome and the state that it leaves are as they should, whenever a routine ends that
finds the engine in a state. -/
def Routine.Ends (perform : Performer σ) (good : Routine.Outcome → σ → Prop) (state : σ)
    (routine : Routine) : Prop :=
  ∀ turns steps heap outcome last,
    routine.runWith turns perform steps [] ⟨state, heap⟩ = some (outcome, last) →
    good outcome last.state

namespace Routine.Ends

variable {good : Routine.Outcome → σ → Prop} {state : σ}

theorem done {values : List Value} (fit : good (.ok values) state) :
    Ends perform good state (.done values) := by
  intro turns steps heap outcome last ran
  cases steps with
  | zero => cases ran
  | succ steps =>
    cases ran
    exact fit

theorem raise {error : Value} (fit : good (.error error) state) :
    Ends perform good state (.raise error) := by
  intro turns steps heap outcome last ran
  cases steps with
  | zero => cases ran
  | succ steps =>
    cases ran
    exact fit

theorem access {access : Access α} {next : α → Routine}
    (rest : ∀ answer, Ends perform good state (next answer)) :
    Ends perform good state (.access access next) := by
  intro turns steps heap outcome last ran
  cases steps with
  | zero => cases ran
  | succ steps => exact rest _ _ _ _ _ _ ran

theorem ask {request : Request α} {next : α → Routine}
    (rest : ∀ heap answer later, perform request ⟨state, heap⟩ = some (answer, later) →
      Ends perform good later.state (next answer)) :
    Ends perform good state (.ask request next) := by
  intro turns steps heap outcome last ran
  cases steps with
  | zero => cases ran
  | succ steps =>
    simp only [runWith] at ran
    split at ran
    · rename_i answered
      exact rest _ _ _ answered _ _ _ _ _ ran
    · cases ran

theorem refuse {cause : Cause} {next : α → Routine}
    (fit : ∀ identity, good (.error (.userdata (.fault cause) identity)) state) :
    Ends perform good state (Activity.refuse cause next) :=
  .access fun identity => .raise (fit identity)

theorem wrap {data : UserData} {next : Value → Routine}
    (rest : ∀ identity, Ends perform good state (next (.userdata data identity))) :
    Ends perform good state (Activity.wrap data next) := .access rest

theorem orRefuse {result : Except ScriptError α} {next : α → Routine}
    (ok : ∀ a, result = .ok a → Ends perform good state (next a))
    (refused : ∀ e identity, result = .error e →
      good (.error (.userdata (.fault (.refused e)) identity)) state) :
    Ends perform good state (Activity.orRefuse result next) := by
  cases result with
  | ok a => exact ok a rfl
  | error e => exact .refuse fun identity => refused e identity rfl

section

variable (raised : ∀ error, good (.error error) state)

include raised

theorem take {call : Invocation} {n : Nat} {convert : Conversion α} {next : α → Routine}
    (rest : ∀ a, convert (call.arg n) = .ok a → Ends perform good state (next a)) :
    Ends perform good state (call.take n convert next) := by
  unfold Invocation.take
  cases converted : convert (call.arg n) with
  | ok a => exact rest a converted
  | error reason => exact .refuse fun _ => raised _

theorem takeOf {call : Invocation} {owner : String} {n : Nat} {convert : Conversion α}
    {next : α → Routine}
    (rest : ∀ a, convert (call.arg n) = .ok a → Ends perform good state (next a)) :
    Ends perform good state (call.takeOf owner n convert next) := by
  unfold Invocation.takeOf
  cases converted : convert (call.arg n) with
  | ok a => exact rest a converted
  | error reason => exact .refuse fun _ => raised _

theorem receiver {call : Invocation} {owner : String} {accept : UserData → Option α}
    {next : α → Routine}
    (rest : ∀ data identity others a, call.args = .userdata data identity :: others →
      accept data = some a → Ends perform good state (next a)) :
    Ends perform good state (call.receiver owner accept next) := by
  unfold Invocation.receiver
  dsimp only
  obtain ⟨name, args, trace⟩ := call
  match args with
  | .userdata data identity :: others =>
    dsimp only
    cases accepted : accept data with
    | some a => exact rest data identity others a rfl accepted
    | none => exact .refuse fun _ => raised _
  | [] | .nil :: _ | .boolean _ :: _ | .integer _ :: _ | .number _ :: _ | .text _ :: _
  | .table _ :: _ | .function _ :: _ => exact .refuse fun _ => raised _

theorem toVector {v : Value} {next : Vec3 → Routine}
    (rest : ∀ x, v.datum.vector = .ok x → Ends perform good state (next x)) :
    Ends perform good state (v.toVector next) :=
  .orRefuse rest fun _ _ _ => raised _

end

end Routine.Ends

/-! ### Whole runs -/

theorem takeOf_of_ok {call : Invocation} {owner : String} {n : Nat} {convert : Conversion α} {a : α}
    (converted : convert (call.arg n) = .ok a) : call.takeOf owner n convert = pure a := by
  unfold Invocation.takeOf
  rw [converted]

/-- A routine goes on with the answer to its request. -/
theorem run_answered {limits : Limits} {request : Request α} {next : α → Routine} {a : α} {more : Nat}
    {world later : World σ} (steps : limits.steps = more + 1)
    (answered : perform request world = some (a, later)) :
    (Routine.ask request next).run limits perform world =
      (next a).runWith limits.turns perform more [] later := by
  simp only [Routine.run, steps, Routine.runWith, answered]

/-- A method raises an error if it is given an argument that it does not take, and does no more. -/
theorem run_takeOf_of_error {limits : Limits} {call : Invocation} {owner : String} {n : Nat}
    {convert : Conversion α} {reason : String} {world : World σ} (steps : 2 ≤ limits.steps)
    (failed : convert (call.arg n) = .error reason) (next : α → Routine) :
    ∃ error heap, (call.takeOf owner n convert next).run limits perform world =
      some (.error error, ⟨world.state, heap⟩) := by
  obtain ⟨more, enough⟩ : ∃ more, limits.steps = more + 2 := ⟨limits.steps - 2, by omega⟩
  unfold Invocation.takeOf Routine.run
  rw [failed, enough]
  exact ⟨_, _, rfl⟩

/-- An error with which a request is refused is raised, and nothing has been done but that. -/
theorem run_asking {limits : Limits} {request : Request (Except ScriptError α)} {next : α → Routine}
    {e : ScriptError} {world : World σ} (steps : 3 ≤ limits.steps)
    (refused : perform request world = some (.error e, world)) :
    (Routine.ask request fun answer => Activity.orRefuse answer next).run limits perform world =
      some (.error (.userdata (.fault (.refused e)) world.heap.nextIdentity),
        ⟨world.state, { world.heap with nextIdentity := world.heap.nextIdentity + 1 }⟩) := by
  obtain ⟨more, enough⟩ : ∃ more, limits.steps = more + 3 := ⟨limits.steps - 3, by omega⟩
  rw [run_answered enough refused]
  rfl

/-- A routine whose request is granted ends with values of its own. -/
theorem run_granted {limits : Limits} {request : Request (Except ScriptError α)} {a : α}
    {values : List Value} {world later : World σ} (steps : 2 ≤ limits.steps)
    (granted : perform request world = some (.ok a, later)) :
    (Routine.ask request fun answer => Activity.orRefuse answer fun _ => .done values).run
      limits perform world = some (.ok values, later) := by
  obtain ⟨more, enough⟩ : ∃ more, limits.steps = more + 2 := ⟨limits.steps - 2, by omega⟩
  rw [run_answered enough granted]
  rfl

/-- A call whose request is granted hands out the answer. -/
theorem run_handing {limits : Limits} {request : Request (Except ScriptError α)}
    (data : α → UserData) {a : α} {world later : World σ} (steps : 3 ≤ limits.steps)
    (granted : perform request world = some (.ok a, later)) :
    (Routine.ask request fun answer => Activity.orRefuse answer fun a =>
        Activity.wrap (data a) fun v => .done [v]).run limits perform world =
      some (.ok [.userdata (data a) later.heap.nextIdentity],
        ⟨later.state, { later.heap with nextIdentity := later.heap.nextIdentity + 1 }⟩) := by
  obtain ⟨more, enough⟩ : ∃ more, limits.steps = more + 3 := ⟨limits.steps - 3, by omega⟩
  rw [run_answered enough granted]
  rfl

end EntityScripting.Script
