import EntityScripting.Proofs.Game.RelayCycle
import EntityScripting.Proofs.Game.Trace

/-!
# Uses and calls

All uses while a command is obeyed, those inside one another included, and the functions that they
call. What is kept holds of every engine that a use finds (`usesOfCommand_sustains`), and scripts do
nothing but in the script of a level or in a function that a use calls (`caused_commandTrace`).
-/

namespace EntityScripting.Engine

open Number Script Heap

def asked (usesOf : UseEvent → Engine → List (UseEvent × Engine)) :
    Happening Game → List (UseEvent × Engine)
  | .access .. => []
  | .ask request engine =>
    match used? request engine with
    | some event => usesOf event engine
    | none => []

/-- A use and all those that are made before it is done, each with the engine that it finds. -/
def usesWithin (limits : Limits) : (depth : Nat) → UseEvent → Engine → List (UseEvent × Engine)
  | 0, _, _ => []
  | depth + 1, event, engine =>
    (event, engine) ::
      match behavior? engine.state event.target with
      | some .script =>
        match entered? event engine with
        | some routine =>
          (routine.trace limits.turns (perform (useWithin limits depth)) (fun _ _ => [])
            limits.steps [] (entering event engine)).flatMap (asked (usesWithin limits depth))
        | none => []
      | some .relay =>
        (relayed limits depth event engine).flatMap fun (use, now) => usesWithin limits depth use now
      | _ => []

def usesOfAction (limits : Limits) (helper : EntityId) (think : Think) (engine : Engine) :
    List (UseEvent × Engine) :=
  match fired? helper think engine with
  | some event => usesWithin limits limits.nesting event engine
  | none => []

def usesInFrame (limits : Limits) : (count : Nat) → Engine → List (UseEvent × Engine)
  | 0, _ => []
  | count + 1, engine =>
    match engine.state.pool.takeDue? with
    | none => []
    | some (helper, think, pool) =>
      let taken := engine.update fun g => { g with pool }
      usesOfAction limits helper think taken ++
        match fire (use limits) helper think taken with
        | some after => usesInFrame limits count (retire (pool.wrap helper) after)
        | none => []

def usesOfCommand (limits : Limits) (engine : Engine) : Command → List (UseEvent × Engine)
  | .loadSource level source | .loadFile level (.ok source) =>
    (loadTrace limits (fun _ _ => []) level source engine).flatMap
      (asked (usesWithin limits limits.nesting))
  | .use event => usesWithin limits limits.nesting event engine
  | .advance seconds =>
    usesInFrame limits limits.steps
      (engine.update fun g => { g with pool := g.pool.advance seconds })
  | _ => []

section

variable {Good : Engine → Prop} {limits : Limits} {engine : Engine}

theorem asked_meets {usesOf : UseEvent → Engine → List (UseEvent × Engine)}
    (uses : ∀ event engine, Good engine → ∀ use ∈ usesOf event engine, Good use.2)
    {happenings : List (Happening Game)} (meets : ∀ happening ∈ happenings, Good happening.world) :
    ∀ use ∈ happenings.flatMap (asked usesOf), Good use.2 := by
  intro use member
  obtain ⟨happening, listed, inner⟩ := List.mem_flatMap.mp member
  cases happening with
  | access => cases inner
  | ask request now =>
    cases used : used? request now with
    | none =>
      simp only [asked, used] at inner
      cases inner
    | some event =>
      simp only [asked, used] at inner
      exact uses event now (meets _ listed) use inner

theorem usesWithin_sustains (sustains : Sustains Good) (depth : Nat) {event : UseEvent}
    (good : Good engine) : ∀ use ∈ usesWithin limits depth event engine, Good use.2 := by
  induction depth generalizing event engine with
  | zero => exact fun _ member => nomatch member
  | succ depth ih =>
    intro use member
    rcases List.mem_cons.mp member with rfl | later
    · exact good
    split at later
    · split at later
      · have begun := sustains.quiet (quiet_entering event engine) good
        refine asked_meets (fun _ _ => ih) (Routine.runWith_meets ?_ ?_ limits.turns begun) use later
        · exact kept_perform_sustains sustains depth
        · exact fun _ _ _ _ member => nomatch member
      · cases later
    · obtain ⟨⟨use', now⟩, listed, inner⟩ := List.mem_flatMap.mp later
      have good' : Good now := dispatched_meets
        (fun _ _ _ good used => useWithin_sustains sustains depth good used) good listed
      exact ih good' use inner
    · cases later

theorem usesOfAction_sustains (sustains : Sustains Good) {helper : EntityId} {think : Think}
    (good : Good engine) : ∀ use ∈ usesOfAction limits helper think engine, Good use.2 := by
  unfold usesOfAction
  split
  · exact usesWithin_sustains sustains limits.nesting good
  · exact fun _ member => nomatch member

theorem usesInFrame_sustains (sustains : Sustains Good) (count : Nat) (good : Good engine) :
    ∀ use ∈ usesInFrame limits count engine, Good use.2 := by
  induction count generalizing engine with
  | zero => exact fun _ member => nomatch member
  | succ count ih =>
    intro use member
    unfold usesInFrame at member
    split at member
    · cases member
    · rename_i helper think pool taken
      dsimp only at member
      have taken' := sustains.take taken good
      rcases List.mem_append.mp member with action | later
      · exact usesOfAction_sustains sustains taken' use action
      · split at later
        · rename_i after fired
          have acted := fire_accounts (accounts_sustains sustains) fired taken'
          exact ih (sustains.quiet (quiet_retire (pool.wrap helper) after) acted) use later
        · cases later

theorem usesOfLoad_sustains (sustains : Sustains Good) {level : String}
    (begun : ∀ code,
      Good ⟨engine.state.clearLevel, (prepare engine.heap engine.state.api level code).2.2⟩)
    (source : String) :
    ∀ use ∈ (loadTrace limits (fun _ _ => []) level source engine).flatMap
      (asked (usesWithin limits limits.nesting)), Good use.2 := by
  refine asked_meets (fun _ _ => usesWithin_sustains sustains limits.nesting)
    (loadTrace_conducts sustains.conducts ?_ begun source)
  exact fun _ _ _ _ member => nomatch member

/-- What is kept at the beginning of a level too holds of every engine that a use finds. -/
theorem usesOfCommand_sustains (lasts : Lasts Good) (good : Good engine) (command : Command) :
    ∀ use ∈ usesOfCommand limits engine command, Good use.2 := by
  have sustains := lasts.toSustains
  unfold usesOfCommand
  split
  · exact usesOfLoad_sustains sustains (lasts.start _ · good) _
  · exact usesOfLoad_sustains sustains (lasts.start _ · good) _
  · exact usesWithin_sustains sustains limits.nesting good
  · exact usesInFrame_sustains sustains limits.steps (sustains.clock _ good)
  · exact fun _ member => nomatch member

end

/-! ### Calls -/

/-- The function that the name of an entity stood for when a level had been loaded. -/
def callee? (loaded : Engine) (event : UseEvent) (now : Engine) : Option Callee :=
  match (now.state.pool.entity? event.target).bind (·.fields.scriptFunction), loaded.state.level with
  | some name, some level =>
    match loaded.heap.bound level.globals (.ofString name) with
    | .function callee => some callee
    | _ => none
  | _, _ => none

/-- Whether the use of a script entity is a call of that function, or is no more than a record if
there is none. -/
def Calls (limits : Limits) (event : UseEvent) (now : Engine) : Option Callee → Prop
  | some callee => ∃ label name, ∀ usage,
    useScript limits usage event now = callScript limits usage callee label name event now
  | none => ∃ log, ∀ usage, useScript limits usage event now = some (now.withLog log)

section

variable {engine : Engine}

theorem calls_callee (limits : Limits) (event : UseEvent) (now : Engine) :
    Calls limits event now (callee? now event now) := by
  unfold callee?
  cases found : now.state.pool.entity? event.target with
  | none =>
    simp only [Calls, useScript, found, Option.bind_none]
    exact ⟨_, fun _ => rfl⟩
  | some e =>
    cases loaded : now.state.level with
    | none =>
      cases named : e.fields.scriptFunction <;>
        (simp only [Calls, useScript, found, loaded, named, Option.bind_some]; exact ⟨_, fun _ => rfl⟩)
    | some level =>
      cases named : e.fields.scriptFunction with
      | none =>
        simp only [Calls, useScript, found, loaded, named, Option.bind_some]
        exact ⟨_, fun _ => rfl⟩
      | some name =>
        cases bound : now.heap.bound level.globals (.ofString name) with
        | function callee =>
          simp only [Calls, useScript, found, loaded, named, bound, Option.bind_some]
          exact ⟨_, _, fun _ => rfl⟩
        | _ =>
          simp only [Calls, useScript, found, loaded, named, bound, Option.bind_some]
          exact ⟨_, fun _ => rfl⟩

theorem callee?_of_unloaded (unloaded : engine.state.level = none) (event : UseEvent) :
    callee? engine event engine = none := by
  unfold callee?
  rw [unloaded]
  cases (engine.state.pool.entity? event.target).bind (·.fields.scriptFunction) <;> rfl

theorem entered?_eq (event : UseEvent) (engine : Engine) :
    entered? event engine =
      (callee? engine event engine).map fun callee => calling callee event engine := by
  unfold entered? callee?
  cases (engine.state.pool.entity? event.target).bind (·.fields.scriptFunction) with
  | none => rfl
  | some name =>
    cases engine.state.level with
    | none => rfl
    | some level =>
      dsimp only
      cases engine.heap.bound level.globals (.ofString name) <;> rfl

end

def chunkTrace (limits : Limits) (engine : Engine) : Command → List (Happening Game)
  | .loadSource level source | .loadFile level (.ok source) =>
    loadTrace limits (fun _ _ => []) level source engine
  | _ => []

def Does (limits : Limits) (use : UseEvent × Engine) (callee : Callee)
    (happening : Happening Game) : Prop :=
  ∃ depth, happening ∈ (calling callee use.1 use.2).trace limits.turns
    (perform (useWithin limits depth)) (fun _ _ => []) limits.steps [] (entering use.1 use.2)

def Caused (limits : Limits) (uses : List (UseEvent × Engine)) (happening : Happening Game) : Prop :=
  ∃ use ∈ uses, behavior? use.2.state use.1.target = some .script ∧
    ∃ callee, callee? use.2 use.1 use.2 = some callee ∧ Does limits use callee happening

section

variable {limits : Limits} {engine : Engine} {happening : Happening Game}

theorem Caused.mono {uses others : List (UseEvent × Engine)} (caused : Caused limits uses happening)
    (listed : uses ⊆ others) : Caused limits others happening := by
  obtain ⟨use, member, called⟩ := caused
  exact ⟨use, listed member, called⟩

theorem caused_asked {usesOf : UseEvent → Engine → List (UseEvent × Engine)}
    {traceOf : UseEvent → Engine → List (Happening Game)}
    (each : ∀ event now, happening ∈ traceOf event now → Caused limits (usesOf event now) happening)
    {own : Happening Game} (inner : happening ∈ own.within (inside traceOf)) :
    Caused limits (asked usesOf own) happening := by
  cases own with
  | access => cases inner
  | ask request now =>
    simp only [Happening.within, inside] at inner
    split at inner
    · rename_i event used
      simp only [asked, used]
      exact each event now inner
    · cases inner

/-- What scripts do while an entity is used is done by the functions that it and the uses within it
call. -/
theorem caused_useTrace (depth : Nat) {event : UseEvent}
    (member : happening ∈ useTrace limits depth event engine) :
    Caused limits (usesWithin limits depth event engine) happening := by
  induction depth generalizing event engine with
  | zero => cases member
  | succ depth ih =>
    cases behavior : behavior? engine.state event.target with
    | none =>
      simp only [useTrace, behavior] at member
      cases member
    | some use =>
      cases use with
      | script =>
        cases entered : entered? event engine with
        | none =>
          simp only [useTrace, behavior, entered] at member
          cases member
        | some routine =>
          simp only [useTrace, behavior, entered] at member
          obtain ⟨callee, called, rfl⟩ :=
            Option.map_eq_some_iff.mp (entered?_eq event engine ▸ entered)
          rw [Routine.trace_eq_flatMap] at member
          obtain ⟨own, listed, member⟩ := List.mem_flatMap.mp member
          rcases List.mem_cons.mp member with rfl | inner
          · exact ⟨(event, engine), List.mem_cons_self, behavior, callee, called, _, listed⟩
          · refine (caused_asked (fun _ _ => ih) inner).mono fun use asked => ?_
            simp only [usesWithin, behavior, entered]
            exact List.mem_cons_of_mem _ (List.mem_flatMap.mpr ⟨own, listed, asked⟩)
      | relay =>
        simp only [useTrace, behavior] at member
        obtain ⟨⟨use, now⟩, listed, inner⟩ := List.mem_flatMap.mp member
        refine (ih inner).mono fun use' inner' => ?_
        simp only [usesWithin, behavior]
        exact List.mem_cons_of_mem _ (List.mem_flatMap.mpr ⟨(use, now), listed, inner'⟩)
      | native =>
        simp only [useTrace, behavior] at member
        cases member

theorem caused_fireTrace (count : Nat) (member : happening ∈ fireTrace limits count engine) :
    Caused limits (usesInFrame limits count engine) happening := by
  induction count generalizing engine with
  | zero => cases member
  | succ count ih =>
    cases taken : engine.state.pool.takeDue? with
    | none =>
      simp only [fireTrace, taken] at member
      cases member
    | some due =>
      obtain ⟨helper, think, pool⟩ := due
      simp only [fireTrace, taken] at member
      simp only [usesInFrame, taken, usesOfAction]
      rcases List.mem_append.mp member with action | later
      · refine Caused.mono ?_ (List.subset_append_left _ _)
        cases fires : fired? helper think (engine.update fun g => { g with pool }) with
        | none =>
          simp only [fires] at action
          cases action
        | some event =>
          simp only [fires] at action
          exact caused_useTrace limits.nesting action
      · refine Caused.mono ?_ (List.subset_append_right _ _)
        cases fired : fire (use limits) helper think (engine.update fun g => { g with pool }) with
        | none =>
          simp only [fired] at later
          cases later
        | some after =>
          simp only [fired] at later
          exact ih later

theorem caused_loadTrace {level source : String}
    (member : happening ∈
      loadTrace limits (inside (useTrace limits limits.nesting)) level source engine) :
    happening ∈ loadTrace limits (fun _ _ => []) level source engine ∨
      Caused limits ((loadTrace limits (fun _ _ => []) level source engine).flatMap
        (asked (usesWithin limits limits.nesting))) happening := by
  unfold loadTrace at member ⊢
  cases read : Program.read? (Text.utf8 source) with
  | none =>
    simp only [read] at member
    cases member
  | some code =>
    simp only [read, levelTrace] at member ⊢
    rw [Routine.trace_eq_flatMap] at member
    obtain ⟨own, listed, member⟩ := List.mem_flatMap.mp member
    rcases List.mem_cons.mp member with rfl | inner
    · exact .inl listed
    · have caused := caused_asked (fun _ _ => caused_useTrace limits.nesting) inner
      exact .inr (caused.mono fun use asked => List.mem_flatMap.mpr ⟨own, listed, asked⟩)

/-- Whatever scripts do while a command is obeyed, the script of the level does it that is loaded, or
a function that one of the uses calls. -/
theorem caused_commandTrace {command : Command}
    (member : happening ∈ commandTrace limits engine command) :
    happening ∈ chunkTrace limits engine command ∨
      Caused limits (usesOfCommand limits engine command) happening := by
  cases command with
  | loadSource => exact caused_loadTrace member
  | loadFile level content =>
    cases content with
    | ok => exact caused_loadTrace member
    | error => cases member
  | use => exact .inr (caused_useTrace limits.nesting member)
  | advance => exact .inr (caused_fireTrace limits.steps member)
  | _ => cases member

end

end EntityScripting.Engine
