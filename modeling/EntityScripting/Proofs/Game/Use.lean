import EntityScripting.Proofs.Game.Primitive
import EntityScripting.Proofs.Pool.Action
import EntityScripting.Proofs.Script.Execution
import EntityScripting.Proofs.Variable.Table

/-!
# What uses leave alone

A script, a relay or a native callback changes the pool by operations on it and in no other way, and
whatever happens while an entity is used, the level and the trigger stack are in the end what they
were. `useWithin_keeps` says so for every depth of uses inside one another.
-/

namespace EntityScripting

open Number Script

namespace Game

/-- What stays as it was; the tables of variables stay fit for their kinds. -/
structure Stays (g g' : Game) : Prop where
  config : g'.config = g.config
  api : g'.api = g.api
  level : g'.level = g.level
  triggers : g'.triggers = g.triggers
  tables : ∀ kind, (g.table kind).Fit kind → (g'.table kind).Fit kind

/-- The pool has changed too, but only by operations off the clock. -/
structure Keeps (g g' : Game) : Prop extends Stays g g' where
  pool : g.pool.Undergoes g'.pool

structure Persists (g g' : Game) : Prop extends Stays g g' where
  pool : g.pool.Reaches g'.pool

variable {g g' g'' : Game}

theorem Stays.refl (g : Game) : g.Stays g := ⟨rfl, rfl, rfl, rfl, fun _ fit => fit⟩

theorem Stays.trans (first : g.Stays g') (second : g'.Stays g'') : g.Stays g'' where
  config := second.config.trans first.config
  api := second.api.trans first.api
  level := second.level.trans first.level
  triggers := second.triggers.trans first.triggers
  tables kind fit := second.tables kind (first.tables kind fit)

namespace Persists

theorem refl (g : Game) : g.Persists g := ⟨.refl g, .refl _⟩

theorem trans (first : g.Persists g') (second : g'.Persists g'') : g.Persists g'' :=
  ⟨first.toStays.trans second.toStays, first.pool.trans second.pool⟩

theorem setPool (persists : g.Persists g') {pool : Pool} (reach : g'.pool.Reaches pool) :
    g.Persists { g' with pool } :=
  ⟨⟨persists.config, persists.api, persists.level, persists.triggers, persists.tables⟩,
    persists.pool.trans reach⟩

end Persists

namespace Keeps

theorem refl (g : Game) : g.Keeps g := ⟨.refl g, .refl _⟩

theorem trans (first : g.Keeps g') (second : g'.Keeps g'') : g.Keeps g'' :=
  ⟨first.toStays.trans second.toStays, first.pool.trans second.pool⟩

theorem persists (keeps : g.Keeps g') : g.Persists g' := ⟨keeps.toStays, keeps.pool.reaches⟩

theorem note (keeps : g.Keeps g') (severity : Severity) (text : String) :
    g.Keeps (g'.note severity text) :=
  ⟨⟨keeps.config, keeps.api, keeps.level, keeps.triggers, keeps.tables⟩, keeps.pool⟩

theorem withPool (keeps : g.Keeps g') {pool : Logged Pool}
    (course : g'.pool.Undergoes pool.value) : g.Keeps (g'.withPool pool) :=
  ⟨⟨keeps.config, keeps.api, keeps.level, keeps.triggers, keeps.tables⟩,
    keeps.pool.trans course⟩

/-- A frame that is on top when its function has ended is popped as it was pushed. -/
theorem pop {frame : TriggerFrame}
    (body : Keeps { g with triggers := g.triggers.push frame } g') (log : Array Record) :
    g.Keeps { g' with triggers := (g'.triggers.pop g.triggers.depth).value, log } where
  config := body.config
  api := body.api
  level := body.level
  triggers := by
    have top : g'.triggers = g.triggers.push frame := body.triggers
    rw [top, TriggerStack.pop_push]
  tables := body.tables
  pool := body.pool

end Keeps

end Game

namespace Pool

theorem covers_undergoes : Covers Undergoes where
  refl := .refl
  trans := .trans
  spawn? := (Undergoes.refl _).spawn?
  write p id _ _ kept :=
    (Undergoes.refl p).write id fun body => ⟨(kept body).1, (kept body).2.1⟩
  free p := (Undergoes.refl p).free
  kill p := (Undergoes.refl p).kill
  touch p := (Undergoes.refl p).touch
  centerPrint p id text := (Undergoes.refl p).apply (.centerPrint id text) rfl fun _ => trivial
  sound p id sample := (Undergoes.refl p).apply (.sound id sample) rfl fun _ => trivial

theorem setsUp_undergoes {p q : Pool} {id : EntityId} (spawned : p.spawn? = some (id, q))
    (f : Fields → Fields) : p.Undergoes ((q.modifyFields id f).setUp id).value.2 :=
  (Undergoes.refl p).useNew spawned f (.setUp id) rfl fun ready => ready

theorem allows_undergoes (p : Pool) {α : Type} (request : Request α) :
    p.Allows Undergoes request := by
  refine allows_of_all (fun classname id q f spawned _ => setsUp_undergoes spawned f) ?_ request
  intro delay id q f think spawned
  exact (Undergoes.refl p).useNew spawned f (.schedule id delay think) rfl fun ready => ready

end Pool

namespace Game

variable {g g' : Game}

theorem Moves.keeps (moves : g.Moves Pool.Undergoes g') : g.Keeps g' :=
  ⟨⟨moves.config, moves.api, moves.level, moves.triggers, fun kind fit => moves.table kind ▸ fit⟩,
    moves.pool⟩

theorem keeps_withTable (g : Game) {kind : VariableKind} {table : VariableTable}
    (fit : (g.table kind).Fit kind → table.Fit kind) : g.Keeps (g.withTable kind table) := by
  refine ⟨⟨?_, ?_, ?_, ?_, fun other held => ?_⟩, ?_⟩
  · cases kind <;> rfl
  · cases kind <;> rfl
  · cases kind <;> rfl
  · cases kind <;> rfl
  · cases kind <;> cases other <;> first | exact fit held | exact held
  · cases kind <;> exact .refl _

theorem keeps_assignVariable (kind : VariableKind) (name : String) (d : Datum) (g : Game) :
    g.Keeps (assignVariable kind name d g).2 := by
  rcases assignVariable_cases kind name d g with ⟨e, refused⟩ | ⟨value, table, -, written, done⟩
  · rw [refused]
    exact .refl g
  · rw [done]
    exact keeps_withTable g fun fit => fit.set written

end Game

namespace Engine

open Game

def UsageKeeps (usage : Usage) : Prop :=
  ∀ ⦃event : UseEvent⦄ ⦃engine next : Engine⦄,
    usage event engine = some next → engine.state.Keeps next.state

theorem answer_keeps {usage : Usage} {α : Type} {request : Request α} {engine next : Engine}
    {answer : α} (unused : used? request engine = none)
    (performed : perform usage request engine = some (answer, next)) :
    engine.state.Keeps next.state := by
  have allows := Pool.allows_undergoes engine.state.pool request
  cases request with
  | setVariable kind name d =>
    cases performed
    exact keeps_assignVariable kind name d engine.state
  | _ => exact (moves_perform Pool.covers_undergoes rfl unused allows performed).keeps

theorem perform_keeps {usage : Usage} (uses : UsageKeeps usage) {α : Type} (request : Request α)
    {engine next : Engine} {answer : α}
    (performed : perform usage request engine = some (answer, next)) :
    engine.state.Keeps next.state := by
  cases used : used? request engine with
  | some event => exact uses (perform_used used performed)
  | none => exact answer_keeps used performed

/-- A routine keeps what the uses of its triggers keep. -/
theorem kept_perform {usage : Usage} (uses : UsageKeeps usage) (g : Game) :
    Routine.Kept (perform usage) fun engine : Engine => g.Keeps engine.state where
  access _ _ keeps := keeps
  ask request _ _ _ keeps performed := keeps.trans (perform_keeps uses request performed)

theorem run_keeps {usage : Usage} (uses : UsageKeeps usage) {limits : Limits} {routine : Routine}
    {engine last : Engine} {outcome : Routine.Outcome}
    (ran : routine.run limits (perform usage) engine = some (outcome, last)) :
    engine.state.Keeps last.state :=
  Routine.runWith_keeps (kept_perform uses engine.state) limits.turns (.refl _) ran

/-! ### Uses -/

theorem callScript_keeps (limits : Limits) {usage : Usage} (uses : UsageKeeps usage)
    (callee : Callee) (label name : String) :
    UsageKeeps (callScript limits usage callee label name) := by
  intro event engine next called
  obtain ⟨g, heap⟩ := engine
  simp only [callScript] at called
  split at called
  · cases called
  · rename_i outcome after heap' ran
    cases called
    have body := run_keeps uses ran
    cases outcome with
    | ok values => exact body.pop _
    | error e => exact (body.note ..).pop _

theorem useScript_keeps (limits : Limits) {usage : Usage} (uses : UsageKeeps usage) :
    UsageKeeps (useScript limits usage) := by
  intro event engine next used
  obtain ⟨g, heap⟩ := engine
  unfold useScript at used
  split at used
  · cases used
    exact .refl _
  dsimp only at used
  split at used
  · cases used
    exact (Keeps.refl g).note ..
  · cases used
    exact (Keeps.refl g).note ..
  split at used
  · exact callScript_keeps limits uses _ _ _ used
  · cases used
    exact (Keeps.refl g).note ..
  · cases used
    exact (Keeps.refl g).note ..

theorem useEach_keeps {usage : Usage} (uses : UsageKeeps usage) (other activator : Option EntityId)
    {handles : List Handle} {engine next : Engine}
    (used : useEach usage other activator handles engine = some next) :
    engine.state.Keeps next.state := by
  induction handles generalizing engine with
  | nil =>
    cases used
    exact .refl _
  | cons h rest ih =>
    unfold useEach at used
    split at used
    · exact ih used
    · split at used
      · rename_i first
        exact (uses first).trans (ih used)
      · cases used

/-- Whatever happens while an entity is used, the level and the trigger stack are what they were
when it has been used, and the pool has changed by operations on it. -/
theorem useWithin_keeps (limits : Limits) (depth : Nat) : UsageKeeps (useWithin limits depth) := by
  induction depth with
  | zero =>
    intro event engine next used
    cases used
  | succ depth ih =>
    intro event engine next used
    unfold useWithin at used
    split at used
    · cases used
      exact (Keeps.refl _).note ..
    · exact useScript_keeps limits ih used
    · exact useEach_keeps ih _ _ used
    · cases used
      exact (Keeps.refl _).withPool ((Pool.Undergoes.refl _).runCallback _)

theorem fire_keeps {usage : Usage} (uses : UsageKeeps usage) (helper : EntityId) (think : Think)
    {engine next : Engine} (fired : fire usage helper think engine = some next) :
    engine.state.Keeps next.state := by
  cases think with
  | trigger target activator =>
    simp only [fire] at fired
    split at fired
    · cases fired
      exact (Keeps.refl _).note ..
    split at fired
    · exact uses fired
    · cases fired
      exact (Keeps.refl _).note ..
  | kill target =>
    simp only [fire] at fired
    split at fired
    · cases fired
      exact (Keeps.refl _).note ..
    · cases fired
      exact (Keeps.refl _).withPool ((Pool.Undergoes.refl _).kill _)
  | message target =>
    simp only [fire] at fired
    split at fired
    · cases fired
      exact (Keeps.refl _).note ..
    · cases fired
      exact (moves_announce Pool.covers_undergoes ..).keeps
    · cases fired
      exact .refl _

theorem retire_keeps (helper : Handle) (engine : Engine) :
    engine.state.Keeps (retire helper engine).state := by
  simp only [retire, update]
  split
  · exact (Keeps.refl _).withPool ((Pool.Undergoes.refl _).free _)
  · exact .refl _

theorem fireDue_persists {usage : Usage} (uses : UsageKeeps usage) {count : Nat}
    {engine next : Engine} (fired : fireDue usage count engine = some next) :
    engine.state.Persists next.state := by
  induction count generalizing engine with
  | zero => cases fired
  | succ count ih =>
    unfold fireDue at fired
    split at fired
    · cases fired
      exact .refl _
    · rename_i helper think pool taken
      dsimp only at fired
      split at fired
      · rename_i after action
        have took : engine.state.Persists (engine.update fun g => { g with pool }).state :=
          (Persists.refl _).setPool ((Pool.Reaches.refl _).takeDue? taken)
        exact ((took.trans (fire_keeps uses helper think action).persists).trans
          (retire_keeps _ after).persists).trans (ih fired)
      · cases fired

theorem advance_persists (limits : Limits) (seconds : Single) {engine next : Engine}
    (advanced : advance limits seconds engine = some next) : engine.state.Persists next.state :=
  ((Persists.refl _).setPool ((Pool.Reaches.refl _).apply (.advance seconds))).trans
    (fireDue_persists (useWithin_keeps limits limits.nesting) advanced)

end Engine

end EntityScripting
