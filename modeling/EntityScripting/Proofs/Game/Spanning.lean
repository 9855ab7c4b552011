import EntityScripting.Proofs.Game.Calls

/-!
# Pools along a session

A relation of pools that leads over what requests, native callbacks, the clock and delayed actions do
leads over every command of the host that is no operation of its own on the pool (`spans_obey`), and
over all that happens meanwhile (`endures_spans`).
-/

namespace EntityScripting

open Number Script

namespace Pool

/-- Whether a relation of pools leads over all that is done to them but by the host. -/
structure Spans (Step : Pool → Pool → Prop) : Prop extends Covers Step where
  setsUp : ∀ {p q : Pool} {id : EntityId}, p.spawn? = some (id, q) → ∀ f : Fields → Fields,
    Step p ((q.modifyFields id f).setUp id).value.2
  schedules : ∀ {p q : Pool} {id : EntityId}, p.spawn? = some (id, q) →
    ∀ (f : Fields → Fields) (delay : Single) (think : Think),
      Step p ((q.modifyFields id f).schedule id delay think)
  advance : ∀ (p : Pool) (seconds : Single), Step p (p.advance seconds)
  takeDue? : ∀ {p q : Pool} {id : EntityId} {think : Think},
    p.takeDue? = some (id, think, q) → Step p q

variable {Step : Pool → Pool → Prop}

theorem Spans.allows (spans : Spans Step) (p : Pool) {α : Type} (request : Request α) :
    p.Allows Step request := by
  refine allows_of_all ?_ ?_ request
  · intro _ id q f spawned _
    exact spans.setsUp spawned f
  · intro delay id q f think spawned
    exact spans.schedules spawned f delay think

end Pool

namespace Engine

variable {Step : Pool → Pool → Prop} {limits : Limits} {engine next : Engine}

theorem endures_spans (spans : Pool.Spans Step) (p : Pool) :
    Endures fun engine => Step p engine.state.pool where
  quiet quiet step := spans.trans step (spans.barely quiet.pool)
  access _ _ step := step
  answer request engine next _ unused performed step := by
    refine spans.trans step ?_
    have allows := spans.allows engine.state.pool request
    cases request with
    | setVariable kind name d =>
      cases performed
      rcases Game.assignVariable_cases kind name d engine.state with ⟨e, refused⟩ |
        ⟨value, table, -, -, done⟩
      · rw [refused]
        exact spans.refl _
      · rw [done, Game.pool_withTable]
        exact spans.refl _
    | _ => exact (moves_perform spans.toCovers rfl unused allows performed).pool
  clock seconds step := spans.trans step (spans.advance _ seconds)
  take taken step := spans.trans step (spans.takeDue? taken)
  start _ _ step := step
  clear step := step
  named _ _ step := step
  shut _ step := step

theorem pool_settle_load (g : Game) (saved : SavedVariables) :
    (settle g (g.load saved)).pool = g.pool := by
  cases loaded : g.load saved with
  | ok g' =>
    obtain ⟨_, _, -, -, rfl⟩ := Game.load_eq_ok loaded
    rfl
  | error => rfl

theorem pool_settle_withTable {ε : Type} (g : Game) (kind : VariableKind)
    (result : Except ε VariableTable) :
    (settle g (result.map (g.withTable kind))).pool = g.pool := by
  cases result with
  | ok table => exact Game.pool_withTable g kind table
  | error => rfl

/-- A command is an operation on the pool, or it does what the relation leads over. -/
theorem spans_obey (spans : Pool.Spans Step) {command : Command}
    (operated : ∀ op, command = .pool op → Step engine.state.pool (engine.state.pool.apply op))
    (obeyed : engine.obey limits command = some next) :
    Step engine.state.pool next.state.pool := by
  have same {g : Game} (kept : g.pool = engine.state.pool) : Step engine.state.pool g.pool := by
    rw [kept]
    exact spans.refl _
  have endures := endures_spans spans engine.state.pool
  refine obey_endures endures (spans.refl _) (fun service obeyed => ?_) obeyed
  cases command with
  | loadSource | loadFile | use | advance => cases service
  | placeEntity spec =>
    cases obeyed
    exact (Game.moves_placeEntity spans.toCovers spec fun _ _ f spawned =>
      spans.setsUp spawned f).pool
  | pool op =>
    cases obeyed
    exact operated op rfl
  | setVariable kind name value =>
    cases obeyed
    exact same (pool_settle_withTable ..)
  | restore kind saved =>
    cases obeyed
    exact same (pool_settle_withTable ..)
  | load saved =>
    cases obeyed
    exact same (pool_settle_load ..)
  | clearGame | intern =>
    cases obeyed
    exact spans.refl _

end Engine

end EntityScripting
