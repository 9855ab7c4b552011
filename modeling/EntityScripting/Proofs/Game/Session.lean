import EntityScripting.Game.Level
import EntityScripting.Game.MapEntity
import EntityScripting.Proofs.Game.Use

/-!
# Sessions

All that a host can have an engine do, and the engines that come of it. A session ends only by the
limits: a command that fails leaves an engine too.
-/

namespace EntityScripting

open Number Script

namespace Game

theorem keeps_placeEntity (spec : EntitySpec) (g : Game) : g.Keeps (placeEntity spec g).2 :=
  (moves_placeEntity Pool.covers_undergoes spec fun _ _ f spawned =>
    Pool.setsUp_undergoes spawned f).keeps

end Game

namespace Engine

inductive Command where
  | loadSource (level source : String)
  | loadFile (level : String) (content : Except FileError String)
  | use (event : UseEvent)
  | advance (seconds : Single)
  | placeEntity (spec : EntitySpec)
  | setVariable (kind : VariableKind) (name : String) (value : Option ScriptValue)
  | restore (kind : VariableKind) (saved : SortedMap String String)
  | load (saved : SavedVariables)
  | clearGame
  | intern (text : String)
  | pool (op : Pool.Operation)

/-- The game that an operation leaves, which is the game before if it is refused. -/
def settle {ε : Type} (g : Game) (result : Except ε Game) : Game :=
  match result with
  | .ok g => g
  | .error _ => g

/-- The engine after a command; none if the limits did not suffice. -/
def obey (limits : Limits) (engine : Engine) : Command → Option Engine
  | .loadSource level source => (engine.loadSource limits level source).map (·.2)
  | .loadFile level content => (engine.loadFile limits level content).map (·.2)
  | .use event => use limits event engine
  | .advance seconds => advance limits seconds engine
  | .placeEntity spec => some (engine.update fun g => (g.placeEntity spec).2)
  | .setVariable kind name value =>
    some (engine.update fun g => settle g (g.setVariable kind name value))
  | .restore kind saved => some (engine.update fun g => settle g (g.restore kind saved))
  | .load saved => some (engine.update fun g => settle g (g.load saved))
  | .clearGame => some (engine.update Game.clearGame)
  | .intern text => some (engine.update fun g => g.intern text)
  | .pool op => some (engine.update fun g => { g with pool := g.pool.apply op })

inductive Reachable (limits : Limits) : Engine → Prop where
  | new (config : ScriptConfig) (seed : Nat) : Reachable limits (Engine.new config seed)
  | obey {engine next : Engine} (command : Command) :
    Reachable limits engine → engine.obey limits command = some next → Reachable limits next

theorem runLevel_keeps {limits : Limits} {level : String} {code : FunctionBody}
    {engine next : Engine} {result : Except Cause StoreId}
    (ran : runLevel limits level code engine = some (result, next)) :
    engine.state.Keeps next.state := by
  obtain ⟨g, heap⟩ := engine
  simp only [runLevel] at ran
  split at ran
  · cases ran
  · rename_i ended
    cases ran
    have keeps := run_keeps (useWithin_keeps limits limits.nesting) ended
    exact keeps
  · rename_i ended
    cases ran
    have keeps := run_keeps (useWithin_keeps limits limits.nesting) ended
    exact keeps

/-- A load keeps all but the level, once what lasts for a level is cleared. -/
theorem loadSource_keeps {limits : Limits} {level source : String} {engine next : Engine}
    {result : Except LoadError Unit}
    (loaded : loadSource limits level source engine = some (result, next)) :
    engine.state.clearLevel.Keeps { next.state with level := none } := by
  simp only [loadSource] at loaded
  split at loaded
  · cases loaded
    exact (Game.Keeps.refl _).note ..
  · split at loaded
    · cases loaded
    · rename_i ran
      cases loaded
      have keeps := runLevel_keeps ran
      exact ⟨⟨keeps.config, keeps.api, rfl, keeps.triggers, keeps.tables⟩, keeps.pool⟩
    · rename_i ran
      cases loaded
      have keeps := runLevel_keeps ran
      exact ⟨⟨keeps.config, keeps.api, rfl, keeps.triggers, keeps.tables⟩, keeps.pool⟩

theorem loadFile_keeps {limits : Limits} {level : String} {content : Except FileError String}
    {engine next : Engine} {result : Except LoadError Unit}
    (loaded : loadFile limits level content engine = some (result, next)) :
    engine.state.clearLevel.Keeps { next.state with level := none } := by
  unfold loadFile at loaded
  split at loaded
  · exact loadSource_keeps loaded
  · cases loaded
    exact (Game.Keeps.refl _).note ..

end Engine

namespace Game

structure Serves (g g' : Game) : Prop where
  config : g'.config = g.config
  api : g'.api = g.api
  tables : ∀ kind, (g.table kind).Fit kind → (g'.table kind).Fit kind
  triggers : g.triggers = {} → g'.triggers = {}
  pool : g.pool.Undergoes g'.pool

variable {g g' : Game}

theorem Keeps.serves (keeps : g.Keeps g') : g.Serves g' :=
  ⟨keeps.config, keeps.api, keeps.tables, keeps.triggers.trans, keeps.pool⟩

theorem fit_clearLevel {kind : VariableKind} (fit : (g.table kind).Fit kind) :
    (g.clearLevel.table kind).Fit kind := by
  cases kind with
  | level => exact fit.clear
  | persistent => exact fit

theorem fit_clearGame {kind : VariableKind} (fit : (g.table kind).Fit kind) :
    (g.clearGame.table kind).Fit kind := by
  cases kind with
  | level => exact fit
  | persistent => exact fit.clear

/-- A level is loaded in the place of the one before. -/
theorem Keeps.serves_clearLevel (keeps : g.clearLevel.Keeps { g' with level := none }) :
    g.Serves g' where
  config := keeps.config
  api := keeps.api
  tables kind fit := keeps.tables kind (fit_clearLevel fit)
  triggers _ := keeps.triggers
  pool := keeps.pool

theorem load_eq_ok {saved : SavedVariables} (loaded : g.load saved = .ok g') :
    ∃ vars persistent, VariableTable.decode .level g.pool saved.vars = .ok vars ∧
      VariableTable.decode .persistent g.pool saved.persistent = .ok persistent ∧
      g' = { g with vars, persistent } := by
  unfold load at loaded
  cases vars : VariableTable.decode .level g.pool saved.vars with
  | error e =>
    rw [vars] at loaded
    cases loaded
  | ok level =>
    cases persistent : VariableTable.decode .persistent g.pool saved.persistent with
    | error e =>
      rw [vars, persistent] at loaded
      cases loaded
    | ok lasting =>
      rw [vars, persistent] at loaded
      cases loaded
      exact ⟨level, lasting, rfl, rfl, rfl⟩

theorem keeps_load {saved : SavedVariables} (loaded : g.load saved = .ok g') : g.Keeps g' := by
  obtain ⟨level, lasting, vars, persistent, rfl⟩ := load_eq_ok loaded
  refine ⟨⟨rfl, rfl, rfl, rfl, fun kind _ => ?_⟩, .refl _⟩
  cases kind with
  | level => exact .decode vars
  | persistent => exact .decode persistent

end Game

namespace Engine

theorem keeps_settle {ε : Type} {g : Game} {result : Except ε Game}
    (keeps : ∀ g', result = .ok g' → g.Keeps g') : g.Keeps (settle g result) := by
  cases result with
  | ok g' => exact keeps g' rfl
  | error => exact .refl g

theorem keeps_settle_withTable {ε : Type} {g : Game} {kind : VariableKind}
    {result : Except ε VariableTable}
    (fit : ∀ table, result = .ok table → (g.table kind).Fit kind → table.Fit kind) :
    g.Keeps (settle g (result.map (g.withTable kind))) := by
  cases result with
  | ok table => exact g.keeps_withTable (fit table rfl)
  | error => exact .refl g

/-- Every command moves the clock, operates on the pool, or is a service. -/
theorem obey_cases {limits : Limits} {engine next : Engine} {command : Command}
    (obeyed : engine.obey limits command = some next) :
    (∃ seconds, command = .advance seconds ∧ advance limits seconds engine = some next) ∨
      (∃ op, command = .pool op ∧
        next = engine.update fun g => { g with pool := g.pool.apply op }) ∨
      engine.state.Serves next.state := by
  cases command with
  | advance seconds => exact .inl ⟨seconds, rfl, obeyed⟩
  | pool op => exact .inr (.inl ⟨op, rfl, (Option.some.inj obeyed).symm⟩)
  | loadSource level source =>
    obtain ⟨result, loaded, rfl⟩ := Option.map_eq_some_iff.mp obeyed
    exact .inr (.inr (loadSource_keeps loaded).serves_clearLevel)
  | loadFile level content =>
    obtain ⟨result, loaded, rfl⟩ := Option.map_eq_some_iff.mp obeyed
    exact .inr (.inr (loadFile_keeps loaded).serves_clearLevel)
  | use event => exact .inr (.inr (useWithin_keeps limits limits.nesting obeyed).serves)
  | placeEntity spec =>
    cases obeyed
    exact .inr (.inr (engine.state.keeps_placeEntity spec).serves)
  | setVariable kind name value =>
    cases obeyed
    exact .inr (.inr (keeps_settle_withTable fun _ written fit => fit.set written).serves)
  | restore kind saved =>
    cases obeyed
    exact .inr (.inr (keeps_settle_withTable fun _ read fit => fit.restore read).serves)
  | load saved =>
    cases obeyed
    exact .inr (.inr (keeps_settle fun _ loaded => Game.keeps_load loaded).serves)
  | clearGame =>
    cases obeyed
    exact .inr (.inr ⟨rfl, rfl, fun _ => Game.fit_clearGame, fun idle => idle, .refl _⟩)
  | intern text =>
    cases obeyed
    have moves := (Game.Moves.refl Pool.covers_undergoes engine.state).intern text
    exact .inr (.inr moves.keeps.serves)

/-! ### Sessions -/

/-- What holds between any two engines of a session. -/
structure Follows (engine next : Engine) : Prop where
  config : next.state.config = engine.state.config
  api : next.state.api = engine.state.api
  tables : ∀ kind, (engine.state.table kind).Fit kind → (next.state.table kind).Fit kind
  triggers : engine.state.triggers = {} → next.state.triggers = {}
  pool : engine.state.pool.Reaches next.state.pool

theorem follows_obey {limits : Limits} {engine next : Engine} {command : Command}
    (obeyed : engine.obey limits command = some next) : engine.Follows next := by
  rcases obey_cases obeyed with ⟨seconds, -, advanced⟩ | ⟨op, -, rfl⟩ | serves
  · have persists := advance_persists limits seconds advanced
    exact ⟨persists.config, persists.api, persists.tables, persists.triggers.trans, persists.pool⟩
  · exact ⟨rfl, rfl, fun _ fit => fit, fun idle => idle, (Pool.Reaches.refl _).apply op⟩
  · exact ⟨serves.config, serves.api, serves.tables, serves.triggers, serves.pool.reaches⟩

structure Sound (engine : Engine) : Prop where
  tables : ∀ kind, (engine.state.table kind).Fit kind
  triggers : engine.state.triggers = {}
  pool : (Pool.new engine.state.config.pool).Reaches engine.state.pool

theorem Sound.follows {engine next : Engine} (sound : engine.Sound)
    (follows : engine.Follows next) : next.Sound where
  tables kind := follows.tables kind (sound.tables kind)
  triggers := follows.triggers sound.triggers
  pool := follows.config ▸ sound.pool.trans follows.pool

theorem Reachable.sound {limits : Limits} {engine : Engine}
    (reachable : Reachable limits engine) : engine.Sound := by
  induction reachable with
  | new config seed =>
    refine ⟨fun kind => ?_, rfl, .refl _⟩
    cases kind <;> exact .empty _
  | obey _ _ obeyed ih => exact ih.follows (follows_obey obeyed)

theorem Reachable.obeyAll {limits : Limits} {commands : List Command} {engine last : Engine}
    (reachable : Reachable limits engine)
    (obeyed : commands.foldlM (Engine.obey limits) engine = some last) : Reachable limits last := by
  induction commands generalizing engine with
  | nil =>
    cases obeyed
    exact reachable
  | cons command rest ih =>
    rw [List.foldlM_cons] at obeyed
    obtain ⟨next, first, later⟩ := Option.bind_eq_some_iff.mp obeyed
    exact ih (.obey command reachable first) later

/-- No level function is under way between two commands. -/
theorem Reachable.triggers {limits : Limits} {engine : Engine}
    (reachable : Reachable limits engine) : engine.state.triggers = {} := reachable.sound.triggers

inductive Leads (limits : Limits) (engine : Engine) : Engine → Prop where
  | refl : Leads limits engine engine
  | obey {later next : Engine} (command : Command) :
    Leads limits engine later → later.obey limits command = some next → Leads limits engine next

theorem Leads.follows {limits : Limits} {engine later : Engine}
    (leads : Leads limits engine later) : engine.Follows later := by
  induction leads with
  | refl => exact ⟨rfl, rfl, fun _ fit => fit, fun idle => idle, .refl _⟩
  | obey _ _ obeyed ih =>
    have step := follows_obey obeyed
    exact ⟨step.config.trans ih.config, step.api.trans ih.api,
      fun kind fit => step.tables kind (ih.tables kind fit),
      step.triggers ∘ ih.triggers, ih.pool.trans step.pool⟩

end Engine

end EntityScripting
