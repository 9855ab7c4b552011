import EntityScripting.Proofs.Game.Trace
import EntityScripting.Proofs.Variable.History

/-!
# Variables over a session

The two tables of variables are what has been done to them makes of them, however the writes of the
host, of scripts and of saved games follow one another, and whichever loads of levels fail
(`variables_history`).
-/

namespace EntityScripting

open Number Script

namespace Game

variable {g g' : Game}

theorem table_withTable (g : Game) (kind other : VariableKind) (table : VariableTable) :
    (g.withTable kind table).table other = if other = kind then table else g.table other := by
  cases kind <;> cases other <;> rfl

def anywhere (_ _ : Pool) : Prop := True

theorem covers_anywhere : Pool.Covers anywhere := by
  constructor <;> intros <;> trivial

/-- Whether the tables are afterwards what changes make of them; a table that no change is for is
the same table. -/
structure Replays (g : Game) (changes : List Change) (g' : Game) : Prop where
  values : ∀ kind name, (g'.table kind).get? name =
    latest kind name ((g.table kind).get? name) changes
  frame : ∀ kind, (∀ change ∈ changes, change.kind ≠ kind) → g'.table kind = g.table kind

theorem Replays.nothing (same : ∀ kind, g'.table kind = g.table kind) : g.Replays [] g' :=
  ⟨fun kind name => by rw [same kind]; rfl, fun kind _ => same kind⟩

theorem Replays.trans {g'' : Game} {first second : List Change} (before : g.Replays first g')
    (after : g'.Replays second g'') : g.Replays (first ++ second) g'' where
  values kind name := by rw [latest_append, after.values, before.values]
  frame kind apart := by
    have later := after.frame kind fun change member =>
      apart change (List.mem_append_right _ member)
    have earlier := before.frame kind fun change member =>
      apart change (List.mem_append_left _ member)
    exact later.trans earlier

theorem replays_withTable {kind : VariableKind} {table : VariableTable} {changes : List Change}
    (kinds : ∀ change ∈ changes, change.kind = kind)
    (idle : changes = [] → table = g.table kind)
    (values : ∀ name, table.get? name = latest kind name ((g.table kind).get? name) changes) :
    g.Replays changes (g.withTable kind table) where
  values other name := by
    rw [table_withTable]
    split
    · rename_i same
      rw [same, values]
    · rename_i apart
      refine (latest_of_not_concerns fun change member => ?_).symm
      refine Change.concerns_of_kind_ne ?_ name
      rw [kinds change member]
      exact Ne.symm apart
  frame other apart := by
    rw [table_withTable]
    split
    · rename_i same
      subst same
      cases changes with
      | nil => exact idle rfl
      | cons change rest =>
        exact absurd (kinds change List.mem_cons_self) (apart change List.mem_cons_self)
    · rfl

theorem replays_setVariable {kind : VariableKind} {name : String} {value : Option ScriptValue}
    (written : g.setVariable kind name value = .ok g') : g.Replays [.write kind name value] g' := by
  unfold setVariable at written
  cases set : (g.table kind).set name value with
  | error e =>
    rw [set] at written
    cases written
  | ok table =>
    rw [set] at written
    cases written
    exact replays_withTable (by simp [Change.kind]) (fun none => by cases none)
      fun key => VariableTable.get?_set set key kind

theorem replays_clear (g : Game) (kind : VariableKind) :
    g.Replays [.clear kind] (g.withTable kind (g.table kind).clear) :=
  replays_withTable (by simp [Change.kind]) (fun none => by cases none) fun name => by
    rw [latest_singleton, if_pos (by simp [Change.concerns])]
    rfl

theorem kind_of_mem_writes {kind : VariableKind} {table : VariableTable} {change : Change}
    (member : change ∈ Change.writes kind table) : change.kind = kind := by
  obtain ⟨entry, -, rfl⟩ := List.mem_map.mp member
  rfl

theorem replays_absorb (g : Game) (kind : VariableKind) (table : VariableTable) :
    g.Replays (Change.writes kind table) (g.withTable kind ((g.table kind).absorb table)) := by
  refine replays_withTable (fun change => kind_of_mem_writes) (fun none => ?_)
    fun name => VariableTable.get?_absorb _ table name kind
  have empty : table.entries.entries = [] := List.map_eq_nil_iff.mp none
  simp only [VariableTable.absorb, SortedMap.union, empty, List.foldl_nil]

/-- A table that takes the place of an empty one is its own entries. -/
theorem replays_fill {kind : VariableKind} {table : VariableTable} (fit : table.Fit kind)
    (empty : g.table kind = { kind }) :
    g.Replays (Change.writes kind table) (g.withTable kind table) := by
  refine replays_withTable (fun change => kind_of_mem_writes) (fun none => ?_) fun name => ?_
  · obtain ⟨_, ⟨entries⟩⟩ := table
    obtain rfl : entries = [] := List.map_eq_nil_iff.mp none
    rw [empty, ← fit.kind_eq]
  · rw [empty]
    exact VariableTable.get?_eq_latest fit.sorted name kind

theorem replays_load (fit : ∀ kind, (g.table kind).Fit kind) {vars persistent : VariableTable}
    (level : vars.Fit .level) (lasting : persistent.Fit .persistent) :
    g.Replays (.clear .level :: .clear .persistent ::
        (Change.writes .level vars ++ Change.writes .persistent persistent))
      { g with vars, persistent } := by
  have emptied (kind : VariableKind) : (g.table kind).clear = { kind } := by
    simp only [VariableTable.clear, (fit kind).kind_eq]
  -- Both tables are emptied first and then filled, each without a change to the other.
  let g₁ := g.withTable .level (g.table .level).clear
  let g₂ := g₁.withTable .persistent (g₁.table .persistent).clear
  have cleared : g.Replays [.clear .level, .clear .persistent] g₂ :=
    (g.replays_clear .level).trans (g₁.replays_clear .persistent)
  have filled : g₂.Replays (Change.writes .level vars) (g₂.withTable .level vars) :=
    replays_fill level (emptied .level)
  have whole : (g₂.withTable .level vars).Replays (Change.writes .persistent persistent)
      ((g₂.withTable .level vars).withTable .persistent persistent) :=
    replays_fill lasting (emptied .persistent)
  exact cleared.trans (filled.trans whole)

end Game

namespace Engine

/-! ### Changes -/

def written? : Happening Game → Option Change
  | .ask (.setVariable kind name d) engine =>
    match d.forVariable kind with
    | .error _ => none
    | .ok value =>
      match engine.state.setVariable kind name value with
      | .error _ => none
      | .ok _ => some (.write kind name value)
  | _ => none

/-- The changes that a command makes. A level that is loaded ends all names of its kind, and then
there are the writes of its own script; nothing else runs meanwhile. -/
def changes (limits : Limits) (engine : Engine) : Command → List Change
  | .setVariable kind name value =>
    match engine.state.setVariable kind name value with
    | .ok _ => [.write kind name value]
    | .error _ => []
  | .restore kind saved =>
    match VariableTable.decode kind engine.state.pool saved with
    | .ok table => Change.writes kind table
    | .error _ => []
  | .load saved =>
    match VariableTable.decode .level engine.state.pool saved.vars,
      VariableTable.decode .persistent engine.state.pool saved.persistent with
    | .ok vars, .ok persistent =>
      .clear .level :: .clear .persistent ::
        (Change.writes .level vars ++ Change.writes .persistent persistent)
    | _, _ => []
  | .clearGame => [.clear .persistent]
  | .loadSource level source | .loadFile level (.ok source) =>
    .clear .level :: (loadTrace limits (fun _ _ => []) level source engine).filterMap written?
  | .loadFile _ (.error _) => [.clear .level]
  | .use event => (useTrace limits limits.nesting event engine).filterMap written?
  | .advance seconds =>
    (fireTrace limits limits.steps
      (engine.update fun g => { g with pool := g.pool.advance seconds })).filterMap written?
  | .placeEntity _ | .intern _ | .pool _ => []

def history (limits : Limits) : Engine → List Command → List Change
  | _, [] => []
  | engine, command :: rest =>
    changes limits engine command ++
      match engine.obey limits command with
      | some next => history limits next rest
      | none => []

variable {engine next last : Engine}

theorem replays_perform {usage : Usage} {α : Type} {request : Request α} {answer : α}
    (none : used? request engine = none)
    (performed : perform usage request engine = some (answer, next)) :
    engine.state.Replays ([Happening.ask request engine].filterMap written?) next.state := by
  have allows : engine.state.pool.Allows Game.anywhere request :=
    Pool.allows_of_all (fun _ _ _ _ _ _ => trivial) (fun _ _ _ _ _ _ => trivial) request
  cases request with
  | setVariable kind name d =>
    obtain ⟨g, heap⟩ := engine
    simp only [perform, Game.assignVariable] at performed
    simp only [List.filterMap_cons, List.filterMap_nil, written?]
    cases converted : d.forVariable kind with
    | error e =>
      rw [converted] at performed
      cases performed
      exact .nothing fun _ => rfl
    | ok value =>
      rw [converted] at performed
      dsimp only at performed ⊢
      cases written : g.setVariable kind name value with
      | error e =>
        rw [written] at performed
        cases performed
        exact .nothing fun _ => rfl
      | ok g' =>
        rw [written] at performed
        cases performed
        exact Game.replays_setVariable written
  | _ => exact .nothing (moves_perform Game.covers_anywhere rfl none allows performed).table

/-- The tables are what the accepted writes of scripts make of them. -/
theorem accounts_replays :
    Accounts fun engine happenings next =>
      engine.state.Replays (happenings.filterMap written?) next.state where
  quiet quiet := .nothing quiet.table
  append first second := by
    rw [List.filterMap_append]
    exact first.trans second
  access _ _ := .nothing fun _ => rfl
  answer _ _ _ _ none performed := replays_perform none performed
  entrust request _ _ used := by
    cases request with
    | trigger => exact .nothing fun _ => rfl
    | _ => cases used

/-! ### Loading -/

/-- The script of a level writes to the variables by its own requests only. -/
theorem accounts_loading (limits : Limits) :
    Routine.Accounts (perform (use limits)) (fun _ _ => [])
      fun engine happenings next => engine.state.level = none →
        next.state.level = none ∧
          engine.state.Replays (happenings.filterMap written?) next.state where
  nothing _ unloaded := ⟨unloaded, .nothing fun _ => rfl⟩
  append first second unloaded := by
    obtain ⟨unloaded, before⟩ := first unloaded
    obtain ⟨unloaded, after⟩ := second unloaded
    rw [List.filterMap_append]
    exact ⟨unloaded, before.trans after⟩
  access _ _ unloaded := ⟨unloaded, .nothing fun _ => rfl⟩
  ask request engine next _ performed unloaded := by
    have keeps := perform_keeps (useWithin_keeps limits limits.nesting) request performed
    refine ⟨keeps.level.trans unloaded, ?_⟩
    cases used : used? request engine with
    | none => exact replays_perform used performed
    | some event =>
      have within :=
        useWithin_accounts accounts_replays limits.nesting (perform_used used performed)
      -- The use runs no script, since no level is loaded until this one has been.
      rw [useTrace_unloaded limits limits.nesting unloaded] at within
      have begun := (accounts_replays.entrust request used).trans within
      rwa [List.filterMap_nil, List.append_nil] at begun

theorem replays_runLevel {limits : Limits} {level : String} {code : FunctionBody}
    {result : Except Cause StoreId} (unloaded : engine.state.level = none)
    (ran : runLevel limits level code engine = some (result, next)) :
    engine.state.Replays
      ((levelTrace limits (fun _ _ => []) level code engine).filterMap written?) next.state := by
  obtain ⟨g, heap⟩ := engine
  simp only [runLevel] at ran
  split at ran
  · cases ran
  · rename_i ended
    cases ran
    exact (Routine.runWith_accounts (accounts_loading limits) limits.turns ended unloaded).2
  · rename_i ended
    cases ran
    exact (Routine.runWith_accounts (accounts_loading limits) limits.turns ended unloaded).2

theorem replays_loadSource {limits : Limits} {level source : String}
    {result : Except LoadError Unit}
    (loaded : loadSource limits level source engine = some (result, next)) :
    engine.state.Replays (.clear .level ::
      (loadTrace limits (fun _ _ => []) level source engine).filterMap written?) next.state := by
  have cleared := engine.state.replays_clear .level
  have begun : engine.state.Replays [.clear .level] (engine.update Game.clearLevel).state :=
    ⟨cleared.values, cleared.frame⟩
  simp only [loadSource] at loaded
  unfold loadTrace
  split at loaded
  · rename_i unread
    cases loaded
    rw [unread]
    exact ⟨begun.values, begun.frame⟩
  · rename_i code read
    rw [read]
    split at loaded
    · cases loaded
    · rename_i ran
      cases loaded
      have whole := begun.trans (replays_runLevel rfl ran)
      exact ⟨whole.values, whole.frame⟩
    · rename_i ran
      cases loaded
      have whole := begun.trans (replays_runLevel rfl ran)
      exact ⟨whole.values, whole.frame⟩

/-- What a command does to the tables is what its changes make of them. -/
theorem replays_obey {limits : Limits} {command : Command}
    (fit : ∀ kind, (engine.state.table kind).Fit kind)
    (obeyed : engine.obey limits command = some next) :
    engine.state.Replays (changes limits engine command) next.state := by
  cases command with
  | loadSource level source =>
    obtain ⟨⟨result, last⟩, loaded, rfl⟩ := Option.map_eq_some_iff.mp obeyed
    exact replays_loadSource loaded
  | loadFile level content =>
    obtain ⟨⟨result, last⟩, loaded, rfl⟩ := Option.map_eq_some_iff.mp obeyed
    cases content with
    | ok source => exact replays_loadSource loaded
    | error e =>
      cases loaded
      have cleared := engine.state.replays_clear .level
      exact ⟨cleared.values, cleared.frame⟩
  | use event => exact useWithin_accounts accounts_replays limits.nesting obeyed
  | advance seconds =>
    have moved := fireDue_accounts accounts_replays (fun _ => .nothing fun _ => rfl) obeyed
    exact ⟨moved.values, moved.frame⟩
  | placeEntity spec =>
    cases obeyed
    have moves : engine.state.Moves Game.anywhere _ :=
      Game.moves_placeEntity Game.covers_anywhere spec fun _ _ _ _ => trivial
    exact .nothing moves.table
  | setVariable kind name value =>
    cases obeyed
    simp only [changes, update]
    cases written : engine.state.setVariable kind name value with
    | error e => exact .nothing fun _ => rfl
    | ok g => exact Game.replays_setVariable written
  | restore kind saved =>
    cases obeyed
    simp only [changes, update, Game.restore, VariableTable.restore, (fit kind).kind_eq]
    cases VariableTable.decode kind engine.state.pool saved with
    | error e => exact .nothing fun _ => rfl
    | ok table => exact engine.state.replays_absorb kind table
  | load saved =>
    cases obeyed
    simp only [changes, update, Game.load]
    cases vars : VariableTable.decode .level engine.state.pool saved.vars with
    | error e => exact .nothing fun _ => rfl
    | ok level =>
      cases persistent : VariableTable.decode .persistent engine.state.pool saved.persistent with
      | error e => exact .nothing fun _ => rfl
      | ok lasting => exact Game.replays_load fit (.decode vars) (.decode persistent)
  | clearGame =>
    cases obeyed
    exact engine.state.replays_clear .persistent
  | intern text =>
    cases obeyed
    exact .nothing ((Game.Moves.refl Game.covers_anywhere _).intern text).table
  | pool op =>
    cases obeyed
    exact .nothing fun _ => rfl

/-- A session makes of the tables what its history makes of them. -/
theorem replays_history {limits : Limits} {commands : List Command}
    (fit : ∀ kind, (engine.state.table kind).Fit kind)
    (obeyed : commands.foldlM (obey limits) engine = some last) :
    engine.state.Replays (history limits engine commands) last.state := by
  induction commands generalizing engine with
  | nil =>
    cases obeyed
    exact .nothing fun _ => rfl
  | cons command rest ih =>
    rw [List.foldlM_cons] at obeyed
    obtain ⟨next, first, later⟩ := Option.bind_eq_some_iff.mp obeyed
    have fit' (kind : VariableKind) := (follows_obey first).tables kind (fit kind)
    simp only [history, first]
    exact (replays_obey fit first).trans (ih fit' later)

/-! ### Sessions -/

def Refuses (engine : Engine) : Command → Prop
  | .setVariable kind name value => ∃ e, engine.state.setVariable kind name value = .error e
  | .restore kind saved => ∃ e, engine.state.restore kind saved = .error e
  | .load saved => ∃ e, engine.state.load saved = .error e
  | _ => False

theorem obey_of_refuses (limits : Limits) {command : Command} (refuses : engine.Refuses command) :
    engine.obey limits command = some engine := by
  cases command with
  | setVariable | restore | load =>
    obtain ⟨e, refused⟩ := refuses
    simp only [obey, update, refused]
    rfl
  | _ => cases refuses

theorem perform_of_refused {usage : Usage} {kind : VariableKind} {name : String} {d : Datum}
    {e : ScriptError}
    (refused : perform usage (.setVariable kind name d) engine = some (.error e, next)) :
    next = engine := by
  obtain ⟨g, heap⟩ := engine
  simp only [perform] at refused
  rcases Game.assignVariable_cases kind name d g with ⟨e, same⟩ | ⟨value, table, -, -, done⟩
  · rw [same] at refused
    cases refused
    rfl
  · rw [done] at refused
    cases refused

theorem isOk_setVariable_iff {g : Game} {kind : VariableKind} (fit : (g.table kind).Fit kind)
    (name : String) (value : Option ScriptValue) :
    (g.setVariable kind name value).isOk = true ↔ value.all kind.allows = true := by
  unfold Game.setVariable VariableTable.set
  rw [fit.kind_eq]
  cases value with
  | none => simp [Except.map, Except.isOk, Except.toBool]
  | some value =>
    dsimp only
    by_cases allowed : kind.allows value = true
    · rw [if_pos allowed]
      simp [Except.map, Except.isOk, Except.toBool, allowed]
    · rw [if_neg allowed]
      simp [Except.map, Except.isOk, Except.toBool, allowed]

/-- For every session, the value of a variable is what the last change says that concerns it, if
there is one: an accepted write of the host, of a script or of a saved game that is put into the
table, or the end of all variables of its kind, which comes with a new level, a new game or a saved
game in the place of both tables. A command whose changes are all of one kind leaves the table of
the other kind as it is, and the load of a level, whether it fails or not, changes what outlasts the
level by the writes of its own script only. A write is accepted if and only if its kind takes the
value, and one that is refused changes nothing. What outlasts a level is never an entity and never a
vector. -/
theorem variables_history (limits : Limits) (config : ScriptConfig) (seed : Nat)
    (commands : List Command)
    (obeyed : commands.foldlM (obey limits) (Engine.new config seed) = some last) :
    (∀ kind name, (last.state.table kind).get? name =
      latest kind name none (history limits (Engine.new config seed) commands)) ∧
    (∀ command next, last.obey limits command = some next → ∀ kind,
      (∀ change ∈ changes limits last command, change.kind ≠ kind) →
      next.state.table kind = last.state.table kind) ∧
    (∀ level source next, last.obey limits (.loadSource level source) = some next → ∀ name,
      (next.state.table .persistent).get? name =
        latest .persistent name ((last.state.table .persistent).get? name)
          ((loadTrace limits (fun _ _ => []) level source last).filterMap written?)) ∧
    (∀ kind name value,
      (last.state.setVariable kind name value).isOk = true ↔ value.all kind.allows = true) ∧
    (∀ command, last.Refuses command → last.obey limits command = some last) ∧
    (∀ usage kind name d e engine next,
      perform usage (.setVariable kind name d) engine = some (.error e, next) → next = engine) ∧
    ∀ name, (∀ h, (last.state.table .persistent).get? name ≠ some (.entity h)) ∧
      ∀ v, (last.state.table .persistent).get? name ≠ some (.vector v) := by
  have fit := (Reachable.obeyAll (.new config seed) obeyed).sound.tables
  refine ⟨fun kind name => ?values, fun command next done kind apart => ?frame,
    fun level source next done name => ?load, fun kind => isOk_setVariable_iff (fit kind),
    fun command => obey_of_refuses limits,
    fun usage kind name d e engine next => perform_of_refused, fun name => ?types⟩
  case values =>
    have begun : ((Engine.new config seed).state.table kind).get? name = none := by
      cases kind <;> rfl
    have fresh : Reachable limits (Engine.new config seed) := .new config seed
    rw [(replays_history fresh.sound.tables obeyed).values, begun]
  case frame => exact (replays_obey fit done).frame kind apart
  case load =>
    have replays := (replays_obey fit done).values .persistent name
    rw [changes, latest_cons] at replays
    simpa [Change.concerns] using replays
  case types =>
    have allowed (value : ScriptValue)
        (held : (last.state.table .persistent).get? name = some value) :
        VariableKind.persistent.allows value = true :=
      (fit .persistent).allowed _ (SortedMap.mem_of_get? held)
    refine ⟨fun h held => ?_, fun v held => ?_⟩
    · cases allowed _ held
    · cases allowed _ held

def scored : List Command :=
  [.setVariable .persistent "score" (some (.integer 5)),
    .loadSource "base1" "script.persistent.score = 6"]

theorem variables_history_scored :
    ∃ last, scored.foldlM (obey ⟨60, 60, 2⟩) (Engine.new {} 1) = some last ∧
      (last.state.table .persistent).get? "score" = some (.integer 6) ∧
      (∃ next, last.obey ⟨60, 60, 2⟩ .clearGame = some next ∧
        next.state.table .level = last.state.table .level) ∧
      (∃ next, last.obey ⟨60, 60, 2⟩ (.loadFile "base2" (.error .notFound)) = some next ∧
        (next.state.table .persistent).get? "score" = some (.integer 6)) ∧
      last.obey ⟨60, 60, 2⟩ (.setVariable .persistent "door" (some (.entity ⟨1, 0⟩))) =
        some last := by
  have plays : (scored.foldlM (obey ⟨60, 60, 2⟩) (Engine.new {} 1)).isSome = true := by
    decide +kernel
  obtain ⟨last, played⟩ := Option.isSome_iff_exists.mp plays
  obtain ⟨values, frame, -, accepted, refused, -, -⟩ := variables_history _ _ _ _ played
  have six : (last.state.table .persistent).get? "score" = some (.integer 6) := by
    rw [values]
    decide +kernel
  refine ⟨last, played, six, ⟨_, rfl, frame .clearGame _ rfl .level ?_⟩,
    ⟨_, rfl, ?_⟩, refused _ ?_⟩
  · simp [changes, Change.kind]
  · have kept := frame (.loadFile "base2" (.error .notFound)) _ rfl .persistent
      (by simp [changes, Change.kind])
    rw [kept]
    exact six
  · have unfit := (accepted .persistent "door" (some (.entity ⟨1, 0⟩))).not.mpr (by decide)
    cases written : last.state.setVariable .persistent "door" (some (.entity ⟨1, 0⟩)) with
    | error e => exact ⟨e, written⟩
    | ok g =>
      rw [written] at unfit
      exact absurd rfl unfit

end Engine

end EntityScripting
