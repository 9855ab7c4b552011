import EntityScripting.Proofs.Game.Calls
import EntityScripting.Proofs.Game.Frame
import EntityScripting.Proofs.Game.GlobalNames

/-!
# The level that is loaded

An engine has a level from the end of a load that succeeds to the beginning of the next. Only in
between is a function called for a script entity, and it is the one that the name of the entity stood
for at the end of that load (`level_state`).
-/

namespace EntityScripting.Engine

open Number Script Heap

def Command.isLoad : Command → Bool
  | .loadSource .. | .loadFile .. => true
  | _ => false

/-- What there is to remember of a load: the name of the level and the engine with it, or nothing. -/
def lastLoad (level : String) : Except LoadError Unit × Engine → Option (String × Engine)
  | (.ok (), loaded) => some (level, loaded)
  | (.error _, _) => none

/-- The engines that a session leads to, each with what there is to remember of the last load. -/
inductive Session (limits : Limits) : Engine → Option (String × Engine) → Prop where
  | new (config : ScriptConfig) (seed : Nat) : Session limits (Engine.new config seed) none
  | loadSource {engine : Engine} {last : Option (String × Engine)} (level source : String)
    {result : Except LoadError Unit × Engine} : Session limits engine last →
    engine.loadSource limits level source = some result →
    Session limits result.2 (lastLoad level result)
  | loadFile {engine : Engine} {last : Option (String × Engine)} (level : String)
    (content : Except FileError String) {result : Except LoadError Unit × Engine} :
    Session limits engine last → engine.loadFile limits level content = some result →
    Session limits result.2 (lastLoad level result)
  | obey {engine next : Engine} {last : Option (String × Engine)} (command : Command) :
    Session limits engine last → command.isLoad = false →
    engine.obey limits command = some next → Session limits next last

theorem Session.reachable {limits : Limits} {engine : Engine} {last : Option (String × Engine)}
    (session : Session limits engine last) : Reachable limits engine := by
  induction session with
  | new config seed => exact .new config seed
  | loadSource level source _ loaded ih =>
    exact ih.obey (.loadSource level source) (Option.map_eq_some_iff.mpr ⟨_, loaded, rfl⟩)
  | loadFile level content _ loaded ih =>
    exact ih.obey (.loadFile level content) (Option.map_eq_some_iff.mpr ⟨_, loaded, rfl⟩)
  | obey command _ _ obeyed ih => exact ih.obey command obeyed

theorem Reachable.session {limits : Limits} {engine : Engine} (reachable : Reachable limits engine) :
    ∃ last, Session limits engine last := by
  induction reachable with
  | new config seed => exact ⟨none, .new config seed⟩
  | obey command _ obeyed ih =>
    obtain ⟨last, session⟩ := ih
    cases command with
    | loadSource level source =>
      obtain ⟨result, loaded, rfl⟩ := Option.map_eq_some_iff.mp obeyed
      exact ⟨_, session.loadSource level source loaded⟩
    | loadFile level content =>
      obtain ⟨result, loaded, rfl⟩ := Option.map_eq_some_iff.mp obeyed
      exact ⟨_, session.loadFile level content loaded⟩
    | _ => exact ⟨last, session.obey _ rfl obeyed⟩

/-! ### What keeps the level -/

structure KeepsLevel (engine now : Engine) : Prop where
  level : now.state.level = engine.state.level
  secures : engine.heap.Secures now.heap

def Holds : Option (String × Engine) → Engine → Prop
  | none, now => now.state.level = none
  | some (name, loaded), now => ∃ store s, loaded.state.level = some ⟨name, store⟩ ∧
    loaded.heap.stores[store]? = some s ∧ s.isSealed = true ∧ loaded.KeepsLevel now

section

variable {limits : Limits} {engine now next : Engine} {last : Option (String × Engine)}

theorem KeepsLevel.refl (engine : Engine) : engine.KeepsLevel engine := ⟨rfl, .refl _⟩

theorem KeepsLevel.trans (first : engine.KeepsLevel now) (second : now.KeepsLevel next) :
    engine.KeepsLevel next :=
  ⟨second.level.trans first.level, first.secures.trans second.secures⟩

theorem sustains_keepsLevel (engine : Engine) : Sustains engine.KeepsLevel where
  quiet quiet kept := ⟨quiet.level.trans kept.level, quiet.heap ▸ kept.secures⟩
  access access _ kept := ⟨kept.level, kept.secures.trans (secures_access access _)⟩
  answer _ _ _ _ unused performed kept :=
    ⟨(answer_keeps unused performed).level.trans kept.level,
      heap_perform unused performed ▸ kept.secures⟩
  clock _ kept := ⟨kept.level, kept.secures⟩
  take _ kept := ⟨kept.level, kept.secures⟩

theorem Holds.kept (holds : Holds last engine) (kept : engine.KeepsLevel now) : Holds last now := by
  cases last with
  | none => exact kept.level.trans holds
  | some load =>
    obtain ⟨store, s, begun, held, shut, since⟩ := holds
    exact ⟨store, s, begun, held, shut, since.trans kept⟩

theorem sustains_holds (last : Option (String × Engine)) : Sustains (Holds last) where
  quiet quiet holds := holds.kept ((sustains_keepsLevel _).quiet quiet (.refl _))
  access access _ holds := holds.kept ((sustains_keepsLevel _).access access (.refl _))
  answer request _ _ _ unused performed holds :=
    holds.kept ((sustains_keepsLevel _).answer request unused performed (.refl _))
  clock seconds holds := holds.kept ((sustains_keepsLevel _).clock seconds (.refl _))
  take taken holds := holds.kept ((sustains_keepsLevel _).take taken (.refl _))

theorem level_withTable (g : Game) (kind : VariableKind) (table : VariableTable) :
    (g.withTable kind table).level = g.level := by
  cases kind <;> rfl

/-- No command but a load changes the level. -/
theorem keepsLevel_obey {command : Command} (other : command.isLoad = false)
    (obeyed : engine.obey limits command = some next) : engine.KeepsLevel next := by
  refine ⟨?_, heap_obey (lasts_secures engine.heap) (.refl _) obeyed⟩
  cases command with
  | loadSource | loadFile => cases other
  | use event => exact (useWithin_keeps limits limits.nesting obeyed).level
  | advance seconds => exact (advance_persists limits seconds obeyed).level
  | placeEntity spec =>
    cases obeyed
    exact (engine.state.keeps_placeEntity spec).level
  | setVariable kind name value =>
    cases obeyed
    simp only [update, Game.setVariable]
    cases (engine.state.table kind).set name value with
    | error e => rfl
    | ok table => exact level_withTable _ kind table
  | restore kind saved =>
    cases obeyed
    simp only [update, Game.restore]
    cases (engine.state.table kind).restore engine.state.pool saved with
    | error e => rfl
    | ok table => exact level_withTable _ kind table
  | load saved =>
    cases obeyed
    exact (keeps_settle fun _ => Game.keeps_load).level
  | clearGame | intern | pool =>
    cases obeyed
    rfl

/-- A load that fails leaves no level, whatever makes it fail. -/
theorem level_of_loadSource {level source : String} {e : LoadError}
    (failed : loadSource limits level source engine = some (.error e, next)) :
    next.state.level = none := by
  simp only [loadSource] at failed
  split at failed
  · cases failed
    rfl
  · split at failed
    · cases failed
    · rename_i ran
      cases failed
      exact (runLevel_keeps ran).level
    · cases failed

theorem holds_loadSource {level source : String} {result : Except LoadError Unit × Engine}
    (loaded : loadSource limits level source engine = some result) :
    Holds (lastLoad level result) result.2 := by
  obtain ⟨outcome, next⟩ := result
  cases outcome with
  | error e => exact level_of_loadSource loaded
  | ok =>
    obtain ⟨store, s, named, -, -, held, shut⟩ := sealed_of_loadSource loaded
    exact ⟨store, s, named, held, shut, .refl next⟩

theorem Session.holds (session : Session limits engine last) : Holds last engine := by
  induction session with
  | new config seed => rfl
  | loadSource level source _ loaded => exact holds_loadSource loaded
  | loadFile level content _ loaded =>
    cases content with
    | ok source => exact holds_loadSource loaded
    | error e =>
      cases loaded
      rfl
  | obey command _ other obeyed ih => exact ih.kept (keepsLevel_obey other obeyed)

/-- Until a load is done no level is there, for the uses that its script makes neither. -/
theorem usesOfCommand_holds (holds : Holds last engine) (command : Command) :
    ∀ use ∈ usesOfCommand limits engine command,
      Holds (if command.isLoad then none else last) use.2 := by
  have sustains := sustains_holds last
  cases command with
  | loadSource level source => exact usesOfLoad_sustains (sustains_holds none) (fun _ => rfl) source
  | loadFile level content =>
    cases content with
    | ok source => exact usesOfLoad_sustains (sustains_holds none) (fun _ => rfl) source
    | error => exact fun _ member => nomatch member
  | use event => exact usesWithin_sustains sustains limits.nesting holds
  | advance seconds => exact usesInFrame_sustains sustains limits.steps (sustains.clock seconds holds)
  | _ => exact fun _ member => nomatch member

/-- The function that a use calls is the one that the last load has left under the name. -/
theorem callee?_of_holds (holds : Holds last now) (event : UseEvent) :
    callee? now event now = last.bind fun load => callee? load.2 event now := by
  cases last with
  | none => exact callee?_of_unloaded holds event
  | some load =>
    obtain ⟨store, s, begun, held, shut, kept⟩ := holds
    have level : now.state.level = load.2.state.level := kept.level
    have names (key : Value) : now.heap.bound store key = load.2.heap.bound store key := by
      simp only [bound, held, kept.secures.stores held shut]
    simp only [callee?, level, begun, Option.bind_some]
    cases (now.state.pool.entity? event.target).bind (·.fields.scriptFunction) with
    | none => rfl
    | some f => simp only [names]

/-! ### Uses without a level -/

def IsNative (use : UseEvent × Engine) : Prop :=
  ∃ callback, behavior? use.2.state use.1.target = some (.native callback)

/-- Uses that each do no more than to write to the log do no more together. -/
theorem useEach_logs {usage : Usage} {other activator : Option EntityId} {handles : List Handle}
    (each : ∀ event now, (event, now) ∈ dispatched usage other activator handles engine →
      ∀ after, usage event now = some after → ∃ log, after = now.withLog log)
    (used : useEach usage other activator handles engine = some next) :
    ∃ log, next = engine.withLog log := by
  induction handles generalizing engine with
  | nil =>
    cases used
    exact ⟨_, rfl⟩
  | cons h rest ih =>
    unfold useEach at used
    unfold dispatched at each
    cases resolved : h.resolve engine.state.pool with
    | none =>
      rw [resolved] at used each
      exact ih each used
    | some target =>
      rw [resolved] at used each
      dsimp only at used each
      split at used
      · rename_i after first
        rw [first] at each
        obtain ⟨log, rfl⟩ := each _ _ List.mem_cons_self after first
        obtain ⟨log', rfl⟩ := ih (fun event now member =>
          each event now (List.mem_cons_of_mem _ member)) used
        exact ⟨log', rfl⟩
      · cases used

/-- While no level is loaded, scripts and relays do no more than to write to the log. -/
theorem useWithin_unloaded (depth : Nat) {event : UseEvent} (unloaded : engine.state.level = none)
    (plain : ∀ use ∈ usesWithin limits depth event engine, ¬ IsNative use)
    (used : useWithin limits depth event engine = some next) :
    ∃ log, next = engine.withLog log := by
  induction depth generalizing event engine next with
  | zero => cases used
  | succ depth ih =>
    unfold useWithin at used
    unfold usesWithin at plain
    split at used
    · cases used
      exact ⟨_, rfl⟩
    · obtain ⟨log, only⟩ := callee?_of_unloaded unloaded event ▸ calls_callee limits event engine
      rw [only] at used
      cases used
      exact ⟨log, rfl⟩
    · rename_i relay
      rw [relay] at plain
      refine useEach_logs (fun use now member after used => ?_) used
      have unloaded' : now.state.level = none := dispatched_meets
        (fun _ _ _ good used => (useWithin_keeps limits depth used).level.trans good) unloaded member
      refine ih unloaded' (fun inner listed => ?_) used
      exact plain inner (List.mem_cons_of_mem _ (List.mem_flatMap.mpr ⟨_, member, listed⟩))
    · rename_i callback native
      exact absurd ⟨callback, native⟩ (plain _ List.mem_cons_self)

theorem fire_unloaded {helper : EntityId} {target : Handle} {activator : Option Handle}
    (unloaded : engine.state.level = none)
    (plain : ∀ use ∈ usesOfAction limits helper (.trigger target activator) engine, ¬ IsNative use)
    (fired : fire (use limits) helper (.trigger target activator) engine = some next) :
    ∃ log, next = engine.withLog log := by
  simp only [fire] at fired
  simp only [usesOfAction, fired?] at plain
  split at fired
  · cases fired
    exact ⟨_, rfl⟩
  · rename_i id resolved
    split at fired
    · rename_i usable
      simp only [resolved, usable, if_true] at plain
      exact useWithin_unloaded limits.nesting unloaded plain fired
    · cases fired
      exact ⟨_, rfl⟩

theorem fireTrace_unloaded (count : Nat) (unloaded : engine.state.level = none) :
    fireTrace limits count engine = [] := by
  induction count generalizing engine with
  | zero => rfl
  | succ count ih =>
    unfold fireTrace
    split
    · rfl
    · rename_i helper think pool taken
      dsimp only
      rw [List.append_eq_nil_iff]
      constructor
      · split
        · exact useTrace_unloaded limits limits.nesting unloaded
        · rfl
      · split
        · rename_i after fired
          have acted := fire_keeps (useWithin_keeps limits limits.nesting) helper think fired
          exact ih ((retire_keeps _ after).level.trans (acted.level.trans unloaded))
        · rfl

/-- Without a level no command but a load has a script do anything. -/
theorem commandTrace_unloaded {command : Command} (other : command.isLoad = false)
    (unloaded : engine.state.level = none) : commandTrace limits engine command = [] := by
  cases command with
  | loadSource | loadFile => cases other
  | use event => exact useTrace_unloaded limits limits.nesting unloaded
  | advance seconds => exact fireTrace_unloaded limits.steps unloaded
  | _ => rfl

end

def operate (engine : Engine) (ops : List Pool.Operation) (log : Array Record) : Engine :=
  engine.update fun g => { g with pool := g.pool.run ops, log }

/-- Whether an action triggers an entity and comes to no native callback by that. -/
def Firing.Plain {limits : Limits} (f : Firing (use limits)) : Prop :=
  (∃ target activator, f.think = .trigger target activator) ∧
    ∀ use ∈ usesOfAction limits f.helper f.think (f.found.update fun g => { g with pool := f.pool }),
      ¬ IsNative use

section

variable {limits : Limits}

theorem Firing.acted_of_plain {f : Firing (use limits)} (unloaded : f.found.state.level = none)
    (plain : f.Plain) : ∃ log, f.acted = f.found.operate [.takeDue] log := by
  obtain ⟨found, helper, think, pool, acted, takes, acts⟩ := f
  obtain ⟨⟨target, activator, rfl⟩, uses⟩ := plain
  have unloaded' : (found.update fun g => { g with pool }).state.level = none := unloaded
  obtain ⟨log, rfl⟩ := fire_unloaded unloaded' uses acts
  have taken : found.state.pool.run [.takeDue] = pool := by simp [Pool.apply, takes]
  have same : found.operate [.takeDue] log = (found.update fun g => { g with pool }).withLog log := by
    rw [← taken]
    rfl
  exact ⟨log, same.symm⟩

theorem Firing.pool_of_plain {f : Firing (use limits)} (unloaded : f.found.state.level = none)
    (plain : f.Plain) : f.acted.state.pool = f.pool := by
  obtain ⟨log, acted⟩ := f.acted_of_plain unloaded plain
  rw [acted]
  simp [operate, update, Pool.apply, f.takes]

/-- Without a level a trigger whose time has come does no more than to go off. -/
theorem Firing.cleared_of_plain {f : Firing (use limits)} (unloaded : f.found.state.level = none)
    (plain : f.Plain) : ∃ log, f.cleared = f.found.operate [.takeDue, .free f.helper] log := by
  obtain ⟨log, acted⟩ := f.acted_of_plain unloaded plain
  rcases f.cleared_cases with ⟨-, freed⟩ | ⟨gone, -⟩
  · rw [freed, acted]
    exact ⟨_, rfl⟩
  · -- The helper is still there, so its handle cannot be stale.
    have current : f.stamp.resolve f.pool = some f.helper := Pool.resolve_wrap_self f.isOccupied_helper
    rw [f.pool_of_plain unloaded plain, current] at gone
    cases gone

theorem Firing.Chain.level_eq {firings : List (Firing (use limits))} {engine last : Engine}
    (chain : Firing.Chain engine firings last) {f : Firing (use limits)} (member : f ∈ firings) :
    f.found.state.level = engine.state.level := by
  induction firings generalizing engine with
  | nil => cases member
  | cons g rest ih =>
    obtain ⟨rfl, chain⟩ := chain
    rcases List.mem_cons.mp member with rfl | later
    · rfl
    · have acted := fire_keeps (useWithin_keeps limits limits.nesting) g.helper g.think g.acts
      exact (ih chain later).trans ((retire_keeps g.stamp g.acted).level.trans acted.level)

/-- A frame in which nothing goes off but triggers moves the clock and clears the triggers away. -/
theorem Firing.Chain.eq_operate {firings : List (Firing (use limits))} {engine last : Engine}
    (chain : Firing.Chain engine firings last) (unloaded : engine.state.level = none)
    (plain : ∀ f ∈ firings, f.Plain) :
    ∃ log, last = engine.operate (firings.flatMap fun f => [.takeDue, .free f.helper]) log := by
  induction firings generalizing engine with
  | nil =>
    obtain rfl := chain
    exact ⟨_, rfl⟩
  | cons f rest ih =>
    obtain ⟨rfl, chain⟩ := chain
    obtain ⟨log, cleared⟩ := f.cleared_of_plain unloaded (plain f List.mem_cons_self)
    have unloaded' : f.cleared.state.level = none := by
      rw [cleared]
      exact unloaded
    obtain ⟨log', led⟩ := ih chain unloaded' fun g member => plain g (List.mem_cons_of_mem f member)
    rw [cleared] at led
    exact ⟨log', led⟩

end

/-! ### All sessions -/

/-- Whatever the commands of a session: a level is loaded if and only if the last load has succeeded.
A use of a script entity, of the host's or of those that come of it, calls the function that the name
of the entity stood for when that load was done; if there is none, or a load is under way, it is no
more than a record; and scripts do nothing but in such calls, the script of a level apart while it is
loaded. While no level is loaded, no command but a load has a script do anything, a use that comes to no
native callback changes only the log, and a frame in which only such uses go off moves the clock and
takes each helper out of the pool beside that, so every other entity is what it was. -/
theorem level_state (limits : Limits) :
    (∀ engine, Reachable limits engine ↔ ∃ last, Session limits engine last) ∧
    ∀ engine last, Session limits engine last →
      engine.state.isLoaded = last.isSome ∧
      (∀ command, ∀ use ∈ usesOfCommand limits engine command,
        behavior? use.2.state use.1.target = some .script →
        Calls limits use.1 use.2
          ((if command.isLoad then none else last).bind fun load => callee? load.2 use.1 use.2)) ∧
      (∀ command, ∀ happening ∈ commandTrace limits engine command,
        happening ∈ chunkTrace limits engine command ∨
          ∃ use ∈ usesOfCommand limits engine command,
            behavior? use.2.state use.1.target = some .script ∧
            ∃ callee, ((if command.isLoad then none else last).bind fun load =>
                callee? load.2 use.1 use.2) = some callee ∧
              Does limits use callee happening) ∧
      (last = none →
        (∀ command, command.isLoad = false → commandTrace limits engine command = []) ∧
        (∀ event next, use limits event engine = some next →
          (∀ use ∈ usesWithin limits limits.nesting event engine, ¬ IsNative use) →
          ∃ log, next = engine.withLog log) ∧
        ∀ seconds next, advance limits seconds engine = some next →
          ∃ firings : List (Firing (use limits)),
            Firing.Chain (engine.update fun g => { g with pool := g.pool.advance seconds })
              firings next ∧
            ((∀ f ∈ firings, f.Plain) →
              (∃ log, next = engine.operate
                (.advance seconds :: firings.flatMap fun f => [.takeDue, .free f.helper]) log) ∧
              ∀ id, (∀ f ∈ firings, id ≠ f.helper) →
                next.state.pool.entity? id = engine.state.pool.entity? id)) := by
  refine ⟨fun engine => ⟨Reachable.session, fun ⟨_, session⟩ => session.reachable⟩,
    fun engine last session => ?_⟩
  have holds := session.holds
  refine ⟨?loaded, ?called, ?done, ?unloaded⟩
  case loaded =>
    cases last with
    | none => rw [Game.isLoaded, show engine.state.level = none from holds]; rfl
    | some load =>
      obtain ⟨store, s, begun, -, -, kept⟩ := holds
      rw [Game.isLoaded, kept.level, begun]
      rfl
  case called =>
    intro command use member script
    rw [← callee?_of_holds (usesOfCommand_holds holds command use member) use.1]
    exact calls_callee limits use.1 use.2
  case done =>
    intro command happening member
    rcases caused_commandTrace member with own | ⟨use, listed, script, callee, called, does⟩
    · exact .inl own
    · rw [callee?_of_holds (usesOfCommand_holds holds command use listed) use.1] at called
      exact .inr ⟨use, listed, script, callee, called, does⟩
  case unloaded =>
    rintro rfl
    refine ⟨fun command other => commandTrace_unloaded other holds,
      fun event next used plain => useWithin_unloaded limits.nesting holds plain used,
      fun seconds next advanced => ?_⟩
    obtain ⟨firings, chain⟩ := exists_chain advanced
    refine ⟨firings, chain, fun plain => ⟨?_, fun id others => ?_⟩⟩
    · obtain ⟨log, led⟩ := chain.eq_operate holds plain
      exact ⟨log, led⟩
    · refine chain.entity?_eq fun f member => ⟨others f member, ?_⟩
      rw [f.pool_of_plain ((chain.level_eq member).trans holds) (plain f member)]

def opened : Option (Except LoadError Unit × Engine) :=
  loadSource ⟨60, 60, 2⟩ "base1" "function f() end" (Engine.new {} 1)

/-- A second level, whose source is no program. -/
def failing : Option (Except LoadError Unit × Engine) :=
  opened.bind fun loaded => loadSource ⟨60, 60, 2⟩ "base2" "=" loaded.2

def furnish (engine : Engine) : Engine :=
  engine.update fun g => { g with pool := g.pool.run [.spawn, .write 2 fun body =>
    { body with use := some .script, fields := { scriptFunction := some "f" } }] }

/-- When the second load has failed, the function of the first level is not called any more. -/
theorem level_state_failed :
    ∃ loaded failed, Session ⟨60, 60, 2⟩ loaded (some ("base1", loaded)) ∧
      loaded.state.isLoaded = true ∧
      Session ⟨60, 60, 2⟩ (furnish failed) none ∧ (furnish failed).state.isLoaded = false ∧
      ∃ log, use ⟨60, 60, 2⟩ ⟨2, none, none⟩ (furnish failed) = some ((furnish failed).withLog log) := by
  obtain ⟨-, states⟩ := level_state ⟨60, 60, 2⟩
  have loads : (opened.map fun result => result.1.toOption) = some (some ()) := by decide +kernel
  have fails : (failing.map fun result => (result.1.toOption,
      (use ⟨60, 60, 2⟩ ⟨2, none, none⟩ (furnish result.2)).isSome,
      (behavior? (furnish result.2).state 2).map (·.name))) = some (none, true, some "Script") := by
    decide +kernel
  obtain ⟨⟨outcome, loaded⟩, opens, fine⟩ := Option.map_eq_some_iff.mp loads
  obtain ⟨⟨outcome', failed⟩, breaks, ended⟩ := Option.map_eq_some_iff.mp fails
  have second : loadSource ⟨60, 60, 2⟩ "base2" "=" loaded = some (outcome', failed) := by
    rw [failing, opens] at breaks
    exact breaks
  cases outcome with
  | error e => cases fine
  | ok =>
    have first := Session.loadSource "base1" _ (.new {} 1) opens
    have session := Session.loadSource "base2" _ first second
    cases outcome' with
    | ok => cases ended
    | error e =>
      have spawned := session.obey (.pool .spawn) rfl rfl
      have furnished : Session ⟨60, 60, 2⟩ (furnish failed) none :=
        spawned.obey (.pool (.write 2 fun body =>
          { body with use := some .script, fields := { scriptFunction := some "f" } })) rfl rfl
      have named : (behavior? (furnish failed).state 2).map (·.name) = some "Script" :=
        congrArg (·.2.2) ended
      obtain ⟨behavior, found, called⟩ := Option.map_eq_some_iff.mp named
      have script : behavior? (furnish failed).state 2 = some .script := by
        cases behavior with
        | script => exact found
        | relay | native => simp [UseBehavior.name] at called
      have plain : ∀ use ∈ usesWithin ⟨60, 60, 2⟩ 2 ⟨2, none, none⟩ (furnish failed),
          ¬ IsNative use := by
        intro use member
        simp only [usesWithin, script, entered?_unloaded _ furnished.holds, List.mem_singleton]
          at member
        rintro ⟨callback, native⟩
        rw [member, script] at native
        cases native
      obtain ⟨next, used⟩ := Option.isSome_iff_exists.mp (congrArg (·.2.1) ended)
      obtain ⟨isLoaded, -, -, unloaded⟩ := states _ _ furnished
      obtain ⟨log, rfl⟩ := (unloaded rfl).2.1 _ next used plain
      exact ⟨loaded, failed, first, (states _ _ first).1, furnished, isLoaded, log, used⟩

end EntityScripting.Engine
