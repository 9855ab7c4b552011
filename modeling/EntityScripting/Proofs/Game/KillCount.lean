import EntityScripting.Proofs.Game.Calls
import EntityScripting.Proofs.Game.Entry
import EntityScripting.Proofs.Pool.Deed

/-!
# The count of kills

All that is done to the pool while commands are obeyed, deed by deed: the requests of scripts, the
native callbacks, the actions that are due and the helpers that are freed. `kills_counted_once` says
what the count of kills is in the end, and which kill raises it.
-/

namespace EntityScripting

open Number Script

theorem Pool.Enlists.conforms {p q : Pool} {id : EntityId} (enlists : p.Enlists q id)
    (regular : p.Regular) : p.Conforms q := by
  obtain ⟨r, e, f, think, time, spawned, held, found⟩ := enlists.made
  obtain ⟨counted, fresh⟩ := standing?_spawn? regular spawned
  have standing : q.standing? id = some ⟨true, false, false, counted⟩ := by
    rw [standing?_of_entity? held] at fresh
    exact (standing?_of_entity? found).trans fresh
  have claims := claims_of_spawn? spawned
  have enters := enlists.beside.solely.enters regular (claims.reserved regular.reserved) standing
    nofun
  refine enlists.beside.solely.conforms_new claims.vacant ?_ enters.regular
  rw [credits_eq, standing]
  rfl

namespace Game

variable {g : Game}

theorem Refuses.conforms {α : Type} {result : Except ScriptError α × Game}
    (refuses : g.Refuses result) (regular : g.pool.Regular) : g.pool.Conforms result.2.pool := by
  rw [refuses.2]
  exact .refl regular

/-- A new entity of a script does not count. -/
theorem conforms_spawn (classname : String) (origin angles : Vec3) (regular : g.pool.Regular) :
    g.pool.Conforms (spawn classname origin angles g).2.pool := by
  rcases g.spawn_cases classname origin angles with ⟨refused, -⟩ | ⟨id, q, f, spawned, -, -, done⟩
  · exact refused.conforms regular
  have claims := Pool.claims_of_spawn? spawned
  have free := claims.reserved regular.reserved
  obtain ⟨r, enters, taken | refused⟩ := Pool.setUp_spawned regular spawned f
  · rw [done, taken]
    exact enters.unmark free claims.vacant
  · rw [done, refused]
    exact enters.conforms_free free

theorem conforms_give (h : Handle) (name : String) (regular : g.pool.Regular) :
    g.pool.Conforms (give h name g).2.pool := by
  rcases g.give_cases h name with refused | ⟨item, id, q, f, -, -, spawned, -, -, done⟩
  · exact refused.conforms regular
  have free := (Pool.claims_of_spawn? spawned).reserved regular.reserved
  obtain ⟨r, alike, kept | taken⟩ := (q.modifyFields id f).touch_alike id h.slot
  all_goals
    have enters := (Pool.enters_spawn? regular spawned
      fun other => (Pool.alike_modifyFields q id f other).trans (alike other)).1
  · rw [done, kept]
    exact enters.conforms_free free
  · rw [done, taken]
    exact enters.conforms_free free

theorem conforms_setField (h : Handle) (name : String) (d : Datum) (regular : g.pool.Regular) :
    g.pool.Conforms (setField h name d g).2.pool := by
  unfold setField
  split
  · exact .refl regular
  · rename_i field value _
    have interned := (moves_internValue g value).pool
    rw [interned] at regular ⊢
    exact (Pool.alike_modifyFields _ h.slot fun fields =>
      (fields.set? field value).getD fields).conforms regular

/-- Of what can be put off, the helper does not count. -/
theorem conforms_of_cases {α : Type} {result : Except ScriptError α × Game}
    (cases : g.Refuses result ∨ ∃ id, g.pool.Enlists result.2.pool id)
    (regular : g.pool.Regular) : g.pool.Conforms result.2.pool := by
  rcases cases with refused | ⟨id, enlists⟩
  · exact refused.conforms regular
  · exact enlists.conforms regular

theorem alike_announce (g : Game) (id : EntityId) (text : String) :
    Pool.Alike g.pool (g.announce id text).pool := fun _ => ⟨fun _ _ => rfl, rfl, rfl, rfl⟩

theorem conforms_message (h : Handle) (text : String) (delay : Single) (regular : g.pool.Regular) :
    g.pool.Conforms (message h text delay g).2.pool := by
  rcases g.message_cases h text delay with refused | ⟨-, enlists | shown⟩
  · exact refused.conforms regular
  · obtain ⟨id, enlists⟩ := enlists
    exact enlists.conforms regular
  · rw [shown]
    exact (g.alike_announce h.slot text).conforms regular

def killsNow (g : Game) (h : Handle) (delay : Single) : Bool :=
  (h.entity? g.pool).any fun e => !e.isPlayer && !Single.zero.lt delay

/-- A kill at once is one of the slot; else, there is a helper at most. -/
theorem kill_done (h : Handle) (delay : Single) (g : Game) :
    (g.killsNow h delay = true ∧ (kill h delay g).2.pool = (g.pool.kill h.slot).value) ∨
      g.killsNow h delay = false ∧ (g.Refuses (kill h delay g) ∨
        ∃ id, g.pool.Enlists (kill h delay g).2.pool id) := by
  unfold kill killsNow entity
  cases found : h.entity? g.pool with
  | none => exact .inr ⟨rfl, .inl (refuses _ rfl)⟩
  | some e =>
    dsimp only
    split
    · rename_i player
      exact .inr ⟨by simp [player], .inl (refuses _ rfl)⟩
    rename_i mortal
    split
    · rename_i later
      have posted := mapped_cases () (postpone_cases h delay (.kill h) g)
      exact .inr ⟨by simp [later], posted.imp_right (·.2)⟩
    · rename_i now
      rw [Handle.index_of_entity? found]
      exact .inl ⟨by simp [mortal, now], rfl⟩

def placing (result : Except ScriptError (Option EntityId)) : Pool.Purpose :=
  match result with
  | .ok (some id) => .place id
  | _ => .other

theorem chronicle_placeEntity (spec : EntitySpec) (g : Game) :
    g.pool.Chronicle [⟨placing (placeEntity spec g).1, g.pool, (placeEntity spec g).2.pool⟩]
      (placeEntity spec g).2.pool := by
  refine .single (fun regular => ?_) rfl
  have gone {q : Pool} (conforms : g.pool.Conforms q) :
      Pool.Deed.Lawful ⟨.other, g.pool, q⟩ ∧ q.Regular := ⟨conforms.lawful, conforms.regular⟩
  rcases g.placeEntity_cases spec with ⟨⟨e, refused⟩, same⟩ |
    ⟨id, q, spawned, ⟨⟨e, refused⟩, freed⟩ | ⟨f, made, left⟩⟩
  · rw [refused, same]
    exact gone (.refl regular)
  · have enters := (Pool.enters_spawn? regular spawned (.refl q)).1
    rw [refused, freed]
    exact gone (enters.conforms_free ((Pool.claims_of_spawn? spawned).reserved regular.reserved))
  · have claims := Pool.claims_of_spawn? spawned
    obtain ⟨r, enters, taken | unfit⟩ := Pool.setUp_spawned regular spawned f
    · rw [made, left, taken]
      exact ⟨enters.lawful claims.vacant, enters.regular⟩
    · rw [made, left, unfit]
      exact gone (enters.conforms_free (claims.reserved regular.reserved))

end Game

namespace Engine

open Pool (Deed Chronicle)

def Enacts (engine : Engine) (deeds : List Deed) (next : Engine) : Prop :=
  Chronicle engine.state.pool deeds next.state.pool

theorem Enacts.nothing (engine : Engine) : engine.Enacts [] engine := Chronicle.nothing _

theorem enacts_still {engine next : Engine} (same : next.state.pool = engine.state.pool) :
    engine.Enacts [] next := by
  rw [Enacts, same]
  exact Chronicle.nothing _

theorem Enacts.append {engine middle last : Engine} {first second : List Deed}
    (before : engine.Enacts first middle) (after : middle.Enacts second last) :
    engine.Enacts (first ++ second) last := Chronicle.append before after

/-! ### Requests -/

def purposeOf {α : Type} (request : Request α) (g : Game) : Pool.Purpose :=
  match request with
  | .kill h delay => if g.killsNow h delay then .kill h.slot else .other
  | _ => .other

def deedsOfAnswer {α : Type} (request : Request α) (engine : Engine) : List Deed :=
  match perform (fun _ _ => none) request engine with
  | some (_, next) => [⟨purposeOf request engine.state, engine.state.pool, next.state.pool⟩]
  | none => []

theorem perform_unused {usage : Usage} {α : Type} {request : Request α} {engine : Engine}
    (unused : used? request engine = none) :
    perform usage request engine = perform (fun _ _ => none) request engine := by
  obtain ⟨g, heap⟩ := engine
  cases request with
  | trigger h delay =>
    simp only [used?] at unused
    simp only [perform]
    generalize Game.trigger h delay g = result at unused
    obtain ⟨_ | _ | event, g'⟩ := result
    · rfl
    · rfl
    · cases unused
  | _ => rfl

theorem enacts_perform {usage : Usage} {α : Type} {request : Request α} {engine next : Engine}
    {answer : α} (unused : used? request engine = none)
    (performed : perform usage request engine = some (answer, next)) :
    engine.Enacts [⟨purposeOf request engine.state, engine.state.pool, next.state.pool⟩] next := by
  obtain ⟨g, heap⟩ := engine
  cases request with
  | kill h delay =>
    cases performed
    dsimp only [Enacts, purposeOf]
    rcases g.kill_done h delay with ⟨now, killed⟩ | ⟨later, cases⟩
    · rw [now, killed]
      exact Pool.chronicle_kill g.pool h.slot
    · rw [later]
      exact Pool.chronicle_other (Game.conforms_of_cases cases)
  | trigger h delay =>
    refine Pool.chronicle_other fun regular => ?_
    have cases := g.trigger_cases h delay
    simp only [used?] at unused
    simp only [perform] at performed
    generalize Game.trigger h delay g = result at cases unused performed
    -- What is used at once is left out here, so the trigger is refused or put off.
    have settled : g.pool.Conforms result.2.pool := by
      rcases cases with refused | ⟨-, id, enlists⟩ | ⟨event, rfl⟩
      · exact refused.conforms regular
      · exact enlists.conforms regular
      · cases unused
    obtain ⟨_ | _ | event, g'⟩ := result
    · cases performed
      exact settled
    · cases performed
      exact settled
    · cases unused
  | setVariable kind name d =>
    cases performed
    refine Pool.chronicle_other fun regular => ?_
    rcases Game.assignVariable_cases kind name d g with ⟨e, same⟩ | ⟨value, table, -, -, done⟩
    · rw [same]
      exact .refl regular
    · rw [done, g.pool_withTable]
      exact .refl regular
  | spawn classname origin angles =>
    cases performed
    exact Pool.chronicle_other (Game.conforms_spawn classname origin angles)
  | set h key d =>
    cases performed
    exact Pool.chronicle_other (Game.conforms_setField h key d)
  | message h text delay =>
    cases performed
    exact Pool.chronicle_other (Game.conforms_message h text delay)
  | give h item =>
    cases performed
    exact Pool.chronicle_other (Game.conforms_give h item)
  | draw bound =>
    cases performed
    refine Pool.chronicle_other fun regular => ?_
    rw [← (g.moves_draw bound).pool]
    exact .refl regular
  | _ =>
    cases performed
    exact Pool.chronicle_other .refl

/-! ### Uses -/

def deedsOfCallback : Callback → Pool → List Deed
  | .done, _ => []
  | .spawn next, p =>
    match p.spawn? with
    | some (id, q) => ⟨.other, p, q⟩ :: deedsOfCallback (next (some id)) q
    | none => deedsOfCallback (next none) p
  | .free id next, p => ⟨.other, p, (p.free id).value⟩ :: deedsOfCallback next (p.free id).value
  | .kill id next, p => ⟨.kill id, p, (p.kill id).value⟩ :: deedsOfCallback next (p.kill id).value
  | .announce id text next, p =>
    ⟨.other, p, p.centerPrint id text⟩ :: deedsOfCallback next (p.centerPrint id text)

/-- What is done when a happening is a request, with what is done by the use that it comes to. -/
def deedsAsked (deedsOf : UseEvent → Engine → List Deed) : Happening Game → List Deed
  | .access .. => []
  | .ask request engine =>
    match used? request engine with
    | some event => deedsOf event engine
    | none => deedsOfAnswer request engine

def deedsWithin (limits : Limits) : (depth : Nat) → UseEvent → Engine → List Deed
  | 0, _, _ => []
  | depth + 1, event, engine =>
    match behavior? engine.state event.target with
    | some .script =>
      match entered? event engine with
      | some routine =>
        (routine.trace limits.turns (perform (useWithin limits depth)) (fun _ _ => [])
          limits.steps [] (entering event engine)).flatMap (deedsAsked (deedsWithin limits depth))
      | none => []
    | some .relay =>
      (relayed limits depth event engine).flatMap fun (use, now) => deedsWithin limits depth use now
    | some (.native callback) => deedsOfCallback (callback event) engine.state.pool
    | none => []

theorem chronicle_callback (callback : Callback) (p : Pool) :
    p.Chronicle (deedsOfCallback callback p) (p.runCallback callback).value := by
  induction callback generalizing p with
  | done => exact .nothing p
  | spawn next ih =>
    unfold Pool.runCallback deedsOfCallback
    cases spawned : p.spawn? with
    | none => exact ih none p
    | some result =>
      obtain ⟨id, q⟩ := result
      exact (Pool.chronicle_other (Pool.conforms_spawn? · spawned)).append (ih (some id) q)
  | free id next ih =>
    exact (Pool.chronicle_other (Pool.conforms_free · id)).append (ih (p.free id).value)
  | kill id next ih => exact (Pool.chronicle_kill p id).append (ih (p.kill id).value)
  | announce id text next ih =>
    have shown : p.Alike (p.centerPrint id text) := fun _ => ⟨fun _ _ => rfl, rfl, rfl, rfl⟩
    exact (Pool.chronicle_other shown.conforms).append (ih (p.centerPrint id text))

/-- A routine does what its requests do, if this is so of what they use. -/
theorem accounts_deeds {usage : Usage} {deedsOf : UseEvent → Engine → List Deed}
    (uses : ∀ event engine next, usage event engine = some next →
      engine.Enacts (deedsOf event engine) next) :
    Routine.Accounts (perform usage) (fun _ _ => []) fun engine happenings next =>
      Enacts engine (happenings.flatMap (deedsAsked deedsOf)) next where
  nothing := .nothing
  append first second := by
    rw [List.flatMap_append]
    exact first.append second
  access _ engine := .nothing engine
  ask request engine next answer performed := by
    rw [List.flatMap_singleton]
    cases used : used? request engine with
    | some event =>
      simp only [deedsAsked, used]
      exact uses _ _ _ (perform_used used performed)
    | none =>
      have same := performed
      rw [perform_unused used] at same
      simp only [deedsAsked, used, deedsOfAnswer, same]
      exact enacts_perform used performed

theorem enacts_useWithin (limits : Limits) (depth : Nat) {event : UseEvent}
    {engine next : Engine} (used : useWithin limits depth event engine = some next) :
    engine.Enacts (deedsWithin limits depth event engine) next := by
  induction depth generalizing event engine next with
  | zero => cases used
  | succ depth ih =>
    unfold useWithin at used
    unfold deedsWithin
    split at used
    · rename_i none
      cases used
      rw [none]
      exact .nothing _
    · rename_i script
      rw [script]
      dsimp only
      rcases useScript_cases used with ⟨none, still⟩ |
        ⟨routine, outcome, ended, entered, ran, after⟩
      · rw [none]
        exact enacts_still still.pool
      · rw [entered, Enacts, after.pool]
        exact Routine.runWith_accounts (accounts_deeds fun _ _ _ => ih) limits.turns ran
    · rename_i relay
      rw [relay]
      refine useEach_composes .nothing .append ?_ used
      exact fun _ _ _ => ih
    · rename_i callback native
      cases used
      rw [native]
      exact chronicle_callback (callback event) engine.state.pool

theorem accounts_within (limits : Limits) (depth : Nat) :
    Routine.Accounts (perform (useWithin limits depth)) (fun _ _ => [])
      fun engine happenings next =>
        Enacts engine (happenings.flatMap (deedsAsked (deedsWithin limits depth))) next :=
  accounts_deeds fun _ _ _ => enacts_useWithin limits depth

/-! ### Frames -/

def deedsOfAction (limits : Limits) (helper : EntityId) (think : Think) (engine : Engine) :
    List Deed :=
  let pool := engine.state.pool
  match think with
  | .trigger .. =>
    match fired? helper think engine with
    | some event => deedsWithin limits limits.nesting event engine
    | none => []
  | .kill target =>
    match target.resolve pool with
    | some id => [⟨.kill id, pool, (pool.kill id).value⟩]
    | none => []
  | .message target =>
    match target.resolve pool, (pool.entity? helper).bind (·.fields.message) with
    | some id, some text => [⟨.other, pool, (engine.state.announce id text).pool⟩]
    | _, _ => []

/-- What is done while the actions are carried out that are due: each is taken off its helper, is
carried out, and the helper is freed. -/
def deedsInFrame (limits : Limits) : (count : Nat) → Engine → List Deed
  | 0, _ => []
  | count + 1, engine =>
    match engine.state.pool.takeDue? with
    | none => []
    | some (helper, think, pool) =>
      let taken := engine.update fun g => { g with pool }
      ⟨.other, engine.state.pool, pool⟩ :: (deedsOfAction limits helper think taken ++
        match fire (use limits) helper think taken with
        | some after =>
          let retired := retire (pool.wrap helper) after
          ⟨.other, after.state.pool, retired.state.pool⟩ :: deedsInFrame limits count retired
        | none => [])

theorem enacts_fire {limits : Limits} {helper : EntityId} {think : Think} {engine next : Engine}
    (fired : fire (use limits) helper think engine = some next) :
    engine.Enacts (deedsOfAction limits helper think engine) next := by
  cases think with
  | trigger target activator =>
    simp only [fire] at fired
    simp only [deedsOfAction, fired?]
    split at fired
    · rename_i gone
      cases fired
      rw [gone]
      exact .nothing _
    · rename_i id resolved
      rw [resolved]
      split at fired
      · rename_i usable
        simp only [usable, if_true]
        exact enacts_useWithin limits limits.nesting fired
      · rename_i unusable
        cases fired
        simp only [unusable]
        exact .nothing _
  | kill target =>
    simp only [fire] at fired
    simp only [deedsOfAction]
    split at fired
    · rename_i gone
      cases fired
      rw [gone]
      exact .nothing _
    · rename_i id resolved
      cases fired
      rw [resolved]
      exact Pool.chronicle_kill engine.state.pool id
  | message target =>
    simp only [fire] at fired
    simp only [deedsOfAction]
    split at fired
    · rename_i gone
      cases fired
      rw [gone]
      exact .nothing _
    · rename_i id text resolved told
      cases fired
      rw [resolved, told]
      exact Pool.chronicle_other (engine.state.alike_announce id text).conforms
    · rename_i id resolved silent
      cases fired
      rw [resolved, silent]
      exact .nothing _

theorem enacts_retire (helper : Handle) (engine : Engine) :
    engine.Enacts [⟨.other, engine.state.pool, (retire helper engine).state.pool⟩]
      (retire helper engine) := by
  refine Pool.chronicle_other fun regular => ?_
  simp only [retire, update]
  split
  · rename_i id _
    exact Pool.conforms_free regular id
  · exact .refl regular

theorem enacts_fireDue {limits : Limits} {count : Nat} {engine next : Engine}
    (fired : fireDue (use limits) count engine = some next) :
    engine.Enacts (deedsInFrame limits count engine) next := by
  induction count generalizing engine with
  | zero => cases fired
  | succ count ih =>
    unfold fireDue at fired
    unfold deedsInFrame
    cases taken : engine.state.pool.takeDue? with
    | none =>
      rw [taken] at fired
      cases fired
      exact .nothing _
    | some first =>
      obtain ⟨helper, think, pool⟩ := first
      rw [taken] at fired
      dsimp only at fired ⊢
      cases action : fire (use limits) helper think (engine.update fun g => { g with pool }) with
      | none =>
        rw [action] at fired
        cases fired
      | some after =>
        rw [action] at fired
        have took : engine.Enacts [⟨.other, engine.state.pool, pool⟩]
            (engine.update fun g => { g with pool }) :=
          Pool.chronicle_other (Pool.alike_takeDue? taken).conforms
        have ended := (enacts_retire (pool.wrap helper) after).append (ih fired)
        exact took.append ((enacts_fire action).append ended)

def deedsOfLoad (limits : Limits) (level source : String) (engine : Engine) : List Deed :=
  (loadTrace limits (fun _ _ => []) level source engine).flatMap
    (deedsAsked (deedsWithin limits limits.nesting))

theorem enacts_runLevel {limits : Limits} {level : String} {code : FunctionBody}
    {engine next : Engine} {result : Except Cause StoreId}
    (ran : runLevel limits level code engine = some (result, next)) :
    engine.Enacts ((levelTrace limits (fun _ _ => []) level code engine).flatMap
      (deedsAsked (deedsWithin limits limits.nesting))) next := by
  have accounts := accounts_within limits limits.nesting
  obtain ⟨g, heap⟩ := engine
  simp only [runLevel] at ran
  split at ran
  · cases ran
  · rename_i ended
    cases ran
    exact Routine.runWith_accounts accounts limits.turns ended
  · rename_i ended
    cases ran
    exact Routine.runWith_accounts accounts limits.turns ended

theorem enacts_loadSource {limits : Limits} {level source : String} {engine next : Engine}
    {result : Except LoadError Unit}
    (loaded : loadSource limits level source engine = some (result, next)) :
    engine.Enacts (deedsOfLoad limits level source engine) next := by
  simp only [loadSource] at loaded
  unfold deedsOfLoad loadTrace
  split at loaded
  · rename_i unread
    cases loaded
    rw [unread]
    exact .nothing engine
  · rename_i code read
    rw [read]
    split at loaded
    · cases loaded
    · rename_i ran
      cases loaded
      exact enacts_runLevel ran
    · rename_i ran
      cases loaded
      exact enacts_runLevel ran

/-! ### Sessions -/

def deedsOfCommand (limits : Limits) (engine : Engine) : Command → List Deed
  | .loadSource level source | .loadFile level (.ok source) =>
    deedsOfLoad limits level source engine
  | .use event => deedsWithin limits limits.nesting event engine
  | .advance seconds =>
    let later := engine.update fun g => { g with pool := g.pool.advance seconds }
    ⟨.other, engine.state.pool, later.state.pool⟩ :: deedsInFrame limits limits.steps later
  | .placeEntity spec =>
    let result := engine.state.placeEntity spec
    [⟨Game.placing result.1, engine.state.pool, result.2.pool⟩]
  | .pool op => [⟨op.purpose, engine.state.pool, engine.state.pool.apply op⟩]
  | _ => []

def deeds (limits : Limits) (engine : Engine) : List Command → List Deed
  | [] => []
  | command :: rest =>
    deedsOfCommand limits engine command ++
      match engine.obey limits command with
      | some next => deeds limits next rest
      | none => []

theorem pool_settle {ε : Type} {g : Game} {kind : VariableKind} (result : Except ε VariableTable) :
    (settle g (result.map (g.withTable kind))).pool = g.pool := by
  cases result with
  | ok table => exact g.pool_withTable kind table
  | error => rfl

/-- Whether a host makes entities in no other way than the game does, and leaves to it what decides
whether a kill counts. -/
def Command.IsPlain : Command → Prop
  | .pool op => op.IsPlain
  | _ => True

theorem enacts_obey {limits : Limits} {engine next : Engine} {command : Command}
    (plain : command.IsPlain) (obeyed : engine.obey limits command = some next) :
    engine.Enacts (deedsOfCommand limits engine command) next := by
  cases command with
  | loadSource level source =>
    obtain ⟨⟨result, last⟩, loaded, rfl⟩ := Option.map_eq_some_iff.mp obeyed
    exact enacts_loadSource loaded
  | loadFile level content =>
    obtain ⟨⟨result, last⟩, loaded, rfl⟩ := Option.map_eq_some_iff.mp obeyed
    cases content with
    | ok source => exact enacts_loadSource loaded
    | error e =>
      cases loaded
      exact .nothing engine
  | use event => exact enacts_useWithin limits limits.nesting obeyed
  | advance seconds =>
    have moved : engine.state.pool.Alike (engine.state.pool.advance seconds) :=
      fun _ => ⟨fun _ _ => rfl, rfl, rfl, rfl⟩
    exact Enacts.append (Pool.chronicle_other moved.conforms) (enacts_fireDue obeyed)
  | placeEntity spec =>
    cases obeyed
    exact Game.chronicle_placeEntity spec engine.state
  | pool op =>
    cases obeyed
    exact Pool.chronicle_apply engine.state.pool plain
  | setVariable | restore =>
    cases obeyed
    exact enacts_still (pool_settle _)
  | load saved =>
    cases obeyed
    cases loaded : engine.state.load saved with
    | ok g =>
      obtain ⟨level, lasting, -, -, rfl⟩ := Game.load_eq_ok loaded
      exact enacts_still (by rw [update, loaded]; rfl)
    | error e => exact enacts_still (by rw [update, loaded]; rfl)
  | clearGame | intern =>
    cases obeyed
    exact enacts_still rfl

theorem enacts_deeds {limits : Limits} {commands : List Command} {engine last : Engine}
    (plain : ∀ command ∈ commands, command.IsPlain)
    (obeyed : commands.foldlM (obey limits) engine = some last) :
    engine.Enacts (deeds limits engine commands) last := by
  induction commands generalizing engine with
  | nil =>
    cases obeyed
    exact .nothing last
  | cons command rest ih =>
    rw [List.foldlM_cons] at obeyed
    obtain ⟨next, first, later⟩ := Option.bind_eq_some_iff.mp obeyed
    simp only [deeds, first]
    exact (enacts_obey (plain command List.mem_cons_self) first).append
      (ih (fun other member => plain other (List.mem_cons_of_mem _ member)) later)

/-- For every session in which hosts, scripts and native callbacks make entities and remove them in
the ways of the game, what is done to the pool is a sequence of deeds, each kill among them one of the
pool. The count of kills is raised by nothing but these: once for every monster of a map that leaves
by a kill, however many kills are aimed at it, and never for anything else that comes into play. With
fewer kills than there are counts, it is the number of these monsters in the end. -/
theorem kills_counted_once (limits : Limits) (config : ScriptConfig) (seed : Nat) {last : Engine}
    (commands : List Command) (plain : ∀ command ∈ commands, command.IsPlain)
    (obeyed : commands.foldlM (obey limits) (Engine.new config seed) = some last) :
    (Pool.new config.pool).Tallies (deeds limits (Engine.new config seed) commands)
      last.state.pool :=
  Chronicle.tallies (enacts_deeds plain obeyed)

/-- A host kills a monster twice, a script has another one killed later and kills one of its own, and
the host has yet another kill aimed at the slot of the first. -/
def hunted : List Command :=
  [.placeEntity { classname := "monster_soldier" }, .placeEntity { classname := "monster_gunner" },
    .pool (.kill 2), .pool (.kill 2),
    .loadSource "base1" "script.find('monster_gunner', 'classname')[1]:kill(1)",
    .loadSource "base2" "script.spawn('monster_soldier', script.vector(0, 0, 0)):kill()",
    .advance Single.one, .pool (.kill 2)]

theorem kills_counted_once_hunted :
    ∃ last, hunted.foldlM (obey ⟨60, 60, 2⟩) (Engine.new {} 1) = some last ∧
      (Pool.new {}).Tallies (deeds ⟨60, 60, 2⟩ (Engine.new {} 1) hunted) last.state.pool ∧
      (deeds ⟨60, 60, 2⟩ (Engine.new {} 1) hunted).countP (·.victim?.isSome) = 5 ∧
      last.state.pool.killed.toNat = 2 := by
  have runs : (hunted.foldlM (obey ⟨60, 60, 2⟩) (Engine.new {} 1)).isSome = true ∧
      (deeds ⟨60, 60, 2⟩ (Engine.new {} 1) hunted).countP (·.victim?.isSome) = 5 ∧
      Pool.killedMonsters (deeds ⟨60, 60, 2⟩ (Engine.new {} 1) hunted) = 2 := by
    decide +kernel
  obtain ⟨plays, five, two⟩ := runs
  obtain ⟨last, played⟩ := Option.isSome_iff_exists.mp plays
  have tallies := kills_counted_once ⟨60, 60, 2⟩ {} 1 hunted
    (by simp [hunted, Command.IsPlain, Pool.Operation.IsPlain]) played
  exact ⟨last, played, tallies, five, (tallies.total (by rw [five]; decide)).trans two⟩

end Engine

end EntityScripting
