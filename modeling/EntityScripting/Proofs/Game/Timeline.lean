import EntityScripting.Proofs.Game.Errand
import EntityScripting.Proofs.Game.Session

/-!
# Time lines

The operations on the pool that a session comes to, with the clock among them. A frame moves the
clock, takes one due action after another and carries it out, and ends when it finds none
(`Firings`). `delayed_actions` says when each action is carried out that an entity was given for
later.
-/

namespace EntityScripting.Engine

open Number Script

/-- What a frame does once the clock has moved: each action that is due is taken and carried out,
which comes to operations off the clock, and at last none is due. -/
inductive Firings (usage : Usage) : Engine → List Pool.Operation → Engine → Prop where
  | done {engine : Engine} : engine.state.pool.takeDue? = none →
      Firings usage engine [.takeDue] engine
  | fire {engine after last : Engine} {helper : EntityId} {think : Think} {pool : Pool}
      {ops more : List Pool.Operation} :
      engine.state.pool.takeDue? = some (helper, think, pool) →
      fire usage helper think (engine.update fun g => { g with pool }) = some after →
      (retire (pool.wrap helper) after).state.pool = pool.run ops →
      (∀ op ∈ ops, op.isTimed = false) → pool.OrderlyRun ops →
      Firings usage (retire (pool.wrap helper) after) more last →
      Firings usage engine (.takeDue :: (ops ++ more)) last

inductive Timeline (limits : Limits) :
    Engine → List Command → List Pool.Operation → Engine → Prop where
  | nil (engine : Engine) : Timeline limits engine [] [] engine
  | frame {engine next last : Engine} {seconds : Single} {commands : List Command}
      {ops more : List Pool.Operation} :
      advance limits seconds engine = some next →
      Firings (use limits) (engine.update fun g => { g with pool := g.pool.advance seconds }) ops
        next →
      Timeline limits next commands more last →
      Timeline limits engine (.advance seconds :: commands) (.advance seconds :: (ops ++ more)) last
  | service {engine next last : Engine} {command : Command} {commands : List Command}
      {ops more : List Pool.Operation} :
      engine.obey limits command = some next → next.state.pool = engine.state.pool.run ops →
      (∀ op ∈ ops, op.isTimed = false) → engine.state.pool.OrderlyRun ops →
      Timeline limits next commands more last →
      Timeline limits engine (command :: commands) (ops ++ more) last

/-- A host has an engine obey commands one after another. It leaves the clock to the frames, and
gives actions itself only to entities in use that have none. -/
def Attends (limits : Limits) : Engine → List Command → Engine → Prop
  | engine, [], last => last = engine
  | engine, command :: commands, last =>
    (∀ op, command = .pool op → op.isTimed = false ∧ engine.state.pool.Orderly op) ∧
      ∃ next, engine.obey limits command = some next ∧ Attends limits next commands last

theorem Firings.orderly {usage : Usage} {engine last : Engine} {ops : List Pool.Operation}
    (firings : Firings usage engine ops last) :
    last.state.pool = engine.state.pool.run ops ∧ engine.state.pool.OrderlyRun ops := by
  induction firings with
  | @done engine none =>
    have same : engine.state.pool.apply .takeDue = engine.state.pool := by
      simp [Pool.apply, none]
    exact ⟨same.symm, trivial, trivial⟩
  | @fire engine after last helper think pool ops more taken fired led untimed orderly _ ih =>
    have took : engine.state.pool.apply .takeDue = pool := by simp [Pool.apply, taken]
    rw [led] at ih
    rw [Pool.run_cons, took, Pool.run_append]
    refine ⟨ih.1, trivial, ?_⟩
    rw [took, Pool.orderlyRun_append]
    exact ⟨orderly, ih.2⟩

theorem Timeline.orderly {limits : Limits} {engine last : Engine} {commands : List Command}
    {ops : List Pool.Operation} (timeline : Timeline limits engine commands ops last) :
    last.state.pool = engine.state.pool.run ops ∧ engine.state.pool.OrderlyRun ops := by
  induction timeline with
  | nil => exact ⟨rfl, trivial⟩
  | @frame engine next last seconds commands ops more _ firings _ ih =>
    obtain ⟨led, orderly⟩ := firings.orderly
    rw [led] at ih
    rw [Pool.run_cons, Pool.run_append]
    exact ⟨ih.1, trivial, (Pool.orderlyRun_append _ ops more).mpr ⟨orderly, ih.2⟩⟩
  | service _ led untimed orderly _ ih =>
    rw [led] at ih
    rw [Pool.run_append, Pool.orderlyRun_append]
    exact ⟨ih.1, orderly, ih.2⟩

theorem exists_firings {usage : Usage} (uses : UsageKeeps usage) {count : Nat}
    {engine next : Engine} (clean : engine.state.pool.Clean)
    (fired : fireDue usage count engine = some next) : ∃ ops, Firings usage engine ops next := by
  induction count generalizing engine with
  | zero => cases fired
  | succ count ih =>
    unfold fireDue at fired
    split at fired
    · rename_i none
      cases fired
      exact ⟨_, .done none⟩
    · rename_i helper think pool taken
      dsimp only at fired
      split at fired
      · rename_i after action
        have took : engine.state.pool.apply .takeDue = pool := by simp [Pool.apply, taken]
        have free : engine.state.pool.Orderly .takeDue := trivial
        have clean' : pool.Clean := took ▸ clean.apply free
        obtain ⟨ops, led, untimed, orderly⟩ :=
          ((fire_keeps uses helper think action).trans (retire_keeps (pool.wrap helper) after)).pool
        obtain ⟨more, firings⟩ := ih (led ▸ clean'.run (orderly clean')) fired
        exact ⟨_, .fire taken action led untimed (orderly clean') firings⟩
      · cases fired

theorem exists_timeline {limits : Limits} {engine last : Engine} {commands : List Command}
    (clean : engine.state.pool.Clean) (attends : Attends limits engine commands last) :
    ∃ ops, Timeline limits engine commands ops last := by
  induction commands generalizing engine with
  | nil =>
    cases attends
    exact ⟨_, .nil _⟩
  | cons command commands ih =>
    obtain ⟨host, next, obeyed, attends⟩ := attends
    rcases obey_cases obeyed with ⟨seconds, rfl, advanced⟩ | ⟨op, rfl, rfl⟩ | serves
    · have free : engine.state.pool.Orderly (.advance seconds) := trivial
      have clean' := clean.apply free
      have started :
          (engine.update fun g => { g with pool := g.pool.advance seconds }).state.pool.Clean := clean'
      obtain ⟨ops, firings⟩ :=
        exists_firings (useWithin_keeps limits limits.nesting) started advanced
      obtain ⟨led, orderly⟩ := firings.orderly
      obtain ⟨more, timeline⟩ := ih (led ▸ clean'.run orderly) attends
      exact ⟨_, .frame advanced firings timeline⟩
    · obtain ⟨untimed, orderly⟩ := host op rfl
      obtain ⟨more, timeline⟩ := ih (clean.apply orderly) attends
      have single : ∀ other ∈ [op], other.isTimed = false := by simpa using untimed
      exact ⟨_, .service obeyed rfl single ⟨orderly, trivial⟩ timeline⟩
    · obtain ⟨ops, led, untimed, orderly⟩ := serves.pool
      obtain ⟨more, timeline⟩ := ih (led ▸ clean.run (orderly clean)) attends
      exact ⟨_, .service obeyed led untimed (orderly clean) timeline⟩

theorem isDue_fireDue {usage : Usage} {count : Nat} {engine next : Engine}
    (fired : fireDue usage count engine = some next) {id : EntityId} {e : Entity}
    (found : next.state.pool.entity? id = some e) : Pool.isDue next.state.pool.time e = false := by
  induction count generalizing engine with
  | zero => cases fired
  | succ count ih =>
    unfold fireDue at fired
    split at fired
    · rename_i none
      cases fired
      exact Pool.takeDue?_eq_none none found
    · dsimp only at fired
      split at fired
      · exact ih fired
      · cases fired

/-- For every session: it has time lines, and in each of them every action that an entity in use is
given for a positive delay, at the time that the delay added to the clock comes to, is either
released with its entity before it fires or fires once, in the first frame whose clock has reached
its time, after all that was due before it. The actions that scripts put off are among them, each
given to an entity made for it. After every frame nothing is due. -/
theorem delayed_actions {limits : Limits} {config : ScriptConfig} {seed : Nat}
    {commands : List Command} {last : Engine}
    (attends : Attends limits (Engine.new config seed) commands last) :
    (∃ ops, Timeline limits (Engine.new config seed) commands ops last) ∧
    (∀ ops, Timeline limits (Engine.new config seed) commands ops last →
      ∀ earlier id delay think after, ops = earlier ++ .schedule id delay think :: after →
        Single.zero.lt delay = true →
        ((Pool.new config.pool).run earlier).isOccupied id = true →
        (Pool.new config.pool).Fate (earlier ++ [.schedule id delay think]) after id think
          (((Pool.new config.pool).run earlier).time.add delay)) ∧
    (∀ usage (errand : Errand) h delay engine next, Single.zero.lt delay = true →
      perform usage (errand.request h delay) engine = some (.ok (), next) →
      ∃ helper f more, next.state.pool = engine.state.pool.run
          ([.spawn, .write helper f] ++
            .schedule helper delay (errand.think h engine.state) :: more) ∧
        (engine.state.pool.run [.spawn, .write helper f]).isOccupied helper = true) ∧
    ∀ seconds engine next, advance limits seconds engine = some next →
      ∀ id e, next.state.pool.entity? id = some e → Pool.isDue next.state.pool.time e = false := by
  refine ⟨exists_timeline (Pool.clean_new config.pool) attends, ?fate, ?helpers, ?idle⟩
  case fate =>
    rintro ops timeline earlier id delay think after rfl positive occupied
    exact Pool.fate_of_schedule Single.isTime_zero positive timeline.orderly.2 occupied
  case helpers =>
    intro usage errand h delay engine next positive asked
    obtain ⟨helper, -, -, -, posts, -⟩ := posted_of_perform positive asked
    obtain ⟨f, more, led, occupied⟩ := posts.scheduled
    exact ⟨helper, f, more, led, occupied⟩
  case idle =>
    intro seconds engine next advanced id e found
    exact isDue_fireDue advanced found

def awaited : Think := .kill ⟨3, 0⟩

def waitingEngine : Engine :=
  (Engine.new {} 1).update fun g =>
    { g with pool := g.pool.run [.spawn, .schedule 2 Single.one awaited] }

def firedEngine : Engine :=
  (waitingEngine.update fun g => { g with
    pool := g.pool.run [.advance Single.one, .takeDue, .free 2]
    log := g.log.push ⟨.info, "script delayed kill target no longer exists"⟩ })

theorem attends_awaited : Attends ⟨2, 2, 2⟩ (Engine.new {} 1)
    [.pool .spawn, .pool (.schedule 2 Single.one awaited), .advance Single.one] firedEngine := by
  refine ⟨?_, _, rfl, ?_, _, rfl, ?_, firedEngine, rfl, rfl⟩
  · rintro op ⟨⟩
    exact ⟨rfl, trivial⟩
  · rintro op ⟨⟩
    refine ⟨rfl, fun e held => ?_⟩
    cases held
    exact ⟨rfl, rfl⟩
  · rintro op ⟨⟩

theorem timeline_awaited : Timeline ⟨2, 2, 2⟩ (Engine.new {} 1)
    [.pool .spawn, .pool (.schedule 2 Single.one awaited), .advance Single.one]
    [.spawn, .schedule 2 Single.one awaited, .advance Single.one, .takeDue, .free 2, .takeDue]
    firedEngine := by
  have untimed (op : Pool.Operation) (off : op.isTimed = false) :
      ∀ other ∈ [op], other.isTimed = false := by
    simpa using off
  have ended : Firings (use ⟨2, 2, 2⟩) firedEngine [.takeDue] firedEngine := .done rfl
  have fired : Firings (use ⟨2, 2, 2⟩)
      (waitingEngine.update fun g => { g with pool := g.pool.advance Single.one })
      (.takeDue :: ([.free 2] ++ [.takeDue])) firedEngine :=
    .fire rfl rfl rfl (untimed _ rfl) ⟨trivial, trivial⟩ ended
  have frame : Timeline ⟨2, 2, 2⟩ waitingEngine [.advance Single.one] _ firedEngine :=
    .frame rfl fired (.nil _)
  have scheduled : Timeline ⟨2, 2, 2⟩
      ((Engine.new {} 1).update fun g => { g with pool := g.pool.apply .spawn })
      (.pool (.schedule 2 Single.one awaited) :: [.advance Single.one])
      ([.schedule 2 Single.one awaited] ++ _) firedEngine :=
    .service rfl rfl (untimed _ rfl) ⟨fun e held => by cases held; exact ⟨rfl, rfl⟩, trivial⟩ frame
  have spawned : Timeline ⟨2, 2, 2⟩ (Engine.new {} 1) (.pool .spawn :: _) ([.spawn] ++ _)
      firedEngine :=
    .service rfl rfl (untimed _ rfl) ⟨trivial, trivial⟩ scheduled
  exact spawned

/-- The action fires in the frame that reaches its time, and its entity is freed. -/
theorem delayed_actions_awaited :
    Attends ⟨2, 2, 2⟩ (Engine.new {} 1)
      [.pool .spawn, .pool (.schedule 2 Single.one awaited), .advance Single.one] firedEngine ∧
    (Pool.new {}).Fate [.spawn, .schedule 2 Single.one awaited]
      [.advance Single.one, .takeDue, .free 2, .takeDue] 2 awaited Single.one ∧
    ∀ id e, firedEngine.state.pool.entity? id = some e →
      Pool.isDue firedEngine.state.pool.time e = false := by
  obtain ⟨-, fate, -, idle⟩ := delayed_actions attends_awaited
  have once : ((Pool.new {}).run [.spawn]).time.add Single.one = Single.one := by decide +kernel
  have given := fate _ timeline_awaited [.spawn] 2 Single.one awaited _ rfl (by decide) (by decide)
  exact ⟨attends_awaited, once ▸ given, idle Single.one waitingEngine _ rfl⟩

end EntityScripting.Engine
