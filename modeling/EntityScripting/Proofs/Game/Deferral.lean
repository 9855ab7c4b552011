import EntityScripting.Proofs.Game.Errand
import EntityScripting.Proofs.Game.Trace
import EntityScripting.Proofs.Number.Gap
import EntityScripting.Proofs.Pool.Ripe

/-!
# Positive delays

A delay puts an action off if and only if the clock can tell it: otherwise the sum of the two is
rounded to the time that it is, and the action is due at once (`positive_delay`). A frame in which
scripts ask only for delays that the clock can tell comes to its end.
-/

namespace EntityScripting

open Number Script

theorem Item.find?_asciiLower {items : List Item} {name : String} {item : Item}
    (found : find? items name = some item) :
    (find? items (Text.asciiLower item.classname)).isSome = true := by
  refine List.find?_isSome.mpr ⟨item, List.mem_of_find?_eq_some found, ?_⟩
  simp [Text.sameIgnoringCase]

/-! ### Requests -/

namespace Pool

theorem covers_settles : Covers Settles where
  refl := .refl
  trans := .trans
  spawn? := .spawn?
  write p id _ _ kept := .modifyBody p id (fun body => (kept body).1) fun body => (kept body).2.1
  free := .free
  kill := .kill
  touch := .touch
  centerPrint _ _ _ := ⟨rfl, subset_rfl⟩
  sound _ _ _ := ⟨rfl, subset_rfl⟩

theorem catalogs_of_spawn? {p q : Pool} {id : EntityId} (spawned : p.spawn? = some (id, q)) :
    q.spawnRules = p.spawnRules ∧ q.items = p.items := by
  unfold spawn? at spawned
  split at spawned
  · cases spawned
    exact ⟨rfl, rfl⟩
  · split at spawned
    · cases spawned
      exact ⟨rfl, rfl⟩
    · cases spawned

/-- A new entity is set up by the rule of the class that it is made with, unless that is an item. -/
theorem setsUp_settles {p : Pool} {classname : String}
    (calm : ∀ rule, Item.find? p.items (Text.asciiLower classname) = none →
      p.spawnRules.get? (Text.asciiLower classname) = some rule → SpawnRule.Calm rule) :
    p.SetsUp Settles classname := by
  intro id q f spawned named
  obtain ⟨rules, items⟩ := catalogs_of_spawn? spawned
  have made := (Settles.spawn? spawned).trans (.modifyFields q id f)
  refine made.trans (.setUp _ id fun e rule found item ruled => ?_)
  have same : e.classname = classname := by
    obtain ⟨e', held, -⟩ := (claims_of_spawn? spawned).live
    rw [entity?_modifyFields held] at found
    cases found
    simp [Body.classname, Entity.withBody, named]
  rw [same] at item ruled
  have item' : Item.find? q.items (Text.asciiLower classname) = none := item
  have ruled' : q.spawnRules.get? (Text.asciiLower classname) = some rule := ruled
  rw [items] at item'
  rw [rules] at ruled'
  exact calm rule item' ruled'

theorem schedules_settles {p : Pool} {delay : Single}
    (later : (p.time.add delay).le p.time = false) : p.Schedules Settles delay := by
  intro id q f think spawned
  have made := (Settles.spawn? spawned).trans (.modifyFields q id f)
  refine made.trans (.schedule _ id think ?_)
  rwa [made.time]

end Pool

namespace Engine

variable {engine next : Engine} {limits : Limits}

/-- Whether nothing is due at once of what a script asks for: each delay is one that the clock can
tell, and a class sets its entities up without an action. -/
def Defers : Happening Game → Prop
  | .ask (.trigger _ delay) engine | .ask (.kill _ delay) engine
  | .ask (.message _ _ delay) engine =>
    Single.zero.lt delay = true → engine.state.pool.time.Tells delay
  | .ask (.spawn classname _ _) engine =>
    ∀ rule, engine.state.pool.spawnRules.get? (Text.asciiLower classname) = some rule →
      SpawnRule.Calm rule
  | _ => True

def Timed (engine : Engine) : Prop :=
  engine.state.pool.time.IsTime ∧ engine.state.pool.time.isFinite = true

theorem Timed.later_iff (timed : engine.Timed) {delay : Single}
    (positive : Single.zero.lt delay = true) :
    (engine.state.pool.time.add delay).le engine.state.pool.time = false ↔
      engine.state.pool.time.Tells delay := by
  have sum := (timed.1.add (Single.isTime_of_zero_lt positive)).1
  rw [← Single.lt_add_iff timed.1 timed.2 positive, timed.1.lt_eq_not_le sum, Bool.not_eq_true']

theorem Timed.settles (timed : engine.Timed)
    (settles : engine.state.pool.Settles next.state.pool) : next.Timed := by
  unfold Timed
  rwa [settles.time]

theorem allows_settles (timed : engine.Timed) {α : Type} {request : Request α}
    (defers : Defers (.ask request engine)) :
    engine.state.pool.Allows Pool.Settles request := by
  have later {delay : Single} (told : Single.zero.lt delay = true →
      engine.state.pool.time.Tells delay) (positive : Single.zero.lt delay = true) :
      engine.state.pool.Schedules Pool.Settles delay :=
    Pool.schedules_settles ((timed.later_iff positive).mpr (told positive))
  cases request with
  | spawn classname => exact Pool.setsUp_settles fun rule _ => defers rule
  | give h name =>
    -- The class of an item is that of the item itself, which no rule sets up.
    intro item known
    refine Pool.setsUp_settles fun rule none => ?_
    have found := Item.find?_asciiLower known
    rw [none] at found
    cases found
  | trigger | kill | message => exact later defers
  | _ => trivial

theorem settles_perform {usage : Usage} {α : Type} {request : Request α} {answer : α}
    (timed : engine.Timed) (none : used? request engine = none)
    (defers : Defers (.ask request engine))
    (performed : perform usage request engine = some (answer, next)) :
    engine.state.pool.Settles next.state.pool := by
  have allows := allows_settles timed defers
  cases request with
  | setVariable kind name d =>
    cases performed
    rcases Game.assignVariable_cases kind name d engine.state with ⟨e, refused⟩ |
      ⟨value, table, -, -, done⟩
    · rw [refused]
      exact .refl _
    · rw [done, Game.pool_withTable]
      exact .refl _
  | _ => exact (moves_perform Pool.covers_settles rfl none allows performed).pool

theorem accounts_settles :
    Accounts fun engine happenings next => engine.Timed →
      (∀ happening ∈ happenings, Defers happening) →
      engine.state.pool.Settles next.state.pool where
  quiet quiet _ _ := Pool.covers_settles.barely quiet.pool
  append first second timed defers := by
    have before := first timed fun happening member => defers _ (List.mem_append_left _ member)
    exact before.trans (second (timed.settles before) fun happening member =>
      defers _ (List.mem_append_right _ member))
  access _ _ _ _ := .refl _
  answer request _ _ _ none performed timed defers :=
    settles_perform timed none (defers _ List.mem_cons_self) performed
  entrust _ _ _ _ _ _ := .refl _

/-! ### Frames -/

inductive Stuck (usage : Usage) : Engine → Prop where
  | here {engine : Engine} {helper : EntityId} {think : Think} {pool : Pool} :
      engine.state.pool.takeDue? = some (helper, think, pool) →
      fire usage helper think (engine.update fun g => { g with pool }) = none →
      Stuck usage engine
  | later {engine after : Engine} {helper : EntityId} {think : Think} {pool : Pool} :
      engine.state.pool.takeDue? = some (helper, think, pool) →
      fire usage helper think (engine.update fun g => { g with pool }) = some after →
      Stuck usage (retire (pool.wrap helper) after) → Stuck usage engine

/-- A frame in which nothing becomes due at once carries out what was due when it began and no
more. -/
theorem fireDue_ends {count : Nat} (timed : engine.Timed)
    (few : engine.state.pool.ripe.card < count)
    (defers : ∀ happening ∈ fireTrace limits count engine, Defers happening) :
    (∃ next, fireDue (use limits) count engine = some next) ∨ Stuck (use limits) engine := by
  induction count generalizing engine with
  | zero => omega
  | succ count ih =>
    unfold fireTrace at defers
    unfold fireDue
    cases taken : engine.state.pool.takeDue? with
    | none => exact .inl ⟨engine, rfl⟩
    | some first =>
      obtain ⟨helper, think, pool⟩ := first
      rw [taken] at defers
      dsimp only at defers ⊢
      cases fired : fire (use limits) helper think (engine.update fun g => { g with pool }) with
      | none => exact .inr (.here taken fired)
      | some after =>
        rw [fired] at defers
        -- To take the action leaves fewer that are due, and to carry it out makes no other due.
        obtain ⟨took, fewer⟩ := Pool.ripe_takeDue? taken
        have timed' : (engine.update fun g => { g with pool }).Timed := timed.settles took
        have acted := fire_accounts accounts_settles fired timed' fun happening member =>
          defers _ (List.mem_append_left _ member)
        have retires := Pool.covers_settles.barely (quiet_retire (pool.wrap helper) after).pool
        have settles := acted.trans retires
        have less := Finset.card_le_card settles.ripe
        have few' : pool.ripe.card < count := by omega
        rcases ih (timed'.settles settles) (less.trans_lt few') fun happening member =>
          defers _ (List.mem_append_right _ member) with ended | stuck
        · exact .inl ended
        · exact .inr (.later taken fired stuck)

/-- Whenever the clock is finite: the helper of a request with a positive delay is due at once if
and only if the clock cannot tell the delay, and if it can, the helper is not taken before the clock
moves on. And a frame ends, unless it comes to an action that the limits do not suffice for, in
which scripts ask only for delays that the clock can tell and for entities that their class sets up
without an action; it carries out no more than was due when it began. -/
theorem positive_delay {config : PoolConfig} {engine : Engine}
    (made : (Pool.new config).Reaches engine.state.pool)
    (finite : engine.state.pool.time.isFinite = true) :
    (∀ usage (errand : Errand) h delay next, Single.zero.lt delay = true →
      perform usage (errand.request h delay) engine = some (.ok (), next) →
      ∃ helper bearer, engine.state.pool.spawn?.map (·.1) = some helper ∧
        next.state.pool.entity? helper = some bearer ∧
        next.state.pool.time = engine.state.pool.time ∧
        (Pool.isDue next.state.pool.time bearer = false ↔ engine.state.pool.time.Tells delay) ∧
        (engine.state.pool.time.Tells delay → ∀ ops, next.state.pool.OrderlyRun ops →
          (∀ seconds, .advance seconds ∉ ops) →
          next.state.pool.Waits ops helper (errand.think h engine.state)
            (engine.state.pool.time.add delay))) ∧
    ∀ limits count, engine.state.pool.ripe.card < count →
      (∀ happening ∈ fireTrace limits count engine, Defers happening) →
      (∃ next, fireDue (use limits) count engine = some next) ∨ Stuck (use limits) engine := by
  obtain ⟨before, led⟩ := made
  have timed : engine.Timed := by
    refine ⟨?_, finite⟩
    rw [led]
    exact Pool.isTime_run Single.isTime_zero before
  refine ⟨fun usage errand h delay next positive asked => ?helper,
    fun limits count few defers => fireDue_ends timed few defers⟩
  obtain ⟨helper, -, -, -, posts, -⟩ := posted_of_perform positive asked
  obtain ⟨bearer, held, live, acts, time⟩ := posts.carries
  refine ⟨helper, bearer, posts.spawned, held, posts.time, ?_, fun told ops orderly still => ?_⟩
  · rw [← timed.later_iff positive, posts.time]
    simp [Pool.isDue, live, acts, time]
  · refine posts.carries.waits ?_ orderly still
    rw [posts.time]
    exact (timed.later_iff positive).mpr told

/-- An engine whose entity in slot 2 is to kill, at once, one that is not there. -/
def ringingEngine : Engine :=
  (Engine.new {} 1).update fun g => { g with
    pool := g.pool.run [.spawn, .schedule 2 Single.one (.kill ⟨3, 0⟩), .advance Single.one] }

theorem tells_one : ringingEngine.state.pool.time.Tells Single.one := by
  have time : ringingEngine.state.pool.time.read = .finite false 0x800000 (-23) := by decide +kernel
  have delay : Single.one.read = .finite false 0x800000 (-23) := by decide +kernel
  simp only [Single.Tells, time, delay]
  norm_num

theorem positive_delay_told :
    (∃ next bearer, perform (fun _ _ => none) (Errand.kill.request ⟨2, 0⟩ Single.one)
        ringingEngine = some (.ok (), next) ∧
      next.state.pool.entity? 3 = some bearer ∧
      Pool.isDue next.state.pool.time bearer = false ∧
      next.state.pool.Waits [.takeDue, .takeDue] 3 (.kill ⟨2, 0⟩)
        (ringingEngine.state.pool.time.add Single.one)) ∧
    ((∃ next, fireDue (use ⟨2, 2, 2⟩) 2 ringingEngine = some next) ∨
      Stuck (use ⟨2, 2, 2⟩) ringingEngine) := by
  have made : (Pool.new {}).Reaches ringingEngine.state.pool := ⟨_, rfl⟩
  obtain ⟨posted, ends⟩ := positive_delay made (by decide +kernel)
  refine ⟨?_, ends ⟨2, 2, 2⟩ 2 (by decide +kernel) ?_⟩
  · obtain ⟨helper, bearer, spawned, held, -, due, waits⟩ :=
      posted (fun _ _ => none) .kill ⟨2, 0⟩ Single.one _ (by decide +kernel) rfl
    obtain rfl : 3 = helper := Option.some.inj spawned
    refine ⟨_, bearer, rfl, held, due.mpr tells_one, waits tells_one _ ⟨trivial, trivial, trivial⟩ ?_⟩
    simp
  · have silent : fireTrace ⟨2, 2, 2⟩ 2 ringingEngine = [] := rfl
    rw [silent]
    exact fun _ member => nomatch member

/-- The float nearest to a hundred-millionth. -/
def tinyDelay : Single := ⟨0x322bcc77⟩

def secondEngine : Engine :=
  (Engine.new {} 1).update fun g => { g with pool := g.pool.run [.spawn, .advance Single.one] }

/-- A second later a hundred-millionth of a second puts nothing off. -/
theorem tiny_delay_due_at_once :
    Reachable ⟨2, 2, 2⟩ secondEngine ∧ secondEngine.state.pool.time.isFinite = true ∧
      Single.zero.lt tinyDelay = true ∧
      ∃ next pool, perform (fun _ _ => none) (Errand.kill.request ⟨2, 0⟩ tinyDelay) secondEngine =
          some (.ok (), next) ∧
        next.state.pool.time = secondEngine.state.pool.time ∧
        next.state.pool.takeDue? = some (3, .kill ⟨2, 0⟩, pool) := by
  have began : Reachable ⟨2, 2, 2⟩ (Engine.new {} 1) := .new {} 1
  have spawned := Reachable.obey (.pool .spawn) began rfl
  exact ⟨.obey (.advance Single.one) spawned rfl, by decide +kernel, by decide +kernel,
    _, _, rfl, rfl, rfl⟩

end Engine

end EntityScripting
