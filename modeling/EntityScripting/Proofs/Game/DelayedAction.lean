import EntityScripting.Proofs.Game.Errand
import EntityScripting.Proofs.Pool.Handle
import EntityScripting.Proofs.Pool.Living

/-!
# Delayed actions

An action that a script has put off reaches the entity that it was meant for, or nothing.
`delayed_action_safe` says so for whatever operations come between the request and the moment when
the action is due.
-/

namespace EntityScripting

open Number Script

namespace Pool

theorem records_free {p : Pool} {id : EntityId} (free : p.isReserved id = false) :
    (p.free id).records = [] := by
  rw [Pool.free, free]
  rfl

theorem Posts.resolve {p q : Pool} {id target : EntityId} {delay : Single} {think : Think}
    {h : Handle} (posts : p.Posts q id delay think) (valid : h.resolve p = some target) :
    h.resolve q = some target := by
  obtain ⟨rfl, e, held, live, -⟩ := (h.resolve_eq_some_iff p target).mp valid
  have apart : h.slot ≠ id := by
    rintro rfl
    have occupied := isOccupied_iff.mpr ⟨e, held, live⟩
    rw [posts.vacant] at occupied
    cases occupied
  rw [← valid]
  simp only [Handle.resolve, Handle.entity?, posts.others h.slot apart]

theorem resolve_takeDue? {p q : Pool} {id : EntityId} {think : Think}
    (taken : p.takeDue? = some (id, think, q)) (h : Handle) : h.resolve q = h.resolve p := by
  rw [resolve_eq, resolve_eq, slot?_takeDue? taken]

/-- What is taken off an entity that carries an action is that action, and the fields stay. -/
theorem Carries.taken {p q : Pool} {id : EntityId} {think think' : Think} {time : Single}
    (carries : p.Carries id think time) (taken : p.takeDue? = some (id, think', q)) :
    think' = think ∧ q.isOccupied id = true ∧
      ∀ e, p.entity? id = some e → ∃ e', q.entity? id = some e' ∧ e'.fields = e.fields := by
  obtain ⟨e, found, live, held, -⟩ := carries
  obtain ⟨-, acted, rfl⟩ := takeDue?_eq_some taken
  rw [found, Option.bind_some, held] at acted
  have after : (p.modifyBody id fun body => { body with think := none }).entity? id =
      some (e.withBody { e.toBody with think := none }) := by
    rw [modifyBody, entity?_modify, if_pos rfl, found, Option.map_some]
  refine ⟨(Option.some.inj acted).symm, isOccupied_iff.mpr ⟨_, after, live⟩, fun other same => ?_⟩
  obtain rfl : e = other := Option.some.inj (found.symm.trans same)
  exact ⟨_, after, rfl⟩

end Pool

namespace Engine

def missedText : Errand → String
  | .trigger => "script delayed trigger target no longer exists"
  | .kill => "script delayed kill target no longer exists"
  | .message _ => "script delayed message target no longer exists"

/-- An action that reaches nothing, whatever a use would do: there is a record of it, and then the
helper is freed, which leaves the other slots as they are. -/
structure Misses (errand : Errand) (helper : EntityId) (think : Think) (engine : Engine) :
    Prop where
  fired : ∀ usage, fire usage helper think engine = some (engine.note .info (missedText errand))
  retired : retire (engine.state.pool.wrap helper) (engine.note .info (missedText errand)) =
    (engine.note .info (missedText errand)).update fun g =>
      { g with pool := (engine.state.pool.free helper).value }
  gone : (engine.state.pool.free helper).value.isOccupied helper = false
  others : ∀ other, other ≠ helper →
    (engine.state.pool.free helper).value.entity? other = engine.state.pool.entity? other

def reach (usage : Usage) (target helper : EntityId) (activator : Option EntityId)
    (engine : Engine) : Errand → Option Engine
  | .trigger =>
    if (engine.state.pool.entity? target).any fun e => e.use.isSome then
      usage ⟨target, some helper, activator⟩ engine
    else some (engine.note .info "script delayed trigger target no longer has a trigger function")
  | .kill => some (engine.update fun g => g.withPool (g.pool.kill target))
  | .message _ =>
    match (engine.state.pool.entity? helper).bind (·.fields.message) with
    | some text => some (engine.update fun g => g.announce target text)
    | none => some engine

theorem fire_of_resolve {usage : Usage} {errand : Errand} {h : Handle} {helper target : EntityId}
    {g : Game} {engine : Engine} (there : h.resolve engine.state.pool = some target) :
    fire usage helper (errand.think h g) engine =
      reach usage target helper
        ((Errand.activator? g).bind fun a => a.resolve engine.state.pool) engine errand := by
  cases errand with
  | trigger => simp only [Errand.think, fire, reach, there]
  | kill => simp only [Errand.think, fire, reach, there]
  | message text =>
    simp only [Errand.think, fire, reach, there]
    cases (engine.state.pool.entity? helper).bind (·.fields.message) <;> rfl

theorem misses_of_resolve {errand : Errand} {h : Handle} {helper : EntityId} {g : Game}
    {engine : Engine} (free : engine.state.pool.isReserved helper = false)
    (live : engine.state.pool.isOccupied helper = true)
    (gone : h.resolve engine.state.pool = none) :
    Misses errand helper (errand.think h g) engine where
  fired usage := by
    cases errand <;> simp only [Errand.think, fire, gone] <;> rfl
  retired := by
    obtain ⟨g, heap⟩ := engine
    have stamp : (g.pool.wrap helper).resolve g.pool = some helper := Pool.resolve_wrap_self live
    have same : (g.note .info (missedText errand)).pool = g.pool := rfl
    have silent : (g.pool.free helper).records = [] := Pool.records_free free
    simp only [retire, update, note, same, stamp, Game.withPool, silent, Array.appendList_nil]
  gone := Pool.isOccupied_free free
  others _ apart := engine.state.pool.entity?_free_of_ne apart

/-- Whatever happens between a request for a delayed action and the moment when its helper, which
has carried the action all along, is the first that is due: if the target has been released since,
the action misses, and otherwise it reaches the target. A trigger passes the activator on that was
recorded with the request if that has not been released either, and the helper has what it was given
unless something has written to it. -/
theorem delayed_action_safe {config : PoolConfig} {usage : Usage} {errand : Errand} {h : Handle}
    {delay : Single} {engine next : Engine} (made : (Pool.new config).Reaches engine.state.pool)
    (positive : Single.zero.lt delay = true)
    (asked : perform usage (errand.request h delay) engine = some (.ok (), next)) :
    ∃ helper target bearer, engine.state.pool.spawn?.map (·.1) = some helper ∧
      h.entity? engine.state.pool = some target ∧
      next.state.pool.entity? helper = some bearer ∧
      errand.Bears target.fields bearer.fields ∧
      next.state.pool.Carries helper (errand.think h engine.state)
        (engine.state.pool.time.add delay) ∧
      ∀ ops, next.state.pool.Pending ops helper (errand.think h engine.state)
          (engine.state.pool.time.add delay) →
        ∀ (now : Engine) think pool, now.state.pool = next.state.pool.run ops →
          now.state.pool.takeDue? = some (helper, think, pool) →
          let due := now.update fun g => { g with pool }
          (next.state.pool.releases h.slot ops < UInt32.size →
            if next.state.pool.releases h.slot ops = 0 then
              ∀ usage, fire usage helper think due = reach usage h.slot helper
                ((Errand.activator? engine.state).bind fun a => a.resolve pool) due errand
            else Misses errand helper think due) ∧
          (∀ a ∈ Errand.activator? engine.state, ∀ origin slot between,
            (Pool.new config).Reaches origin → a = origin.wrap slot →
            next.state.pool = origin.run between →
            origin.releases slot (between ++ ops) < UInt32.size - 1 →
            a.resolve pool =
              if origin.isOccupied slot = true ∧ origin.releases slot (between ++ ops) = 0 then
                some slot
              else none) ∧
          ((∀ op ∈ ops, op.writes helper = false) →
            ∃ e, pool.entity? helper = some e ∧ e.fields = bearer.fields) := by
  obtain ⟨helper, target, bearer, there, posts, held, bears⟩ := posted_of_perform positive asked
  refine ⟨helper, target, bearer, posts.spawned, there, held, bears, posts.carries, ?_⟩
  intro ops pending now think pool led taken due
  have carries := pending ops List.prefix_rfl
  rw [← led] at carries
  obtain ⟨rfl, occupied, kept⟩ := carries.taken taken
  have reserved := posts.reserved (Pool.maxClients_lt_of_made made)
  have free : pool.isReserved helper = false := by
    have reach : next.state.pool.Reaches pool := Pool.Reaches.takeDue? ⟨ops, led⟩ taken
    rw [Pool.isReserved, reach.extent.maxClients]
    exact reserved
  refine ⟨fun few => ?target,
    fun a recorded origin slot between begun wrapped later few => ?activator, fun clear => ?helper⟩
  case target =>
    have valid : h.resolve engine.state.pool = some h.slot := Handle.resolve_of_entity? there
    have resolved := Pool.resolve_run (posts.resolve valid) ops few
    rw [← led, ← Pool.resolve_takeDue? taken] at resolved
    split at resolved
    · rename_i never
      rw [if_pos never]
      exact fun usage => fire_of_resolve resolved
    · rename_i released
      rw [if_neg released]
      exact misses_of_resolve free occupied resolved
  case activator =>
    have world : origin.HasWorld := Pool.hasWorld_of_made begun
    have resolved := world.resolve_wrap slot (between ++ ops) few
    rw [Pool.run_append, ← later, ← led, ← wrapped, ← Pool.resolve_takeDue? taken] at resolved
    exact resolved
  case helper =>
    have live : ∀ front, front <+: ops → (next.state.pool.run front).isOccupied helper = true :=
      fun front part => (pending front part).isOccupied
    obtain ⟨e, found, same⟩ := Pool.fields_run reserved clear live held
    rw [← led] at found
    obtain ⟨e', found', same'⟩ := kept e found
    exact ⟨e', found', same'.trans same⟩

def guardedEngine : Engine where
  state := { config := {}, pool := (Pool.new {}).run [.spawn], api := 0 }
  heap := {}

def condemnedEngine : Engine :=
  guardedEngine.update fun g => (g.kill ⟨2, 0⟩ Single.one).2

/-- The entity has been freed when its time comes, and another is in its slot. -/
def succeededEngine : Engine :=
  condemnedEngine.update fun g =>
    { g with pool := g.pool.run [.free 2, .spawn, .advance Single.one] }

theorem delayed_action_safe_reused :
    succeededEngine.state.pool.isOccupied 2 = true ∧
    ∃ pool, succeededEngine.state.pool.takeDue? = some (3, .kill ⟨2, 0⟩, pool) ∧
      Misses .kill 3 (.kill ⟨2, 0⟩) (succeededEngine.update fun g => { g with pool }) := by
  have made : (Pool.new {}).Reaches guardedEngine.state.pool := ⟨[.spawn], rfl⟩
  have asked : perform (fun _ _ => none) (Errand.kill.request ⟨2, 0⟩ Single.one) guardedEngine =
      some (.ok (), condemnedEngine) := by
    rfl
  obtain ⟨helper, target, bearer, spawned, -, -, -, carries, safe⟩ :=
    delayed_action_safe made (by decide) asked
  obtain rfl : 3 = helper := Option.some.inj spawned
  have pending : condemnedEngine.state.pool.Pending [.free 2, .spawn, .advance Single.one] 3
      (.kill ⟨2, 0⟩) (guardedEngine.state.pool.time.add Single.one) := by
    intro front part
    rw [← List.mem_inits] at part
    simp only [List.inits, List.map_cons, List.map_nil, List.mem_cons, List.not_mem_nil,
      or_false] at part
    rcases part with rfl | rfl | rfl | rfl
    all_goals exact ⟨_, rfl, rfl, rfl, rfl⟩
  have first : succeededEngine.state.pool.dueId? = some 3 := by decide +kernel
  have taken := (pending _ List.prefix_rfl).takeDue? first
  refine ⟨by decide, _, taken, ?_⟩
  obtain ⟨missed, -⟩ := safe _ pending succeededEngine _ _ rfl taken
  have once : condemnedEngine.state.pool.releases 2 [.free 2, .spawn, .advance Single.one] = 1 := by
    decide +kernel
  have missed := missed (by rw [once]; decide)
  rwa [if_neg (by rw [once]; decide)] at missed

end Engine

end EntityScripting
