import EntityScripting.Proofs.Game.Primitive
import EntityScripting.Proofs.Pool.Deadline

/-!
# Requests that are put off

A script that asks for a trigger, a kill or a message after a delay leaves an entity behind, the
helper, which carries the action until its time comes. `posted_of_perform` says what there is then.
-/

namespace EntityScripting

open Number Script

inductive Errand where
  | trigger
  | kill
  | message (text : String)

namespace Errand

def request (target : Handle) (delay : Single) : Errand → Request (Except ScriptError Unit)
  | .trigger => .trigger target delay
  | .kill => .kill target delay
  | .message text => .message target text delay

def activator? (g : Game) : Option Handle := g.triggers.current?.bind (·.activator)

def think (target : Handle) (g : Game) : Errand → Think
  | .trigger => .trigger target (activator? g)
  | .kill => .kill target
  | .message _ => .message target

/-- What a helper has of its target, or of the request, beside the action. -/
def Bears (target helper : Fields) : Errand → Prop
  | .trigger => helper.scriptArg = target.scriptArg
  | .kill => True
  | .message text => helper.message = some text

end Errand

namespace Pool

structure Posts (p q : Pool) (id : EntityId) (delay : Single) (think : Think) : Prop where
  spawned : p.spawn?.map (·.1) = some id
  vacant : p.isOccupied id = false
  reserved : p.maxClients < p.size → q.isReserved id = false
  others : ∀ other, other ≠ id → q.entity? other = p.entity? other
  time : q.time = p.time
  carries : q.Carries id think (p.time.add delay)
  scheduled : ∃ f more, q = p.run (.spawn :: .write id f :: .schedule id delay think :: more) ∧
    (p.run [.spawn, .write id f]).isOccupied id = true

theorem Posts.modifyFields {p q : Pool} {id : EntityId} {delay : Single} {think : Think}
    (posts : p.Posts q id delay think) (f : Fields → Fields) :
    p.Posts (q.modifyFields id f) id delay think where
  spawned := posts.spawned
  vacant := posts.vacant
  reserved := posts.reserved
  others other apart := by
    rw [Pool.modifyFields, modifyBody, entity?_modify, if_neg (Ne.symm apart),
      posts.others other apart]
  time := posts.time
  carries := by
    obtain ⟨e, held, live, think, time⟩ := posts.carries
    exact ⟨_, entity?_modifyFields held f, live, think, time⟩
  scheduled := by
    obtain ⟨made, more, led, live⟩ := posts.scheduled
    refine ⟨made, more ++ [.write id fun body => { body with fields := f body.fields }], ?_, live⟩
    rw [← List.cons_append, ← List.cons_append, ← List.cons_append, run_append, ← led]
    rfl

theorem posts_of_spawn? {p q : Pool} {id : EntityId} (spawned : p.spawn? = some (id, q))
    (f : Fields → Fields) (delay : Single) (think : Think) :
    p.Posts ((q.modifyFields id f).schedule id delay think) id delay think ∧
      ∃ fields e, ((q.modifyFields id f).schedule id delay think).entity? id = some e ∧
        e.fields = f fields := by
  have claims := claims_of_spawn? spawned
  obtain ⟨e, held, live⟩ := claims.live
  have written := entity?_modifyFields held f
  have occupied : (q.modifyFields id f).isOccupied id = true :=
    isOccupied_iff.mpr ⟨_, written, live⟩
  have same : ((q.modifyFields id f).time.add delay) = p.time.add delay :=
    congrArg (·.add delay) claims.time
  have made : p.run [.spawn, .write id fun body => { body with fields := f body.fields }] =
      q.modifyFields id f := by
    have spawn : p.apply .spawn = q := by simp [Pool.apply, spawned]
    rw [run_cons, spawn]
    rfl
  refine ⟨⟨by rw [spawned]; rfl, claims.vacant, fun grown => ?_, fun other apart => ?_, claims.time,
    ?_, ?_⟩, e.fields, _, entity?_schedule written delay think, rfl⟩
  · have reserved := claims.reserved grown
    rw [isReserved] at reserved ⊢
    rwa [← claims.maxClients] at reserved
  · rw [schedule, modifyBody, entity?_modify, if_neg (Ne.symm apart), Pool.modifyFields, modifyBody,
      entity?_modify, if_neg (Ne.symm apart), claims.others other apart]
  · exact same ▸ carries_schedule delay think occupied
  · refine ⟨fun body => { body with fields := f body.fields }, [], ?_, made ▸ occupied⟩
    have steps : p.run ([.spawn, .write id fun body => { body with fields := f body.fields }] ++
        [.schedule id delay think]) = (q.modifyFields id f).schedule id delay think := by
      rw [run_append, made]
      rfl
    exact steps.symm

end Pool

namespace Game

variable {g g' : Game}

theorem posts_of_postpone {target : Handle} {delay : Single} {think : Think} {id : EntityId}
    (done : postpone target delay think g = (.ok id, g')) :
    g.pool.Posts g'.pool id delay think ∧
      ∃ e e', target.entity? g.pool = some e ∧ g'.pool.entity? id = some e' ∧
        ∀ h activator, think = .trigger h activator → e'.fields.scriptArg = e.fields.scriptArg := by
  unfold postpone at done
  split at done
  · cases done
  rename_i e found
  dsimp only at done
  split at done
  · cases done
  rename_i new pool spawned
  obtain ⟨rfl, rfl⟩ : new = id ∧ _ = g' := by simpa using done
  obtain ⟨posts, fields, e', held, wrote⟩ := Pool.posts_of_spawn? spawned _ delay think
  refine ⟨posts, e, e', entity?_of_entity found, held, ?_⟩
  rintro h activator rfl
  rw [wrote]

theorem postpone_of_trigger {h : Handle} {delay : Single} {result : Option UseEvent}
    (positive : Single.zero.lt delay = true) (done : trigger h delay g = (.ok result, g')) :
    result = none ∧ ∃ id, postpone h delay (Errand.trigger.think h g) g = (.ok id, g') := by
  unfold trigger at done
  split at done
  · cases done
  split at done
  · cases done
  dsimp only at done
  obtain ⟨outcome, last⟩ := Prod.mk.inj done
  generalize postponed : postpone h delay (.trigger h (g.triggers.current?.bind (·.activator))) g =
    posted at outcome last
  obtain ⟨_ | id, g''⟩ := posted
  · cases outcome
  · cases outcome
    cases last
    exact ⟨rfl, id, postponed⟩

theorem scheduled_eq_ok {outcome : Except ScriptError EntityId × Game}
    (done : scheduled outcome = (.ok (), g')) : ∃ id, outcome = (.ok id, g') := by
  obtain ⟨_ | id, g''⟩ := outcome
  · cases done
  · cases done
    exact ⟨id, rfl⟩

theorem postpone_of_kill {h : Handle} {delay : Single} (positive : Single.zero.lt delay = true)
    (done : kill h delay g = (.ok (), g')) :
    ∃ id, postpone h delay (.kill h) g = (.ok id, g') := by
  unfold kill at done
  split at done
  · cases done
  split at done
  · cases done
  exact scheduled_eq_ok done

theorem postpone_of_message {h : Handle} {text : String} {delay : Single}
    (positive : Single.zero.lt delay = true) (done : message h text delay g = (.ok (), g')) :
    ∃ id posted, postpone h delay (.message h) g = (.ok id, posted) ∧
      g' = (posted.intern text).modifyFields id fun fields =>
        { fields with message := some text } := by
  unfold message at done
  split at done
  · cases done
  split at done
  · cases done
  obtain ⟨id, posted⟩ := scheduled_eq_ok done
  unfold postponeMessage at posted
  split at posted
  · cases posted
  · rename_i postponed
    cases posted
    exact ⟨_, _, postponed, rfl⟩

end Game

namespace Engine

/-- A request that is put off is for an entity that is there, and leaves a helper. -/
theorem posted_of_perform {usage : Usage} {errand : Errand} {h : Handle} {delay : Single}
    {engine next : Engine} (positive : Single.zero.lt delay = true)
    (asked : perform usage (errand.request h delay) engine = some (.ok (), next)) :
    ∃ helper target made, h.entity? engine.state.pool = some target ∧
      engine.state.pool.Posts next.state.pool helper delay (errand.think h engine.state) ∧
      next.state.pool.entity? helper = some made ∧ errand.Bears target.fields made.fields := by
  obtain ⟨g, heap⟩ := engine
  cases errand with
  | trigger =>
    simp only [Errand.request, perform] at asked
    generalize triggered : Game.trigger h delay g = result at asked
    obtain ⟨_ | event, g'⟩ := result
    · cases asked
    obtain ⟨rfl, helper, postponed⟩ := Game.postpone_of_trigger positive triggered
    cases asked
    obtain ⟨posts, target, made, there, held, copied⟩ := Game.posts_of_postpone postponed
    exact ⟨helper, target, made, there, posts, held, copied _ _ rfl⟩
  | kill =>
    obtain ⟨done, rfl⟩ := Prod.mk.inj (Option.some.inj asked)
    obtain ⟨helper, postponed⟩ := Game.postpone_of_kill positive (Prod.ext done rfl)
    obtain ⟨posts, target, made, there, held, -⟩ := Game.posts_of_postpone postponed
    exact ⟨helper, target, made, there, posts, held, trivial⟩
  | message text =>
    obtain ⟨done, rfl⟩ := Prod.mk.inj (Option.some.inj asked)
    obtain ⟨helper, posted, postponed, led⟩ :=
      Game.postpone_of_message positive (Prod.ext done rfl)
    obtain ⟨posts, target, made, there, held, -⟩ := Game.posts_of_postpone postponed
    have pool : (Game.message h text delay g).2.pool =
        posted.pool.modifyFields helper fun fields => { fields with message := some text } :=
      congrArg Game.pool led
    have wrote := Pool.entity?_modifyFields held fun fields => { fields with message := some text }
    rw [← pool] at wrote
    exact ⟨helper, target, _, there, pool ▸ posts.modifyFields _, wrote, rfl⟩

end Engine

end EntityScripting
