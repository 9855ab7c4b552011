import EntityScripting.Proofs.Pool.Deadline
import Mathlib.Data.Finset.Card

/-!
# Actions whose time has come

No operation but one that gives an entity an action makes more actions due (`Settles`), and to take
one leaves fewer (`ripe_takeDue?`).
-/

namespace EntityScripting

open Number

/-- Whether a rule leaves the action of an entity, or that it has none, as it is. -/
def SpawnRule.Calm (rule : SpawnRule) : Prop :=
  ∀ id body, (rule id body).value.2.think = body.think ∧
    (rule id body).value.2.nextThink = body.nextThink

namespace Pool

/-- Whether a slot has an action whose time has come, be the slot in use or not. -/
def isRipe (now : Single) (e : Entity) : Bool := e.think.isSome && e.nextThink.le now

def ripe (p : Pool) : Finset EntityId :=
  (Finset.range p.size).filter fun id => (p.entity? id).any (isRipe p.time) = true

theorem mem_ripe {p : Pool} {id : EntityId} :
    id ∈ p.ripe ↔ ∃ e, p.entity? id = some e ∧ isRipe p.time e = true := by
  rw [ripe, Finset.mem_filter, Finset.mem_range, Option.any_eq_true]
  exact ⟨fun ⟨_, held⟩ => held, fun ⟨e, held, ripe⟩ => ⟨lt_size_of_entity? held, e, held, ripe⟩⟩

theorem isRipe_of_isDue {now : Single} {e : Entity} (due : isDue now e = true) :
    isRipe now e = true := by
  simp only [isDue, Bool.and_eq_true] at due
  simp only [isRipe, Bool.and_eq_true]
  exact ⟨due.1.2, due.2⟩

structure Settles (p q : Pool) : Prop where
  time : q.time = p.time
  ripe : q.ripe ⊆ p.ripe

namespace Settles

variable {p q r : Pool}

theorem refl (p : Pool) : p.Settles p := ⟨rfl, subset_rfl⟩

theorem trans (first : p.Settles q) (second : q.Settles r) : p.Settles r :=
  ⟨second.time.trans first.time, second.ripe.trans first.ripe⟩

theorem of_entities (time : q.time = p.time)
    (held : ∀ id e', q.entity? id = some e' → isRipe p.time e' = true →
      ∃ e, p.entity? id = some e ∧ isRipe p.time e = true) : p.Settles q := by
  refine ⟨time, fun id member => ?_⟩
  obtain ⟨e', found, ripe⟩ := mem_ripe.mp member
  rw [time] at ripe
  exact mem_ripe.mpr (held id e' found ripe)

theorem modify (p : Pool) (id : EntityId) {f : Entity → Entity}
    (kept : ∀ e, e.index = id → (f e).index = id)
    (calm : ∀ e, p.entity? id = some e → isRipe p.time (f e) = true → isRipe p.time e = true) :
    p.Settles (p.modify id f kept) := by
  refine of_entities rfl fun other e' found ripe => ?_
  rw [entity?_modify] at found
  split at found
  · rename_i same
    subst same
    obtain ⟨e, held, rfl⟩ := Option.map_eq_some_iff.mp found
    exact ⟨e, held, calm e held ripe⟩
  · exact ⟨e', found, ripe⟩

theorem modifyBody (p : Pool) (id : EntityId) {f : Body → Body}
    (think : ∀ body, (f body).think = body.think)
    (nextThink : ∀ body, (f body).nextThink = body.nextThink) : p.Settles (p.modifyBody id f) := by
  refine .modify p id _ fun e _ ripe => ?_
  simpa only [isRipe, Entity.withBody, think, nextThink] using ripe

theorem modifyFields (p : Pool) (id : EntityId) (f : Fields → Fields) :
    p.Settles (p.modifyFields id f) :=
  .modifyBody p id (fun _ => rfl) fun _ => rfl

theorem free (p : Pool) (id : EntityId) : p.Settles (p.free id).value := by
  unfold Pool.free
  split
  · exact .refl p
  · rw [Logged.value_pure]
    refine .modify p id _ fun e _ ripe => ?_
    split at ripe
    · cases ripe
    · exact ripe

theorem kill (p : Pool) (id : EntityId) : p.Settles (p.kill id).value := by
  unfold Pool.kill
  split
  · have counted : p.Settles { p with killed := p.killed + 1 } := ⟨rfl, subset_rfl⟩
    exact counted.trans (.free _ id)
  · exact .free p id

theorem spawn? {id : EntityId} (spawned : p.spawn? = some (id, q)) : p.Settles q := by
  unfold Pool.spawn? at spawned
  split at spawned
  · cases spawned
    exact .modify p id _ fun _ _ ripe => ripe
  · split at spawned
    · cases spawned
      refine of_entities rfl fun other e' found ripe => ?_
      rw [entity?_grow] at found
      split at found
      · cases found
        cases ripe
      · exact ⟨e', found, ripe⟩
    · cases spawned

theorem setUp (p : Pool) (id : EntityId)
    (calm : ∀ e rule, p.entity? id = some e →
      Item.find? p.items (Text.asciiLower e.classname) = none →
      p.spawnRules.get? (Text.asciiLower e.classname) = some rule → SpawnRule.Calm rule) :
    p.Settles (p.setUp id).value.2 := by
  unfold Pool.setUp
  split
  · exact .refl p
  rename_i e found
  dsimp only
  split
  · exact .refl p
  rename_i item
  split
  · exact .free p id
  rename_i rule ruled
  have left := calm e rule found (Option.not_isSome_iff_eq_none.mp item) ruled
  simp only [Logged.value_bind]
  generalize result : (rule e.index e.toBody).value = set
  obtain ⟨think, nextThink⟩ := left e.index e.toBody
  rw [result] at think nextThink
  have given : p.Settles (p.modifyBody id fun _ => set.2) := by
    refine .modify p id _ fun e' held ripe => ?_
    obtain rfl : e = e' := Option.some.inj (found.symm.trans held)
    simpa only [isRipe, Entity.withBody, think, nextThink] using ripe
  split
  · exact given
  · exact given.trans (.free _ id)

theorem touch (p : Pool) (item player : EntityId) :
    p.Settles (p.touch item player).value.2 := by
  have held (classname : String) (n : UInt32) : p.Settles (p.modifyBody player fun body =>
      { body with inventory := body.inventory.insert classname n }) :=
    .modifyBody p player (fun _ => rfl) fun _ => rfl
  unfold Pool.touch
  repeat' split
  all_goals first | exact .refl p | skip
  dsimp only
  split
  · exact held _ _
  · exact (held _ _).trans (.free _ item)

theorem schedule (p : Pool) (id : EntityId) {delay : Single} (think : Think)
    (later : (p.time.add delay).le p.time = false) : p.Settles (p.schedule id delay think) := by
  rw [Pool.schedule, Pool.modifyBody]
  refine .modify p id _ fun e _ ripe => ?_
  simp [isRipe, Entity.withBody, later] at ripe

end Settles

/-- What is taken is no longer due, and nothing else has become so. -/
theorem ripe_takeDue? {p q : Pool} {id : EntityId} {think : Think}
    (taken : p.takeDue? = some (id, think, q)) : p.Settles q ∧ q.ripe.card < p.ripe.card := by
  obtain ⟨first, -, rfl⟩ := takeDue?_eq_some taken
  obtain ⟨e, found, due, -⟩ := dueId?_eq_some first
  have settles : p.Settles (p.modifyBody id fun body => { body with think := none }) :=
    .modify p id _ fun e _ ripe => by cases ripe
  refine ⟨settles, Finset.card_lt_card (Finset.ssubset_iff_of_subset settles.ripe |>.mpr ?_)⟩
  refine ⟨id, mem_ripe.mpr ⟨e, found, isRipe_of_isDue due⟩, fun member => ?_⟩
  obtain ⟨e', held, ripe⟩ := mem_ripe.mp member
  rw [Pool.modifyBody, entity?_modify, if_pos rfl, found] at held
  cases held
  cases ripe

def Untaken (p : Pool) (ops : List Operation) (id : EntityId) (think : Think) (time : Single) :
    Prop :=
  ∀ front, front <+: ops → (p.run front).Carries id think time ∧
    ∀ other q, (p.run front).takeDue? ≠ some (id, other, q)

/-- Whether an action is not taken over a run as long as its entity is not released. -/
def Waits (p : Pool) (ops : List Operation) (id : EntityId) (think : Think) (time : Single) : Prop :=
  p.Untaken ops id think time ∨ ∃ during op rest, ops = during ++ op :: rest ∧
    p.Untaken during id think time ∧ (p.run during).Releases id op

theorem Carries.dueId?_ne {p : Pool} {id : EntityId} {think : Think} {time : Single}
    (carries : p.Carries id think time) (later : time.le p.time = false) :
    p.dueId? ≠ some id := by
  intro first
  rw [(carries.of_dueId? first).1] at later
  cases later

/-- An action whose time is after the clock waits while the clock stands. -/
theorem Carries.waits {p : Pool} {id : EntityId} {think : Think} {time : Single}
    (carries : p.Carries id think time) (later : time.le p.time = false) {ops : List Operation}
    (orderly : p.OrderlyRun ops) (still : ∀ seconds, .advance seconds ∉ ops) :
    p.Waits ops id think time := by
  have later' {front : List Operation} (part : front ⊆ ops) : time.le (p.run front).time = false := by
    rwa [time_run p fun seconds member => still seconds (part member)]
  have untaken {during : List Operation} (inside : during ⊆ ops)
      (pending : ∀ front, front <+: during → (p.run front).Carries id think time) :
      p.Untaken during id think time := by
    refine fun front part => ⟨pending front part, fun other q taken => ?_⟩
    have past := later' (List.Subset.trans part.subset inside)
    exact (pending front part).dueId?_ne past (takeDue?_eq_some taken).1
  rcases carries.run orderly with pending | ⟨during, op, rest, rfl, pending, ended, -⟩
  · exact .inl (untaken (List.Subset.refl ops) pending)
  · have inside : during ⊆ during ++ op :: rest := List.subset_append_left ..
    rcases ended with released | ⟨-, first⟩
    · exact .inr ⟨during, op, rest, rfl, untaken inside pending, released⟩
    · exact absurd first ((pending during List.prefix_rfl).dueId?_ne (later' inside))

end Pool

end EntityScripting
