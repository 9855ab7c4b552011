import Mathlib.Data.Finset.Card
import Mathlib.Logic.Relation
import EntityScripting.Proofs.Game.Relay

/-!
# Relays that use relays

A relay uses its targets before it is done, and a target that is a relay does the same. Where there
is nothing but relays and entities without a use, a use comes to an end unless it leads to a relay
that uses itself in the end: nothing on the way back to it would stop it. `relays_end_iff` says so,
and `relay_of_itself_never_ends` is the shortest way round.
-/

namespace EntityScripting

open Number Script

namespace Pool

def Relays (p : Pool) (id next : EntityId) : Prop :=
  ∃ e name, p.entity? id = some e ∧ e.inUse = true ∧ e.use = some .relay ∧
    e.fields.target = some name ∧ next ∈ p.find .targetname name

def RelaysOnly (p : Pool) : Prop :=
  ∀ id e, p.entity? id = some e → e.inUse = true → e.use = none ∨ e.use = some .relay

/-- A chain of relays leads to one that uses itself in the end. -/
def Loops (p : Pool) (id : EntityId) : Prop :=
  ∃ hub, Relation.ReflTransGen p.Relays id hub ∧ Relation.TransGen p.Relays hub hub

variable {p : Pool} {id next : EntityId}

/-- A target name matches up to case; nothing else of an entity in use is looked at. -/
theorem mem_find_targetname_iff {name : String} :
    id ∈ p.find .targetname name ↔ id ≠ worldId ∧ ∃ e text, p.entity? id = some e ∧
      e.inUse = true ∧ e.fields.targetname = some text ∧
        Text.sameIgnoringCase text name = true := by
  rw [mem_find_iff]
  refine and_congr_right fun _ => exists_congr fun e => ?_
  have named : e.fields.text? .targetname = e.fields.targetname := rfl
  simp only [named, Option.any_eq_true, exists_and_left]

theorem isOccupied_of_mem_find {field : Field} {value : String} (member : id ∈ p.find field value) :
    p.isOccupied id = true := by
  obtain ⟨-, e, found, live, -⟩ := mem_find_iff.mp member
  exact isOccupied_iff.mpr ⟨e, found, live⟩

theorem Relays.lt_size (relays : p.Relays id next) : next < p.size := by
  obtain ⟨_, _, _, _, _, _, member⟩ := relays
  obtain ⟨-, e, held, -⟩ := mem_find_iff.mp member
  exact lt_size_of_entity? held

/-- A chain that leads into a circle goes on. -/
theorem Loops.exists_next (loops : p.Loops id) : ∃ next, p.Relays id next ∧ p.Loops next := by
  obtain ⟨hub, chain, circle⟩ := loops
  rcases Relation.ReflTransGen.cases_head chain with rfl | ⟨next, step, rest⟩
  · obtain ⟨next, step, rest⟩ := Relation.TransGen.head'_iff.mp circle
    exact ⟨next, step, id, rest, circle⟩
  · exact ⟨next, step, hub, rest, circle⟩

theorem Loops.of_relays (relays : p.Relays id next) (loops : p.Loops next) : p.Loops id := by
  obtain ⟨hub, chain, circle⟩ := loops
  exact ⟨hub, .head relays chain, circle⟩

open Classical in
noncomputable def ahead (p : Pool) (id : EntityId) : Finset EntityId :=
  (Finset.range p.size).filter (Relation.TransGen p.Relays id)

theorem mem_ahead {far : EntityId} :
    far ∈ p.ahead id ↔ far < p.size ∧ Relation.TransGen p.Relays id far := by
  simp only [ahead, Finset.mem_filter, Finset.mem_range]

theorem card_ahead_le (p : Pool) (id : EntityId) : (p.ahead id).card ≤ p.size := by
  have within : p.ahead id ⊆ Finset.range p.size :=
    fun far member => Finset.mem_range.mpr (mem_ahead.mp member).1
  simpa using Finset.card_le_card within

/-- Without a circle there is less ahead with every relay of a chain. -/
theorem card_ahead_lt (relays : p.Relays id next) (ends : ¬ p.Loops id) :
    (p.ahead next).card < (p.ahead id).card := by
  have fewer : p.ahead next ⊆ p.ahead id := by
    intro far member
    obtain ⟨inside, chain⟩ := mem_ahead.mp member
    exact mem_ahead.mpr ⟨inside, .head relays chain⟩
  refine Finset.card_lt_card ((Finset.ssubset_iff_of_subset fewer).mpr ⟨next, ?_, ?_⟩)
  · exact mem_ahead.mpr ⟨relays.lt_size, .single relays⟩
  · -- What is ahead of itself is on a circle.
    intro member
    obtain ⟨-, circle⟩ := mem_ahead.mp member
    exact ends ⟨next, .single relays, circle⟩

end Pool

namespace Engine

def withLog (engine : Engine) (log : Array Record) : Engine :=
  engine.update fun g => { g with log }

@[simp] theorem withLog_pool (engine : Engine) (log : Array Record) :
    (engine.withLog log).state.pool = engine.state.pool := rfl

@[simp] theorem withLog_withLog (engine : Engine) (log log' : Array Record) :
    (engine.withLog log).withLog log' = engine.withLog log' := rfl

def OnlyLogs (usage : Usage) (p : Pool) : Prop :=
  ∀ ⦃event : UseEvent⦄ ⦃engine next : Engine⦄, engine.state.pool = p →
    usage event engine = some next → ∃ log, next = engine.withLog log

/-! ### The targets of a relay -/

theorem mem_relayTargets {g : Game} {id target : EntityId} {h : Handle}
    (relay : behavior? g id = some .relay) (member : h ∈ relayTargets g id)
    (resolved : h.resolve g.pool = some target) : g.pool.Relays id target := by
  unfold behavior? at relay
  split at relay
  · rename_i e found
    split at relay
    · rename_i live
      unfold relayTargets at member
      rw [found] at member
      split at member
      · rename_i name aimed
        obtain ⟨other, listed, rfl⟩ := List.mem_map.mp member
        rw [Pool.resolve_wrap_self (Pool.isOccupied_of_mem_find listed)] at resolved
        obtain rfl := Option.some.inj resolved
        exact ⟨e, name, found, live, relay, aimed, listed⟩
      · cases member
    · cases relay
  · cases relay

theorem wrap_mem_relayTargets {g : Game} {id target : EntityId} (relays : g.pool.Relays id target) :
    behavior? g id = some .relay ∧ g.pool.wrap target ∈ relayTargets g id ∧
      (g.pool.wrap target).resolve g.pool = some target := by
  obtain ⟨e, name, found, live, relay, aimed, listed⟩ := relays
  refine ⟨?_, ?_, Pool.resolve_wrap_self (Pool.isOccupied_of_mem_find listed)⟩
  · simp only [behavior?, found, live, if_true, relay]
  · have name? : (g.pool.entity? id).bind (·.fields.target) = some name := by rw [found]; exact aimed
    simp only [relayTargets, name?]
    exact List.mem_map_of_mem listed

theorem behavior_of_relaysOnly {g : Game} (relays : g.pool.RelaysOnly) (id : EntityId) :
    behavior? g id = none ∨ behavior? g id = some .relay := by
  unfold behavior?
  split
  · rename_i e found
    split
    · rename_i live
      exact relays id e found live
    · exact .inl rfl
  · exact .inl rfl

section UseEach

variable {usage : Usage} {p : Pool} {other activator : Option EntityId} {handles : List Handle}
  {engine next : Engine}

theorem useEach_onlyLogs (quiet : OnlyLogs usage p) (here : engine.state.pool = p)
    (used : useEach usage other activator handles engine = some next) :
    ∃ log, next = engine.withLog log := by
  induction handles generalizing engine with
  | nil =>
    cases used
    exact ⟨_, rfl⟩
  | cons h rest ih =>
    unfold useEach at used
    split at used
    · exact ih here used
    · split at used
      · rename_i first
        obtain ⟨log, rfl⟩ := quiet here first
        obtain ⟨log', rfl⟩ := @ih (engine.withLog log) here used
        exact ⟨log', rfl⟩
      · cases used

theorem useEach_ends (quiet : OnlyLogs usage p) (here : engine.state.pool = p)
    (each : ∀ h ∈ handles, ∀ target, h.resolve p = some target → ∀ now : Engine,
      now.state.pool = p → ∃ next, usage ⟨target, other, activator⟩ now = some next) :
    ∃ next, useEach usage other activator handles engine = some next := by
  induction handles generalizing engine with
  | nil => exact ⟨engine, rfl⟩
  | cons h rest ih =>
    have later := fun h member => each h (List.mem_cons_of_mem _ member)
    unfold useEach
    cases resolved : h.resolve engine.state.pool with
    | none => exact ih here later
    | some target =>
      rw [here] at resolved
      obtain ⟨after, used⟩ := each h List.mem_cons_self target resolved engine here
      -- The pool is the same after the use, so the rest of the handles stand for what they did.
      obtain ⟨log, rfl⟩ := quiet here used
      simp only [used]
      exact ih here later

theorem useEach_endless (quiet : OnlyLogs usage p) (here : engine.state.pool = p) {h : Handle}
    (member : h ∈ handles) {target : EntityId} (resolved : h.resolve p = some target)
    (endless : ∀ now : Engine, now.state.pool = p → usage ⟨target, other, activator⟩ now = none) :
    useEach usage other activator handles engine = none := by
  induction handles generalizing engine with
  | nil => cases member
  | cons first rest ih =>
    unfold useEach
    rcases List.mem_cons.mp member with rfl | later
    · rw [here, resolved]
      simp only [endless engine here]
    · split
      · exact ih here later
      · split
        · rename_i used
          obtain ⟨log, rfl⟩ := quiet here used
          exact ih here later
        · rfl

end UseEach

section Relays

variable {limits : Limits} {p : Pool}

theorem useWithin_onlyLogs (relays : p.RelaysOnly) (depth : Nat) :
    OnlyLogs (useWithin limits depth) p := by
  induction depth with
  | zero =>
    intro event engine next _ used
    cases used
  | succ depth ih =>
    intro event engine next here used
    unfold useWithin at used
    rw [← here] at relays
    rcases behavior_of_relaysOnly relays event.target with absent | relay
    · rw [absent] at used
      cases used
      exact ⟨_, rfl⟩
    · rw [relay] at used
      exact useEach_onlyLogs ih here used

/-- A use that leads to no circle needs no more depth than there are slots ahead of it. -/
theorem useWithin_ends (relays : p.RelaysOnly) {depth : Nat} {event : UseEvent}
    (ends : ¬ p.Loops event.target) (enough : (p.ahead event.target).card < depth)
    {engine : Engine} (here : engine.state.pool = p) :
    ∃ next, useWithin limits depth event engine = some next := by
  induction depth generalizing event engine with
  | zero => omega
  | succ depth ih =>
    subst here
    unfold useWithin
    rcases behavior_of_relaysOnly relays event.target with absent | relay
    · rw [absent]
      exact ⟨_, rfl⟩
    · rw [relay]
      refine useEach_ends (useWithin_onlyLogs relays depth) rfl ?_
      intro h member target resolved now here
      have step := mem_relayTargets relay member resolved
      have fewer := Pool.card_ahead_lt step ends
      have onward : ¬ engine.state.pool.Loops target := fun loops => ends (loops.of_relays step)
      exact ih onward (by dsimp only; omega) here

/-- A use that leads into a circle never ends. -/
theorem useWithin_endless (relays : p.RelaysOnly) (depth : Nat) {event : UseEvent}
    (loops : p.Loops event.target) {engine : Engine} (here : engine.state.pool = p) :
    useWithin limits depth event engine = none := by
  induction depth generalizing event engine with
  | zero => rfl
  | succ depth ih =>
    subst here
    -- The induction is on the depth: whatever there is of it, a circle goes on at one less.
    obtain ⟨target, step, onward⟩ := loops.exists_next
    obtain ⟨relay, member, resolved⟩ := wrap_mem_relayTargets step
    unfold useWithin
    rw [relay]
    exact useEach_endless (useWithin_onlyLogs relays depth) rfl member resolved
      fun now here => ih onward here

end Relays

/-- Where there is nothing but relays, a use ends if and only if it leads to no relay that uses
itself in the end. It then needs no more depth than there are slots, and only the log has changed. -/
theorem relays_end_iff (limits : Limits) (event : UseEvent) (engine : Engine)
    (relays : engine.state.pool.RelaysOnly) :
    ((∃ depth next, useWithin limits depth event engine = some next) ↔
      ¬ engine.state.pool.Loops event.target) ∧
    (¬ engine.state.pool.Loops event.target → ∀ depth, engine.state.pool.size < depth →
      ∃ log, useWithin limits depth event engine = some (engine.withLog log)) := by
  have reaches (ends : ¬ engine.state.pool.Loops event.target) (depth : Nat)
      (enough : engine.state.pool.size < depth) :
      ∃ log, useWithin limits depth event engine = some (engine.withLog log) := by
    have fewer := engine.state.pool.card_ahead_le event.target
    obtain ⟨next, used⟩ := @useWithin_ends limits _ relays depth event ends
      (fewer.trans_lt enough) engine rfl
    obtain ⟨log, rfl⟩ := useWithin_onlyLogs relays depth rfl used
    exact ⟨log, used⟩
  refine ⟨⟨?_, fun ends => ?_⟩, reaches⟩
  · rintro ⟨depth, next, used⟩ loops
    rw [useWithin_endless relays depth loops rfl] at used
    cases used
  · obtain ⟨log, used⟩ := reaches ends _ (Nat.lt_succ_self _)
    exact ⟨_, _, used⟩

/-- A relay in slot 2 with the name `loop`, beside a door in slot 3. -/
def relayTo (target : String) : Engine where
  state :=
    { config := {}
      pool := (Pool.new {}).run [.spawn, .spawn,
        .write 2 fun body => { body with
          use := some .relay, fields := { target := some target, targetname := some "loop" } },
        .write 3 fun body => { body with fields := { targetname := some "door" } }]
      api := 0 }
  heap := {}

theorem made_relayTo (target : String) : (Pool.new {}).Reaches (relayTo target).state.pool :=
  ⟨_, rfl⟩

theorem relaysOnly_relayTo (target : String) : (relayTo target).state.pool.RelaysOnly := by
  intro id e found _
  match id with
  | 0 | 1 | 3 =>
    obtain rfl := Option.some.inj found
    exact .inl rfl
  | 2 =>
    obtain rfl := Option.some.inj found
    exact .inr rfl
  | id + 4 => cases found

theorem relays_relayTo {target : String} {id next : EntityId}
    (relays : (relayTo target).state.pool.Relays id next) :
    id = 2 ∧ next ∈ (relayTo target).state.pool.find .targetname target := by
  obtain ⟨e, name, found, -, relay, aimed, listed⟩ := relays
  match id with
  | 0 | 1 | 3 =>
    obtain rfl := Option.some.inj found
    cases relay
  | 2 =>
    obtain rfl := Option.some.inj found
    obtain rfl := Option.some.inj aimed
    exact ⟨rfl, listed⟩
  | id + 4 => cases found

theorem relays_end_iff_door :
    (relayTo "door").state.pool.RelaysOnly ∧
      ∃ log, useWithin ⟨1, 1, 1⟩ 5 ⟨2, none, some 1⟩ (relayTo "door") =
        some ((relayTo "door").withLog log) := by
  have relays := relaysOnly_relayTo "door"
  refine ⟨relays, (relays_end_iff ⟨1, 1, 1⟩ ⟨2, none, some 1⟩ _ relays).2 ?_ 5 (by decide)⟩
  rintro ⟨hub, -, circle⟩
  obtain ⟨_, first, -⟩ := Relation.TransGen.head'_iff.mp circle
  obtain ⟨_, -, last⟩ := Relation.TransGen.tail'_iff.mp circle
  obtain ⟨rfl, -⟩ := relays_relayTo first
  have listed := (relays_relayTo last).2
  exact absurd listed (by decide +kernel)

/-- A relay that has its own name as its target is used for ever. -/
theorem relay_of_itself_never_ends :
    ¬ ∀ (config : PoolConfig) (limits : Limits) (event : UseEvent) (engine : Engine),
      (Pool.new config).Reaches engine.state.pool → engine.state.pool.RelaysOnly →
      ∃ depth next, useWithin limits depth event engine = some next := by
  intro always
  obtain ⟨depth, next, used⟩ :=
    always {} ⟨1, 1, 1⟩ ⟨2, none, some 1⟩ _ (made_relayTo "loop") (relaysOnly_relayTo "loop")
  have itself : (relayTo "loop").state.pool.Relays 2 2 :=
    ⟨_, "loop", rfl, rfl, rfl, rfl, by decide +kernel⟩
  have loops : (relayTo "loop").state.pool.Loops 2 := ⟨2, .refl, .single itself⟩
  rw [useWithin_endless (relaysOnly_relayTo "loop") depth loops rfl] at used
  cases used

end Engine

end EntityScripting
