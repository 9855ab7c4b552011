import EntityScripting.Proofs.Game.Use
import EntityScripting.Proofs.Pool.Handle

/-!
# What a relay passes on

A relay looks at each target again before using it, but not at itself nor at its activator: their
slots go to every target as they are. `relayed_faithful_iff` says when such a slot still stands for
the entity that was meant, and `relayed_slot_reused` shows a relay whose third target is told of
another one.
-/

namespace EntityScripting.Engine

open Number Script

/-- The uses of some handles that are still there when their turn comes, each with the engine that
it finds. -/
def dispatched (usage : Usage) (other activator : Option EntityId) :
    List Handle → Engine → List (UseEvent × Engine)
  | [], _ => []
  | h :: rest, engine =>
    match h.resolve engine.state.pool with
    | none => dispatched usage other activator rest engine
    | some target =>
      (⟨target, other, activator⟩, engine) ::
        match usage ⟨target, other, activator⟩ engine with
        | some engine => dispatched usage other activator rest engine
        | none => []

def relayed (limits : Limits) (depth : Nat) (event : UseEvent) (engine : Engine) :
    List (UseEvent × Engine) :=
  dispatched (useWithin limits depth) (some event.target) event.activator
    (relayTargets engine.state event.target) engine

/-- These are all the uses there are: another way to use entities that does the same in them does
the same to the engine. -/
theorem useEach_congr {usage usage' : Usage} {other activator : Option EntityId}
    {handles : List Handle} {engine : Engine}
    (same : ∀ event now, (event, now) ∈ dispatched usage other activator handles engine →
      usage' event now = usage event now) :
    useEach usage' other activator handles engine = useEach usage other activator handles engine := by
  induction handles generalizing engine with
  | nil => rfl
  | cons h rest ih =>
    cases resolved : h.resolve engine.state.pool with
    | none =>
      simp only [dispatched, resolved] at same
      simpa only [useEach, resolved] using ih same
    | some target =>
      simp only [dispatched, resolved, List.mem_cons] at same
      have first := same _ _ (.inl rfl)
      cases used : usage ⟨target, other, activator⟩ engine with
      | none => simp only [useEach, resolved, first, used]
      | some next =>
        simp only [used] at same
        have later := ih fun event now member => same event now (.inr member)
        simpa only [useEach, resolved, first, used] using later

/-- Every use is told of the same slots, and finds a pool that operations have led to. -/
theorem dispatched_spec {usage : Usage} (uses : UsageKeeps usage)
    {other activator : Option EntityId} {handles : List Handle} {engine now : Engine}
    {event : UseEvent}
    (member : (event, now) ∈ dispatched usage other activator handles engine) :
    event.other = other ∧ event.activator = activator ∧
      engine.state.pool.Reaches now.state.pool := by
  induction handles generalizing engine with
  | nil => cases member
  | cons h rest ih =>
    unfold dispatched at member
    split at member
    · exact ih member
    · rcases List.mem_cons.mp member with first | later
      · obtain ⟨rfl, rfl⟩ := Prod.mk.inj first
        exact ⟨rfl, rfl, .refl _⟩
      · split at later
        · rename_i next used
          obtain ⟨told, cause, reach⟩ := ih later
          exact ⟨told, cause, (uses used).pool.reaches.trans reach⟩
        · cases later

def told (use : UseEvent) : List EntityId := use.other.toList ++ use.activator.toList

/-- Whether the slots that a use is told of stand for what they held when a relay was used. -/
def Faithful (start now : Engine) (use : UseEvent) : Prop :=
  ∀ id ∈ told use, now.state.pool.StandsFor id (start.state.pool.wrap id)

/-- Each target of a relay is told of the slots of the relay and of its activator. They stand for
what they held when the relay was used unless one is in use again: it was in use then and has been
released since, or it was free then and has been claimed. -/
theorem relayed_faithful_iff {config : PoolConfig} {limits : Limits} {depth : Nat}
    {event use : UseEvent} {engine now : Engine}
    (made : (Pool.new config).Reaches engine.state.pool)
    (member : (use, now) ∈ relayed limits depth event engine) :
    use.other = some event.target ∧ use.activator = event.activator ∧
      engine.state.pool.Reaches now.state.pool ∧
      ∀ ops, now.state.pool = engine.state.pool.run ops →
        (∀ id ∈ told use, engine.state.pool.releases id ops < UInt32.size - 1) →
        (Faithful engine now use ↔ ∀ id ∈ told use,
          now.state.pool.isOccupied id = false ∨
            engine.state.pool.isOccupied id = true ∧ engine.state.pool.releases id ops = 0) := by
  obtain ⟨other, activator, reach⟩ := dispatched_spec (useWithin_keeps limits depth) member
  refine ⟨other, activator, reach, fun ops led few => ?_⟩
  have begun : engine.state.pool.HasWorld := Pool.hasWorld_of_made made
  rw [Faithful, led]
  exact forall₂_congr fun id member => begun.standsFor_wrap_iff id ops (few id member)

/-- A relay in slot 2 whose first target kills what it is told of as the other entity and whose
second target spawns an entity. -/
def vanishingRelay : Engine where
  state :=
    { config := {}
      pool := (Pool.new {}).run [.spawn, .spawn, .spawn, .spawn,
        .write 2 fun body => { body with use := some .relay, fields := { target := some "door" } },
        .write 3 fun body => { body with
          use := some (.native fun event => match event.other with
            | some id => .kill id .done
            | none => .done)
          fields := { targetname := some "door" } },
        .write 4 fun body => { body with
          use := some (.native fun _ => .spawn fun _ => .done)
          fields := { targetname := some "door" } },
        .write 5 fun body => { body with
          use := some (.native fun _ => .done), fields := { targetname := some "door" } }]
      api := 0 }
  heap := {}

theorem made_vanishingRelay : (Pool.new {}).Reaches vanishingRelay.state.pool := ⟨_, rfl⟩

theorem relayTargets_vanishingRelay :
    relayTargets vanishingRelay.state 2 = [⟨3, 0⟩, ⟨4, 0⟩, ⟨5, 0⟩] := by
  decide +kernel

/-- Before its third target is used, its slot has been given to another entity. -/
theorem vanishingRelay_third :
    ∃ now, (⟨5, some 2, some 1⟩, now) ∈ relayed ⟨1, 1, 1⟩ 1 ⟨2, none, some 1⟩ vanishingRelay ∧
      now.state.pool = vanishingRelay.state.pool.run [.kill 2, .spawn] := by
  have third : ∃ now, (relayed ⟨1, 1, 1⟩ 1 ⟨2, none, some 1⟩ vanishingRelay)[2]? =
        some (⟨5, some 2, some 1⟩, now) ∧
      now.state.pool = vanishingRelay.state.pool.run [.kill 2, .spawn] := by
    rw [relayed, relayTargets_vanishingRelay]
    exact ⟨_, rfl, rfl⟩
  obtain ⟨now, found, led⟩ := third
  exact ⟨now, List.mem_of_getElem? found, led⟩

theorem relayed_faithful_iff_third :
    ∃ now, (⟨5, some 2, some 1⟩, now) ∈ relayed ⟨1, 1, 1⟩ 1 ⟨2, none, some 1⟩ vanishingRelay ∧
      vanishingRelay.state.pool.releases 2 [.kill 2, .spawn] = 1 ∧
      ¬ Faithful vanishingRelay now ⟨5, some 2, some 1⟩ := by
  obtain ⟨now, member, led⟩ := vanishingRelay_third
  obtain ⟨-, -, -, exact⟩ := relayed_faithful_iff made_vanishingRelay member
  have once : vanishingRelay.state.pool.releases 2 [.kill 2, .spawn] = 1 := by decide
  refine ⟨now, member, once, fun faithful => ?_⟩
  rcases (exact _ led (by decide)).mp faithful 2 (by decide) with gone | ⟨-, never⟩
  · rw [led] at gone
    exact absurd gone (by decide)
  · rw [once] at never
    cases never

/-- A target can be told of an entity that has taken the slot of the relay. -/
theorem relayed_slot_reused :
    ¬ ∀ (config : PoolConfig) (limits : Limits) (depth : Nat) (event use : UseEvent)
        (engine now : Engine), (Pool.new config).Reaches engine.state.pool →
      behavior? engine.state event.target = some .relay →
      (use, now) ∈ relayed limits depth event engine → Faithful engine now use := by
  intro always
  obtain ⟨now, member, led⟩ := vanishingRelay_third
  have stands := always {} _ _ _ _ vanishingRelay now made_vanishingRelay rfl member 2 (by decide)
  rw [led] at stands
  exact absurd stands (by decide)

end EntityScripting.Engine
