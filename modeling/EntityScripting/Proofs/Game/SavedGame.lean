import EntityScripting.Proofs.Game.Session
import EntityScripting.Proofs.Pool.Handle

/-!
# Saved games

A save of any engine of a session is read by every later engine of it. The tables are then those
that were saved, and an entity that was gone stays gone.
-/

namespace EntityScripting

open Script

/-- What a value of a saved table is in a pool that has read it: an entity that was there in the pool
that was saved is what its slot holds now, until that is released, and one that was gone is never
found again. -/
def ScriptValue.Restored (saved now : Pool) : ScriptValue → ScriptValue → Prop
  | .entity h, w => ∃ h', w = .entity h' ∧
    match h.resolve saved with
    | none => ∀ ops, h'.resolve (now.run ops) = none
    | some id => ∀ ops, now.releases id ops < UInt32.size - 1 →
      h'.resolve (now.run ops) =
        if now.isOccupied id = true ∧ now.releases id ops = 0 then some id else none
  | v, w => v.Agrees w

theorem Pool.HasWorld.restored {saved now : Pool} (begun : now.HasWorld) {v w : ScriptValue}
    (same : (v.carry saved now).Agrees w) : v.Restored saved now w := by
  cases v with
  | entity h =>
    refine ⟨_, same, ?_⟩
    cases resolved : h.resolve saved with
    | none => exact fun ops => (begun.run ops).resolve_invalid
    | some id => exact fun ops few => begun.resolve_wrap id ops few
  | _ => exact same

namespace Game

/-- A game reads what another has saved, if its pool has room for the slots that were in use. -/
theorem load_of_fit {saved now : Game} (tables : ∀ kind, (saved.table kind).Fit kind)
    (room : saved.pool.size ≤ now.pool.capacity) (fits : now.pool.capacity ≤ UInt64.size) :
    ∃ g, now.load saved.save = .ok g ∧ g.pool = now.pool ∧ ∀ kind key,
      match (saved.table kind).get? key with
      | none => (g.table kind).get? key = none
      | some v => ∃ w, (g.table kind).get? key = some w ∧
          (v.carry saved.pool now.pool).Agrees w := by
  obtain ⟨vars, readVars, level⟩ := VariableTable.decode_snapshot (tables .level) room fits
  obtain ⟨persistent, readPersistent, lasting⟩ :=
    VariableTable.decode_snapshot (tables .persistent) room fits
  refine ⟨{ now with vars, persistent }, ?_, rfl, fun kind key => ?_⟩
  · simp only [load, save, snapshot, readVars, readPersistent]
    rfl
  · cases kind with
    | level => exact level key
    | persistent => exact lasting key

end Game

namespace Engine

/-- Every save of an engine is read by every later engine of its session. Each name then has the
value that it had, and an entity is as `Restored` says. -/
theorem load_save {limits : Limits} {engine later : Engine} (reachable : Reachable limits engine)
    (leads : Leads limits engine later)
    (fits : max engine.state.config.pool.maxEntities (engine.state.config.pool.maxClients + 1) ≤
      UInt64.size) :
    ∃ g, later.state.load engine.state.save = .ok g ∧
      (∀ kind key, match (engine.state.table kind).get? key with
        | none => (g.table kind).get? key = none
        | some v => ∃ w, (g.table kind).get? key = some w ∧
            v.Restored engine.state.pool later.state.pool w) ∧
      ∀ last, Leads limits (later.update fun _ => g) last →
        ∃ ops, last.state.pool = later.state.pool.run ops := by
  have sound := reachable.sound
  have follows := leads.follows
  have capacity := Pool.capacity_of_made sound.pool
  have capacity' := follows.pool.extent.capacity
  have room : engine.state.pool.size ≤ later.state.pool.capacity := by
    rw [capacity']
    exact Pool.size_le_of_made sound.pool
  have narrow : later.state.pool.capacity ≤ UInt64.size := by
    rw [capacity', capacity]
    exact fits
  obtain ⟨g, loaded, pool, values⟩ := Game.load_of_fit sound.tables room narrow
  have begun : later.state.pool.HasWorld := Pool.hasWorld_of_made (sound.pool.trans follows.pool)
  refine ⟨g, loaded, fun kind key => ?_, fun last leads => ?_⟩
  · have value := values kind key
    cases held : (engine.state.table kind).get? key with
    | none =>
      rw [held] at value
      exact value
    | some v =>
      rw [held] at value
      obtain ⟨w, found, same⟩ := value
      exact ⟨w, found, begun.restored same⟩
  · obtain ⟨ops, led⟩ := leads.follows.pool
    exact ⟨ops, led.trans (congrArg (·.run ops) pool)⟩

def doorEngine : Engine :=
  ((Engine.new {} 1).update fun g => { g with pool := g.pool.apply .spawn }).update fun g =>
    settle g (g.setVariable .level "door" (some (.entity ⟨2, 0⟩)))

theorem reachable_doorEngine (limits : Limits) : Reachable limits doorEngine :=
  .obey (.setVariable .level "door" (some (.entity ⟨2, 0⟩)))
    (.obey (.pool .spawn) (.new {} 1) rfl) rfl

/-- The entity has been released when the save is read, and whoever takes its slot then is not what
the variable names. -/
theorem load_save_released :
    ∃ g h', (doorEngine.update fun g => { g with pool := g.pool.apply (.free 2) }).state.load
        doorEngine.state.save = .ok g ∧
      (g.table .level).get? "door" = some (.entity h') ∧
      h'.resolve ((doorEngine.state.pool.apply (.free 2)).run [.spawn]) = none := by
  have leads : Leads ⟨1, 1, 1⟩ doorEngine
      (doorEngine.update fun g => { g with pool := g.pool.apply (.free 2) }) :=
    .obey (.pool (.free 2)) .refl rfl
  obtain ⟨g, loaded, values, -⟩ := load_save (reachable_doorEngine _) leads (by decide)
  have value := values .level "door"
  have held : (doorEngine.state.table .level).get? "door" = some (.entity ⟨2, 0⟩) := rfl
  have there : (⟨2, 0⟩ : Handle).resolve doorEngine.state.pool = some 2 := by decide
  rw [held] at value
  obtain ⟨w, found, h', rfl, restored⟩ := value
  rw [there] at restored
  have once : (doorEngine.state.pool.apply (.free 2)).releases 2 [.spawn] = 0 := by decide
  have free : (doorEngine.state.pool.apply (.free 2)).isOccupied 2 = false := by decide
  have gone := restored [.spawn] (by decide)
  refine ⟨g, h', loaded, found, gone.trans (if_neg ?_)⟩
  rintro ⟨live, -⟩
  cases free.symm.trans live

end Engine

end EntityScripting
