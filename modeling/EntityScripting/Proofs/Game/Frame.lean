import EntityScripting.Proofs.Game.DelayedAction
import EntityScripting.Proofs.Game.Use

/-!
# What a frame frees

A frame takes one due action after another off its helper, carries it out and clears the helper away.
The action may do anything to the pool, and free the slot of its own helper or have it claimed again
among that. The handle that is made between the take and the action tells the helper from whatever has
its slot afterwards (`frame_frees_helpers`).
-/

namespace EntityScripting

open Number Script

namespace Engine

theorem retire_eq (h : Handle) (engine : Engine) :
    retire h engine =
      match h.resolve engine.state.pool with
      | some id => engine.update fun g => g.withPool (g.pool.free id)
      | none => engine := by
  obtain ⟨g, heap⟩ := engine
  unfold retire update
  cases resolved : h.resolve g.pool <;> simp only [resolved]

structure Firing (usage : Usage) where
  /-- The engine that finds the action due. -/
  found : Engine
  helper : EntityId
  think : Think
  /-- The pool when the action has been taken off the helper. -/
  pool : Pool
  /-- The engine when the action has been carried out. -/
  acted : Engine
  takes : found.state.pool.takeDue? = some (helper, think, pool)
  acts : fire usage helper think (found.update fun g => { g with pool }) = some acted

namespace Firing

variable {usage : Usage} (f : Firing usage)

def stamp : Handle := f.pool.wrap f.helper

def cleared : Engine := retire f.stamp f.acted

def Chain : Engine → List (Firing usage) → Engine → Prop
  | engine, [], last => last = engine
  | engine, f :: rest, last => f.found = engine ∧ Chain f.cleared rest last

/-- What is done to entities in a firing beside its action. The action is taken off the helper. When
it has been carried out the helper is freed, unless its slot has been released by then. -/
structure Spares (f : Firing usage) : Prop where
  taken : ∃ e, f.found.state.pool.entity? f.helper = some e ∧ e.inUse = true ∧
    f.pool.entity? f.helper = some (e.withBody { e.toBody with think := none })
  untaken : ∀ id, id ≠ f.helper → f.pool.entity? id = f.found.state.pool.entity? id
  acted : ∃ ops, f.acted.state.pool = f.pool.run ops ∧ ∀ op ∈ ops, op.isTimed = false
  gone : ∀ ops, f.acted.state.pool = f.pool.run ops → f.pool.isReserved f.helper = false →
    f.pool.releases f.helper ops < UInt32.size → f.stamp.resolve f.cleared.state.pool = none
  freed : ∀ ops, f.acted.state.pool = f.pool.run ops → f.pool.isReserved f.helper = false →
    f.pool.releases f.helper ops < UInt32.size →
    f.cleared = if f.pool.releases f.helper ops = 0 then
        f.acted.update fun g => { g with pool := (g.pool.free f.helper).value }
      else f.acted
  others : ∀ id, id ≠ f.helper → f.cleared.state.pool.entity? id = f.acted.state.pool.entity? id

theorem exists_taken : ∃ e, f.found.state.pool.entity? f.helper = some e ∧ e.inUse = true ∧
    f.pool.entity? f.helper = some (e.withBody { e.toBody with think := none }) := by
  obtain ⟨first, -, made⟩ := Pool.takeDue?_eq_some f.takes
  obtain ⟨e, found, due, -⟩ := Pool.dueId?_eq_some first
  simp only [Pool.isDue, Bool.and_eq_true] at due
  refine ⟨e, found, due.1.1, ?_⟩
  rw [made, Pool.modifyBody, Pool.entity?_modify, if_pos rfl, found, Option.map_some]

theorem isOccupied_helper : f.pool.isOccupied f.helper = true := by
  obtain ⟨e, -, live, held⟩ := f.exists_taken
  exact Pool.isOccupied_iff.mpr ⟨_, held, live⟩

theorem entity?_taken {id : EntityId} (apart : id ≠ f.helper) :
    f.pool.entity? id = f.found.state.pool.entity? id := by
  obtain ⟨-, -, made⟩ := Pool.takeDue?_eq_some f.takes
  rw [made, Pool.modifyBody, Pool.entity?_modify, if_neg (Ne.symm apart)]

theorem slot_stamp : f.stamp.slot = f.helper :=
  ((f.stamp.resolve_eq_some_iff f.pool f.helper).mp
    (Pool.resolve_wrap_self f.isOccupied_helper)).1

theorem cleared_cases :
    f.stamp.resolve f.acted.state.pool = some f.helper ∧
        f.cleared = f.acted.update (fun g => g.withPool (g.pool.free f.helper)) ∨
      f.stamp.resolve f.acted.state.pool = none ∧ f.cleared = f.acted := by
  rw [cleared, retire_eq]
  cases resolved : f.stamp.resolve f.acted.state.pool with
  | none => exact .inr ⟨rfl, rfl⟩
  | some id =>
    obtain rfl : id = f.helper := by
      rw [← f.slot_stamp]
      exact ((f.stamp.resolve_eq_some_iff _ id).mp resolved).1.symm
    exact .inl ⟨rfl, rfl⟩

theorem entity?_cleared {id : EntityId} (apart : id ≠ f.helper) :
    f.cleared.state.pool.entity? id = f.acted.state.pool.entity? id := by
  rcases f.cleared_cases with ⟨-, freed⟩ | ⟨-, same⟩
  · rw [freed]
    exact f.acted.state.pool.entity?_free_of_ne apart
  · rw [same]

theorem resolve_stamp {ops : List Pool.Operation} (led : f.acted.state.pool = f.pool.run ops)
    (few : f.pool.releases f.helper ops < UInt32.size) :
    f.stamp.resolve f.acted.state.pool =
      if f.pool.releases f.helper ops = 0 then some f.helper else none := by
  rw [led]
  exact Pool.resolve_run (Pool.resolve_wrap_self f.isOccupied_helper) ops few

theorem isReserved_acted {ops : List Pool.Operation} (led : f.acted.state.pool = f.pool.run ops)
    (free : f.pool.isReserved f.helper = false) :
    f.acted.state.pool.isReserved f.helper = false := by
  rw [led, Pool.isReserved, (Pool.Extends.run f.pool ops).maxClients]
  exact free

/-- Whatever an action does, the clearing away takes no more than the helper out of use. -/
theorem spares (uses : UsageKeeps usage) : f.Spares where
  taken := f.exists_taken
  untaken _ := f.entity?_taken
  acted := by
    obtain ⟨ops, led, untimed, -⟩ := (fire_keeps uses f.helper f.think f.acts).pool
    exact ⟨ops, led, untimed⟩
  gone ops led free few := by
    rcases f.cleared_cases with ⟨-, freed⟩ | ⟨stale, same⟩
    · refine Pool.resolve_of_unoccupied ?_
      rw [f.slot_stamp, freed]
      exact Pool.isOccupied_free (f.isReserved_acted led free)
    · rw [same]
      exact stale
  freed ops led free few := by
    rcases f.cleared_cases with ⟨current, freed⟩ | ⟨stale, same⟩
    · rw [f.resolve_stamp led few] at current
      rw [freed, if_pos (by simpa using current)]
      simp only [update, Game.withPool, Pool.records_free (f.isReserved_acted led free),
        Array.appendList_nil]
    · rw [f.resolve_stamp led few] at stale
      rw [same, if_neg (by simpa using stale)]
  others _ := f.entity?_cleared

end Firing

/-! ### A whole frame -/

theorem exists_chain {usage : Usage} {count : Nat} {engine next : Engine}
    (fired : fireDue usage count engine = some next) :
    ∃ firings : List (Firing usage), Firing.Chain engine firings next := by
  induction count generalizing engine with
  | zero => cases fired
  | succ count ih =>
    unfold fireDue at fired
    split at fired
    · cases fired
      exact ⟨[], rfl⟩
    · rename_i helper think pool takes
      dsimp only at fired
      split at fired
      · rename_i acted acts
        obtain ⟨rest, chain⟩ := ih fired
        exact ⟨⟨engine, helper, think, pool, acted, takes, acts⟩ :: rest, rfl, chain⟩
      · cases fired

/-- A slot that no action changes, and that none of the helpers has, holds in the end what it held. -/
theorem Firing.Chain.entity?_eq {usage : Usage} {firings : List (Firing usage)} {engine last : Engine}
    (chain : Firing.Chain engine firings last) {id : EntityId}
    (others : ∀ f ∈ firings, id ≠ f.helper ∧ f.acted.state.pool.entity? id = f.pool.entity? id) :
    last.state.pool.entity? id = engine.state.pool.entity? id := by
  induction firings generalizing engine with
  | nil =>
    obtain rfl := chain
    rfl
  | cons f rest ih =>
    obtain ⟨rfl, chain⟩ := chain
    obtain ⟨apart, unchanged⟩ := others f List.mem_cons_self
    rw [ih chain fun g member => others g (List.mem_cons_of_mem f member), f.entity?_cleared apart,
      unchanged, f.entity?_taken apart]

theorem Firing.Chain.split {usage : Usage} {earlier later : List (Firing usage)}
    {engine last : Engine} (chain : Firing.Chain engine (earlier ++ later) last) :
    ∃ now, Firing.Chain engine earlier now ∧ Firing.Chain now later last := by
  induction earlier generalizing engine with
  | nil => exact ⟨engine, rfl, chain⟩
  | cons f rest ih =>
    obtain ⟨found, chain⟩ := chain
    obtain ⟨now, before, after⟩ := ih chain
    exact ⟨now, ⟨found, before⟩, after⟩

/-- A frame is a chain of firings, and beside the actions themselves it does no more to entities than to
take each action off its helper and to free the helper. It does that once the action has been carried
out, whatever the action has done: if the slot of the helper has been released by then, nothing is
freed, so another entity that has claimed the slot stays as it is. From any moment of the frame on, a
slot that is no helper's and that no action changes keeps what it holds. Helpers that scripts have made
can be freed. -/
theorem frame_frees_helpers {limits : Limits} {seconds : Single} {engine next : Engine}
    (advanced : advance limits seconds engine = some next) :
    (∃ firings : List (Firing (use limits)),
      Firing.Chain (engine.update fun g => { g with pool := g.pool.advance seconds }) firings next ∧
      (∀ f ∈ firings, f.Spares) ∧
      ∀ earlier later, firings = earlier ++ later → ∃ now,
        Firing.Chain (engine.update fun g => { g with pool := g.pool.advance seconds }) earlier now ∧
        Firing.Chain now later next ∧
        ∀ id, (∀ f ∈ later, id ≠ f.helper ∧
            f.acted.state.pool.entity? id = f.pool.entity? id) →
          next.state.pool.entity? id = now.state.pool.entity? id) ∧
    ∀ config usage (errand : Errand) h delay asking asked,
      (Pool.new config).Reaches asking.state.pool → Single.zero.lt delay = true →
      perform usage (errand.request h delay) asking = some (.ok (), asked) →
      ∃ helper, asking.state.pool.spawn?.map (·.1) = some helper ∧
        asked.state.pool.isReserved helper = false := by
  refine ⟨?_, ?_⟩
  · obtain ⟨firings, chain⟩ := exists_chain advanced
    have uses : UsageKeeps (use limits) := useWithin_keeps limits limits.nesting
    refine ⟨firings, chain, fun f _ => f.spares uses, ?_⟩
    rintro earlier later rfl
    obtain ⟨now, before, after⟩ := chain.split
    exact ⟨now, before, after, fun id others => after.entity?_eq others⟩
  · intro config usage errand h delay asking asked made positive done
    obtain ⟨helper, -, -, -, posts, -⟩ := posted_of_perform positive done
    exact ⟨helper, posts.spawned, posts.reserved (Pool.maxClients_lt_of_made made)⟩

/-- An engine whose entity in slot 3 is to use the one in slot 2, which kills the entity that uses it
and spawns another. -/
def recycledHelper : Engine where
  state :=
    { config := {}, api := 0
      pool := (Pool.new {}).run [.spawn, .spawn,
        .write 2 fun body => { body with use := some (.native fun event =>
          match event.other with
          | some helper => .kill helper (.spawn fun _ => .done)
          | none => .done) },
        .schedule 3 Single.one (.trigger ⟨2, 0⟩ none)] }
  heap := {}

def duePool : Pool := recycledHelper.state.pool.run [.advance Single.one, .takeDue]

def reusedHelper : Engine :=
  recycledHelper.update fun g =>
    { g with pool := g.pool.run [.advance Single.one, .takeDue, .kill 3, .spawn] }

/-- The entity that the action has spawned in the slot of its helper is there after the frame. -/
theorem frame_frees_helpers_reused :
    advance ⟨2, 2, 2⟩ Single.one recycledHelper = some reusedHelper ∧
    reusedHelper.state.pool.isOccupied 3 = true ∧
    ∃ f : Firing (use ⟨2, 2, 2⟩), f.helper = 3 ∧ f.cleared = f.acted ∧
      f.stamp.resolve f.cleared.state.pool = none := by
  have advanced : advance ⟨2, 2, 2⟩ Single.one recycledHelper = some reusedHelper := rfl
  refine ⟨advanced, by decide +kernel, ?_⟩
  obtain ⟨⟨firings, chain, spares, -⟩, -⟩ := frame_frees_helpers advanced
  match firings, chain with
  | [], same => exact absurd (congrArg (fun e : Engine => e.state.pool.slot? 3) same) (by decide +kernel)
  | f :: _, ⟨found, _⟩ =>
    have spared := spares f List.mem_cons_self
    obtain ⟨found', helper, think, pool, acted, takes, acts⟩ := f
    obtain rfl := found
    have due : (recycledHelper.state.pool.run [.advance Single.one]).takeDue? =
        some (3, .trigger ⟨2, 0⟩ none, duePool) := rfl
    obtain ⟨rfl, rfl, rfl⟩ : 3 = helper ∧ .trigger ⟨2, 0⟩ none = think ∧ duePool = pool := by
      simpa using due.symm.trans takes
    cases acts
    have once : duePool.releases 3 [.kill 3, .spawn] = 1 := by decide +kernel
    have few : duePool.releases 3 [.kill 3, .spawn] < UInt32.size := by rw [once]; decide
    have free : duePool.isReserved 3 = false := by decide +kernel
    have freed := spared.freed [.kill 3, .spawn] rfl free few
    rw [if_neg (by rw [once]; decide)] at freed
    exact ⟨_, rfl, freed, spared.gone [.kill 3, .spawn] rfl free few⟩

end Engine

end EntityScripting
