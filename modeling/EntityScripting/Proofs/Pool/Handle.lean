import EntityScripting.Proofs.Pool.Operation

/-!
# How long a handle is good

A handle resolves for as long as the entity it was made from is there, and never again after that.
`resolve_wrap_run` says so for every run of a pool, up to the number of releases after which the
generation of a slot comes round again.
-/

namespace EntityScripting.Pool

open Number

theorem resolve_eq (h : Handle) (p : Pool) :
    h.resolve p =
      if p.slot? h.slot = some ⟨true, h.generation⟩ then some h.slot else none := by
  have iff := h.resolve_eq_some_iff p h.slot
  split
  · rename_i current
    obtain ⟨e, found, same⟩ := Option.map_eq_some_iff.mp current
    obtain ⟨live, generation⟩ := Slot.mk.inj same
    exact iff.mpr ⟨rfl, e, found, live, generation⟩
  · rename_i stale
    cases resolved : h.resolve p with
    | none => rfl
    | some id =>
      obtain ⟨rfl, e, found, live, generation⟩ := (h.resolve_eq_some_iff p id).mp resolved
      exact absurd (by rw [slot?_of_entity? found, live, generation]) stale

theorem resolve_of_unoccupied {p : Pool} {h : Handle} (unused : p.isOccupied h.slot = false) :
    h.resolve p = none := by
  rw [resolve_eq, if_neg]
  intro current
  simp [isOccupied, current] at unused

theorem wrap_of_slot {p : Pool} {id : EntityId} {s : Slot} (found : p.slot? id = some s) :
    p.wrap id = ⟨id, if s.inUse then s.generation else s.generation - 1⟩ := by
  obtain ⟨e, entity, rfl⟩ := Option.map_eq_some_iff.mp found
  simp [wrap, entity]

theorem wrap_of_unallocated {p : Pool} {id : EntityId} (missing : p.slot? id = none) :
    p.wrap id = .invalid := by
  have entity := Option.map_eq_none_iff.mp missing
  simp [wrap, entity]

theorem generation_add_eq_iff (generation : Int32) {n : Nat} (small : n < UInt32.size) :
    generation + Int32.ofNat n = generation ↔ n = 0 := by
  constructor
  · intro same
    have bits := congrArg (fun x => x.toBitVec.toNat) same
    simp only [Int32.toBitVec_add, Int32.toBitVec_ofNat', BitVec.toNat_add, BitVec.toNat_ofNat] at bits
    have := generation.toBitVec.isLt
    rw [UInt32.size] at small
    omega
  · rintro rfl
    simp

/-- The generation before the present one comes only after all others. -/
theorem generation_add_ne_sub_one (generation : Int32) {n : Nat} (small : n < UInt32.size - 1) :
    generation + Int32.ofNat n ≠ generation - 1 := by
  intro same
  have next : generation + Int32.ofNat (n + 1) = generation := by
    rw [Int32.ofNat_add, ← Int32.add_assoc, same]
    exact Int32.sub_add_cancel generation 1
  exact absurd ((generation_add_eq_iff generation (by omega)).mp next) (by omega)

def HasWorld (p : Pool) : Prop := p.slot? worldId = some ⟨true, 0⟩

theorem hasWorld_new (config : PoolConfig) : (Pool.new config).HasWorld := by
  have first : worldId ≤ config.maxClients := Nat.zero_le _
  rw [HasWorld, slot?, entity?_new, if_pos first, if_pos rfl]
  rfl

theorem HasWorld.run {p : Pool} (begun : p.HasWorld) (ops : List Operation) :
    (p.run ops).HasWorld := by
  have reserved : p.isReserved worldId = true := by simp [isReserved, worldId]
  obtain ⟨s, found, generation, stays⟩ := exists_slot_run p worldId ops begun
  have none := releases_of_isReserved reserved ops
  rw [none] at generation stays
  rw [HasWorld, found]
  cases s
  simp_all

theorem hasWorld_of_made {config : PoolConfig} {p : Pool} (made : (Pool.new config).Reaches p) :
    p.HasWorld := by
  obtain ⟨ops, rfl⟩ := made
  exact (hasWorld_new config).run ops

theorem HasWorld.resolve_invalid {p : Pool} (begun : p.HasWorld) :
    Handle.invalid.resolve p = none := by
  rw [resolve_eq, show Handle.invalid.slot = worldId from rfl, begun]
  simp [Handle.invalid]

/-! ### Handles over a run -/

/-- A handle that resolves does so until the slot is released. -/
theorem resolve_run {p : Pool} {h : Handle} {id : EntityId} (resolved : h.resolve p = some id)
    (ops : List Operation) (few : p.releases id ops < UInt32.size) :
    h.resolve (p.run ops) = if p.releases id ops = 0 then some id else none := by
  obtain ⟨rfl, e, held, live, generation⟩ := (h.resolve_eq_some_iff p id).mp resolved
  obtain ⟨s, later, counted, stays⟩ := exists_slot_run p h.slot ops (slot?_of_entity? held)
  -- The generation is the old one exactly if there was no release.
  have same := generation_add_eq_iff e.generation few
  rw [← counted] at same
  rw [resolve_eq, later]
  by_cases kept : p.releases h.slot ops = 0
  · have current : s = ⟨true, h.generation⟩ := by
      rw [← stays kept live, ← generation, ← same.mpr kept]
    rw [if_pos kept, if_pos (congrArg some current)]
  · rw [if_neg kept, if_neg]
    rintro ⟨⟩
    exact kept (same.mp generation.symm)

theorem resolve_wrap_of_slot {p : Pool} {id : EntityId} {s : Slot} (found : p.slot? id = some s)
    (ops : List Operation) (few : p.releases id ops < UInt32.size - 1) :
    (p.wrap id).resolve (p.run ops) =
      if s.inUse = true ∧ p.releases id ops = 0 then some id else none := by
  cases live : s.inUse with
  | true =>
    have now : (p.wrap id).resolve p = some id := by
      rw [wrap_of_slot found, resolve_eq, found, if_pos live, if_pos (by rw [← live])]
    simpa using resolve_run now ops (by omega)
  | false =>
    obtain ⟨s', later, generation, -⟩ := exists_slot_run p id ops found
    have other := generation_add_ne_sub_one s.generation few
    rw [← generation] at other
    rw [wrap_of_slot found, resolve_eq]
    simp only [later, live, Bool.false_eq_true, if_false, false_and]
    rw [if_neg]
    rintro ⟨⟩
    exact other rfl

theorem HasWorld.resolve_wrap {p : Pool} (begun : p.HasWorld) (id : EntityId)
    (ops : List Operation) (few : p.releases id ops < UInt32.size - 1) :
    (p.wrap id).resolve (p.run ops) =
      if p.isOccupied id = true ∧ p.releases id ops = 0 then some id else none := by
  cases found : p.slot? id with
  | none =>
    rw [wrap_of_unallocated found, (begun.run ops).resolve_invalid]
    simp [isOccupied, found]
  | some s =>
    rw [resolve_wrap_of_slot found ops few]
    simp [isOccupied, found]

theorem resolve_wrap_self {p : Pool} {id : EntityId} (live : p.isOccupied id = true) :
    (p.wrap id).resolve p = some id := by
  obtain ⟨e, held, live⟩ := isOccupied_iff.mp live
  have now := resolve_wrap_of_slot (slot?_of_entity? held) [] (by simp [releases, UInt32.size])
  simpa [releases, live] using now

/-- After any run of a pool, a handle made then resolves in every later state to its slot if the slot
was in use and has not been released since, and to nothing otherwise. -/
theorem resolve_wrap_run (config : PoolConfig) (before after : List Operation) (id : EntityId)
    (few : ((Pool.new config).run before).releases id after < UInt32.size - 1) :
    (((Pool.new config).run before).wrap id).resolve (((Pool.new config).run before).run after) =
      if ((Pool.new config).run before).isOccupied id = true ∧
          ((Pool.new config).run before).releases id after = 0 then
        some id
      else none :=
  ((hasWorld_new config).run before).resolve_wrap id after few

/-- A handle to an entity that was killed, of whose slot another entity has taken hold. -/
theorem resolve_wrap_reclaimed :
    ((Pool.new {}).run [.spawn]).releases 2 [.kill 2, .spawn] = 1 ∧
      (((Pool.new {}).run [.spawn]).wrap 2).resolve
        (((Pool.new {}).run [.spawn]).run [.kill 2, .spawn]) = none := by
  have once : ((Pool.new {}).run [.spawn]).releases 2 [.kill 2, .spawn] = 1 := by decide
  refine ⟨once, ?_⟩
  have resolved := resolve_wrap_run {} [.spawn] [.kill 2, .spawn] 2 (by rw [once]; decide)
  rw [once] at resolved
  simpa using resolved

/-- Whether what a slot holds now is the entity of a handle, or nothing that a handle made now
resolves to. -/
def StandsFor (p : Pool) (id : EntityId) (h : Handle) : Prop :=
  p.wrap id = h ∨ (p.wrap id).resolve p = none

instance (p : Pool) (id : EntityId) (h : Handle) : Decidable (p.StandsFor id h) :=
  inferInstanceAs (Decidable (_ ∨ _))

theorem wrap_of_resolve {p : Pool} {h : Handle} {id : EntityId} (resolved : h.resolve p = some id) :
    p.wrap id = h := by
  obtain ⟨rfl, e, found, live, generation⟩ := (h.resolve_eq_some_iff p id).mp resolved
  simp [wrap, found, live, generation]

/-- A slot stands for the entity that it held before a run unless it is in use and was released on
the way, or was free to begin with. -/
theorem HasWorld.standsFor_wrap_iff {p : Pool} (begun : p.HasWorld) (id : EntityId)
    (ops : List Operation) (few : p.releases id ops < UInt32.size - 1) :
    (p.run ops).StandsFor id (p.wrap id) ↔
      (p.run ops).isOccupied id = false ∨ p.isOccupied id = true ∧ p.releases id ops = 0 := by
  have before := begun.resolve_wrap id ops few
  have now : ((p.run ops).wrap id).resolve (p.run ops) =
      if (p.run ops).isOccupied id = true then some id else none := by
    simpa [releases] using (begun.run ops).resolve_wrap id [] (by simp [releases, UInt32.size])
  constructor
  · rintro (same | gone)
    · rw [← same, now] at before
      cases live : (p.run ops).isOccupied id with
      | false => exact .inl rfl
      | true =>
        right
        simpa [live] using before
    · rw [now] at gone
      left
      simpa using gone
  · rintro (gone | kept)
    · right
      rw [now, if_neg (by simp [gone])]
    · rw [if_pos kept] at before
      exact .inl (wrap_of_resolve before)

end EntityScripting.Pool
