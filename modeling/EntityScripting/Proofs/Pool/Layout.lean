import EntityScripting.Proofs.Pool.Handle
import EntityScripting.Proofs.Pool.Living
import Mathlib.Data.Finset.Card
import Mathlib.Order.Interval.Finset.Nat

/-!
# The slots of a pool

Which slots a pool has at any time of a run (`Layout`), and which of them a spawn takes: the lowest
that is neither reserved nor in use, or one more if there is none such (`Allocates`). When a spawn is
refused is a matter of counting (`spawn?_eq_none_iff`).
-/

namespace EntityScripting.Pool

open Number

def isVacant (p : Pool) (id : EntityId) : Bool := !p.isReserved id && !p.isOccupied id

theorem isVacant_eq_false {p : Pool} {id : EntityId} (below : id < p.size)
    (taken : ∀ e, p.maxClients < id → p.entity? id = some e → e.inUse = true) :
    p.isVacant id = false := by
  obtain ⟨e, held⟩ := exists_entity? below
  by_cases above : p.maxClients < id
  · simp [isVacant, isOccupied, slot?, held, taken e above held]
  · simp [isVacant, isReserved, Nat.le_of_not_lt above]

/-- The slots in use that are neither the world's nor a player's. -/
def occupants (p : Pool) : Finset EntityId :=
  (Finset.range p.size).filter fun id => p.isReserved id = false ∧ p.isOccupied id = true

theorem mem_occupants {p : Pool} {id : EntityId} :
    id ∈ p.occupants ↔ p.isReserved id = false ∧ p.isOccupied id = true := by
  simp only [occupants, Finset.mem_filter, Finset.mem_range, and_iff_right_iff_imp, and_imp]
  intro _ live
  obtain ⟨e, held, -⟩ := isOccupied_iff.mp live
  exact lt_size_of_entity? held

theorem occupants_subset (p : Pool) : p.occupants ⊆ Finset.Ioo p.maxClients p.size := by
  intro id member
  obtain ⟨free, live⟩ := mem_occupants.mp member
  obtain ⟨e, held, -⟩ := isOccupied_iff.mp live
  rw [Finset.mem_Ioo]
  exact ⟨by simpa [isReserved] using free, lt_size_of_entity? held⟩

theorem vacantId?_eq_none_iff_occupants (p : Pool) :
    p.vacantId? = none ↔ p.occupants = Finset.Ioo p.maxClients p.size := by
  rw [vacantId?_eq_none_iff]
  constructor
  · intro taken
    refine p.occupants_subset.antisymm fun id member => mem_occupants.mpr ?_
    obtain ⟨above, below⟩ := Finset.mem_Ioo.mp member
    obtain ⟨e, held⟩ := exists_entity? below
    exact ⟨by simpa [isReserved] using above, isOccupied_iff.mpr ⟨e, held, taken id e above held⟩⟩
  · intro all id e above held
    have member : id ∈ p.occupants := by
      rw [all, Finset.mem_Ioo]
      exact ⟨above, lt_size_of_entity? held⟩
    obtain ⟨occupant, stands, live⟩ := isOccupied_iff.mp (mem_occupants.mp member).2
    rwa [← Option.some.inj (stands.symm.trans held)]

/-! ### What a spawn takes -/

theorem spawn?_eq_none {p : Pool} :
    p.spawn? = none ↔ p.vacantId? = none ∧ p.capacity ≤ p.size := by
  unfold spawn?
  split
  · rename_i vacant
    simp [vacant]
  · rename_i taken
    simp [taken]

/-- A spawn is refused when as many slots are in use as there can be. -/
theorem spawn?_eq_none_iff {p : Pool} (reserved : p.maxClients < p.size)
    (bounded : p.size ≤ p.capacity) :
    p.spawn? = none ↔ p.occupants.card = p.capacity - p.maxClients - 1 := by
  have room : p.occupants ⊆ Finset.Ioo p.maxClients p.capacity :=
    p.occupants_subset.trans (Finset.Ioo_subset_Ioo_right bounded)
  rw [spawn?_eq_none, vacantId?_eq_none_iff_occupants, ← Nat.card_Ioo]
  constructor
  · rintro ⟨taken, full⟩
    rw [taken, Nat.le_antisymm bounded full]
  · intro count
    have all := Finset.eq_of_subset_of_card_le room (Nat.le_of_eq count.symm)
    -- A slot that is not allocated yet would have to be in use.
    have full : p.capacity ≤ p.size := by
      by_contra more
      have member : p.size ∈ p.occupants := by
        rw [all, Finset.mem_Ioo]
        omega
      exact absurd (Finset.mem_Ioo.mp (p.occupants_subset member)).2 (Nat.lt_irrefl _)
    rw [Nat.le_antisymm bounded full]
    exact ⟨all, Nat.le_refl _⟩

structure Allocates (p : Pool) (id : EntityId) (q : Pool) : Prop where
  /-- It takes a slot that is to be had, -/
  vacant : p.isVacant id = true
  /-- the lowest of them, -/
  lowest : ∀ other < id, p.isVacant other = false
  /-- and allocates no slot but the next, -/
  next : id ≤ p.size
  size : q.size = if id = p.size then p.size + 1 else p.size
  /-- brings what is in it into use -/
  claimed : q.entity? id = some { (p.entity? id).getD (Entity.vacant id 0) with inUse := true }
  /-- and changes nothing else. -/
  beside : Beside id p q

theorem allocates_of_spawn? {p q : Pool} {id : EntityId} (reserved : p.maxClients < p.size)
    (spawned : p.spawn? = some (id, q)) : p.Allocates id q := by
  have claims := claims_of_spawn? spawned
  have beside := Beside.spawn? spawned
  have vacant : p.isVacant id = true := by
    simp [isVacant, claims.vacant, claims.reserved reserved]
  unfold spawn? at spawned
  split at spawned
  · rename_i first
    cases spawned
    obtain ⟨-, ⟨e, held, -⟩, lower⟩ := vacantId?_eq_some first
    have below : id < p.size := lt_size_of_entity? held
    refine ⟨vacant, fun other less => ?_, below.le, ?_, ?_, beside⟩
    · exact isVacant_eq_false (less.trans below) fun e above stands => lower other e above less stands
    · rw [size_modify, if_neg below.ne]
    · rw [entity?_modify, if_pos rfl, held, Option.map_some, Option.getD_some]
  · rename_i taken
    split at spawned
    · cases spawned
      refine ⟨vacant, fun other less => ?_, le_rfl, ?_, ?_, beside⟩
      · exact isVacant_eq_false less (vacantId?_eq_none_iff.mp taken other)
      · rw [size_grow, if_pos rfl]
      · rw [entity?_grow, if_pos rfl, entity?_size, Option.getD_none]
    · cases spawned

structure Layout (config : PoolConfig) (p : Pool) : Prop where
  maxClients : p.maxClients = config.maxClients
  capacity : p.capacity = max config.maxEntities (config.maxClients + 1)
  indexed : ∀ id e, p.entity? id = some e → e.index = id
  indices : p.entities.toList.map (·.index) = List.range p.size
  reserved : p.maxClients + 1 ≤ p.size
  bounded : p.size ≤ p.capacity
  world : p.slot? worldId = some ⟨true, 0⟩
  generation : ∀ id, p.isReserved id = true → ∃ inUse, p.slot? id = some ⟨inUse, 0⟩

theorem slot?_new {config : PoolConfig} {id : EntityId}
    (reserved : (Pool.new config).isReserved id = true) :
    ∃ inUse, (Pool.new config).slot? id = some ⟨inUse, 0⟩ := by
  have known : id ≤ config.maxClients := of_decide_eq_true reserved
  rw [slot?, entity?_new, if_pos known, Option.map_some]
  split
  · exact ⟨true, rfl⟩
  · exact ⟨false, rfl⟩

theorem layout_run (config : PoolConfig) (ops : List Operation) :
    ((Pool.new config).run ops).Layout config := by
  have made : (Pool.new config).Reaches ((Pool.new config).run ops) := ⟨ops, rfl⟩
  refine ⟨made.extent.maxClients, capacity_of_made made, fun _ _ => index_of_entity?,
    map_index _, maxClients_lt_of_made made, size_le_of_made made, (hasWorld_new config).run ops, fun id reserved => ?_⟩
  have begun : (Pool.new config).isReserved id = true := by
    rwa [isReserved, made.extent.maxClients] at reserved
  obtain ⟨inUse, first⟩ := slot?_new begun
  obtain ⟨s, found, generation, -⟩ := exists_slot_run _ id ops first
  rw [releases_of_isReserved begun] at generation
  exact ⟨s.inUse, by rw [found, show s = ⟨s.inUse, 0⟩ by cases s; simpa using generation]⟩

/-- A reserved slot in use stays so. -/
theorem isOccupied_run_of_isReserved {p : Pool} {id : EntityId} (reserved : p.isReserved id = true)
    (live : p.isOccupied id = true) (ops : List Operation) : (p.run ops).isOccupied id = true := by
  obtain ⟨e, held, inUse⟩ := isOccupied_iff.mp live
  obtain ⟨s, found, -, stays⟩ := exists_slot_run p id ops (slot?_of_entity? held)
  rw [isOccupied, found]
  exact stays (releases_of_isReserved reserved ops) inUse

/-! ### The numbers of the slots -/

/-- Whether each number that an operation gives is the index of the entity that it is about, and that
entity stands in the place with this number. -/
structure Numbered (p : Pool) : Prop where
  spawn : ∀ id q, p.spawn? = some (id, q) → ∃ e, q.entity? id = some e ∧ e.index = id ∧ e.inUse = true
  connect : ∀ client id q, p.connect? client = some (id, q) →
    (∃ e, q.entity? id = some e ∧ e.index = id ∧ e.inUse = true ∧ e.isPlayer = true) ∧
      ∀ other ≠ id, q.entity? other = p.entity? other
  find : ∀ field value id, id ∈ p.find field value ↔
    id ≠ worldId ∧ ∃ e text, p.entity? id = some e ∧ e.index = id ∧ e.inUse = true ∧
      e.fields.text? field = some text ∧ Text.sameIgnoringCase text value = true
  takeDue : ∀ id think q, p.takeDue? = some (id, think, q) →
    (∃ e, p.entity? id = some e ∧ e.index = id ∧ e.inUse = true ∧ e.think = some think) ∧
      ∀ other ≠ id, q.entity? other = p.entity? other
  wrap : ∀ id, p.isOccupied id = true → (p.wrap id).resolve p = some id
  resolve : ∀ (h : Handle) id, h.resolve p = some id →
    ∃ e, p.entity? id = some e ∧ e.index = id ∧ e.inUse = true ∧ e.generation = h.generation

theorem numbered (p : Pool) : p.Numbered where
  spawn id q spawned := by
    obtain ⟨e, held, live⟩ := (claims_of_spawn? spawned).live
    exact ⟨e, held, index_of_entity? held, live⟩
  connect client id q connected := by
    obtain ⟨rfl, -, ⟨e, held⟩, rfl⟩ := connect?_eq_some connected
    refine ⟨⟨joined e, ?_, (index_joined e).trans (index_of_entity? held), rfl, rfl⟩, ?_⟩
    · rw [entity?_modify, if_pos rfl, held, Option.map_some]
    · intro other apart
      rw [entity?_modify, if_neg apart.symm]
  find field value id := by
    simp only [mem_find_iff, Option.any_eq_true]
    refine and_congr_right fun _ => exists_congr fun e => ⟨?_, ?_⟩
    · rintro ⟨held, live, text, named, same⟩
      exact ⟨text, held, index_of_entity? held, live, named, same⟩
    · rintro ⟨text, held, -, live, named, same⟩
      exact ⟨held, live, text, named, same⟩
  takeDue id think q taken := by
    obtain ⟨first, carried, rfl⟩ := takeDue?_eq_some taken
    obtain ⟨e, held, due, -⟩ := dueId?_eq_some first
    simp only [isDue, Bool.and_eq_true] at due
    refine ⟨⟨e, held, index_of_entity? held, due.1.1, by simpa [held] using carried⟩, ?_⟩
    intro other apart
    rw [modifyBody, entity?_modify, if_neg apart.symm]
  wrap _ live := resolve_wrap_self live
  resolve h id found := by
    obtain ⟨rfl, e, held, live, same⟩ := (h.resolve_eq_some_iff p id).mp found
    exact ⟨e, held, index_of_entity? held, live, same⟩

/-- At any time of any run, a pool has the slots that it was made with and no more than it can have,
it loses none, and a spawn takes the lowest one that is neither reserved nor in use. It is refused,
and then changes nothing, exactly when there is no more room. -/
theorem slots_taken_in_order (config : PoolConfig) (ops : List Operation) :
    ((Pool.new config).run ops).Layout config ∧
      ((Pool.new config).run ops).Numbered ∧
      (∀ more, ((Pool.new config).run ops).size ≤ (((Pool.new config).run ops).run more).size ∧
        ∀ id, ((Pool.new config).run ops).isReserved id = true →
          ((Pool.new config).run ops).isOccupied id = true →
            (((Pool.new config).run ops).run more).isOccupied id = true) ∧
      (∀ id q, ((Pool.new config).run ops).spawn? = some (id, q) →
        ((Pool.new config).run ops).Allocates id q) ∧
      (((Pool.new config).run ops).spawn? = none ↔
        ((Pool.new config).run ops).occupants.card =
          ((Pool.new config).run ops).capacity - config.maxClients - 1) ∧
      (((Pool.new config).run ops).spawn? = none →
        ((Pool.new config).run ops).apply .spawn = (Pool.new config).run ops) := by
  have layout := layout_run config ops
  generalize (Pool.new config).run ops = p at layout ⊢
  refine ⟨layout, p.numbered, fun more => ⟨(Extends.run p more).size, fun id reserved live => ?_⟩,
    fun id q spawned => ?_, ?_, fun refused => ?_⟩
  · exact isOccupied_run_of_isReserved reserved live more
  · exact allocates_of_spawn? layout.reserved spawned
  · rw [← layout.maxClients]
    exact spawn?_eq_none_iff layout.reserved layout.bounded
  · simp [Pool.apply, refused]

/-- A pool with room for two: a third spawn is refused, and the lower slot is taken again. -/
theorem slots_taken_in_order_full :
    (((Pool.new ⟨1, 4⟩).run [.spawn, .spawn]).occupants.card = 2 ∧
        ((Pool.new ⟨1, 4⟩).run [.spawn, .spawn]).apply .spawn =
          (Pool.new ⟨1, 4⟩).run [.spawn, .spawn]) ∧
      ∃ q, ((Pool.new ⟨1, 4⟩).run [.spawn, .spawn, .free 2]).spawn? = some (2, q) ∧
        ((Pool.new ⟨1, 4⟩).run [.spawn, .spawn, .free 2]).Allocates 2 q := by
  have refused : ((Pool.new ⟨1, 4⟩).run [.spawn, .spawn]).spawn? = none := rfl
  obtain ⟨-, -, -, -, full, kept⟩ := slots_taken_in_order ⟨1, 4⟩ [.spawn, .spawn]
  refine ⟨⟨full.mp refused, kept refused⟩, _, rfl, ?_⟩
  obtain ⟨-, -, -, allocates, -⟩ := slots_taken_in_order ⟨1, 4⟩ [.spawn, .spawn, .free 2]
  exact allocates 2 _ rfl

end EntityScripting.Pool
