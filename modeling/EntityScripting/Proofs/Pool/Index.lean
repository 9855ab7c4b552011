import EntityScripting.Pool.Handle
import Mathlib.Data.List.Basic

/-!
# Indices and places

The operations on a pool answer with the index of an entity, and each of them goes on with the entity
in that place. What stands in a place has its number for an index (`Pool.indexed`), so a search of the
entities that answers with indices is a search of the places (`map_index_filter`).
-/

namespace EntityScripting.Pool

open Number

variable {p : Pool} {id : EntityId} {e : Entity}

theorem lt_size_of_entity? (found : p.entity? id = some e) : id < p.size :=
  (Array.getElem?_eq_some_iff.mp found).1

theorem exists_entity? (below : id < p.size) : ∃ e, p.entity? id = some e :=
  ⟨_, Array.getElem?_eq_getElem below⟩

theorem entity?_size (p : Pool) : p.entity? p.size = none := Array.getElem?_eq_none (Nat.le_refl _)

/-- A pool begins with the world and slots that nothing is left in. -/
theorem eq_of_entity?_new {config : PoolConfig} (found : (Pool.new config).entity? id = some e) :
    e = world ∨ e = Entity.vacant id 0 := by
  rw [entity?_new] at found
  split at found
  · cases found
    split
    · exact .inl rfl
    · exact .inr rfl
  · cases found

theorem map_index (p : Pool) : p.entities.toList.map (·.index) = List.range p.size := by
  refine List.ext_getElem? fun i => ?_
  rw [List.getElem?_map, Array.getElem?_toList]
  by_cases below : i < p.size
  · obtain ⟨e, held⟩ := exists_entity? below
    rw [List.getElem?_range below, show p.entities[i]? = some e from held, Option.map_some,
      index_of_entity? held]
  · rw [Array.getElem?_eq_none (Nat.le_of_not_lt below), Option.map_none,
      List.getElem?_eq_none (by simpa using below)]

theorem mem_entities_iff : e ∈ p.entities.toList ↔ p.entity? e.index = some e := by
  rw [List.mem_iff_getElem?]
  constructor
  · rintro ⟨i, found⟩
    rw [Array.getElem?_toList] at found
    rwa [index_of_entity? found]
  · intro held
    exact ⟨e.index, by rw [Array.getElem?_toList]; exact held⟩

/-- The entities stand in the order of their indices. -/
theorem pairwise_index (p : Pool) :
    p.entities.toList.Pairwise fun first second => first.index < second.index := by
  rw [← List.pairwise_map, map_index]
  exact List.pairwise_lt_range

/-- To search the entities from a place on is to search the places. -/
theorem map_index_filter (p : Pool) (start : Nat) (f : Entity → Bool) :
    ((p.entities.toList.drop start).filter f).map (·.index) =
      (List.range' start (p.size - start)).filter fun id => (p.entity? id).any f := by
  have places : (p.entities.toList.drop start).map (·.index) =
      List.range' start (p.size - start) := by
    rw [List.map_drop, map_index, List.range_eq_range', List.drop_range', Nat.zero_add, Nat.mul_one]
  rw [← places, List.filter_map]
  refine congrArg _ (List.filter_congr fun e member => ?_)
  rw [Function.comp_apply, mem_entities_iff.mp (List.mem_of_mem_drop member), Option.any_some]

theorem connect?_eq_some {q : Pool} {client : Nat} (connected : p.connect? client = some (id, q)) :
    id = client + 1 ∧ client < p.maxClients ∧ (∃ e, p.entity? id = some e) ∧
      q = p.modify id joined fun e same => (index_joined e).trans same := by
  unfold connect? at connected
  split at connected
  · rename_i known
    split at connected
    · cases connected
    · rename_i player held
      obtain ⟨rfl, rfl⟩ := Prod.mk.inj (Option.some.inj connected)
      have place := index_of_entity? held
      refine ⟨place, known, ⟨player, place.symm ▸ held⟩, ?_⟩
      simp only [place]
  · cases connected

theorem vacantId?_eq_find? (p : Pool) :
    p.vacantId? = (List.range' (p.maxClients + 1) (p.size - (p.maxClients + 1))).find? fun id =>
      (p.entity? id).any fun e => !e.inUse := by
  rw [vacantId?, ← List.head?_filter, ← List.head?_map, map_index_filter, List.head?_filter]

theorem vacantId?_eq_some (vacant : p.vacantId? = some id) :
    p.maxClients < id ∧ (∃ e, p.entity? id = some e ∧ e.inUse = false) ∧
      ∀ other e, p.maxClients < other → other < id → p.entity? other = some e → e.inUse = true := by
  rw [vacantId?_eq_find?, List.find?_range'_eq_some, List.mem_range'_1] at vacant
  obtain ⟨free, ⟨above, -⟩, lower⟩ := vacant
  obtain ⟨e, held, inUse⟩ := (Option.any_eq_true _ _).mp free
  refine ⟨above, ⟨e, held, by simpa using inUse⟩, fun other e above less held => ?_⟩
  simpa [held] using lower other above less

theorem vacantId?_eq_none_iff : p.vacantId? = none ↔
    ∀ id e, p.maxClients < id → p.entity? id = some e → e.inUse = true := by
  rw [vacantId?_eq_find?, List.find?_range'_eq_none]
  constructor
  · intro taken id e above held
    have below := lt_size_of_entity? held
    have room : p.maxClients + 1 + (p.size - (p.maxClients + 1)) = p.size :=
      Nat.add_sub_of_le (Nat.lt_trans above below)
    simpa [held] using taken id above (by rwa [room])
  · intro taken id above _
    cases held : p.entity? id with
    | none => rfl
    | some e => simp [taken id e above held]

theorem find_eq_filter (p : Pool) (field : Field) (value : String) :
    p.find field value = (List.range' 1 (p.size - 1)).filter fun id => (p.entity? id).any fun e =>
      e.inUse && (e.fields.text? field).any (Text.sameIgnoringCase · value) :=
  p.map_index_filter 1 _

theorem mem_find_iff {field : Field} {value : String} :
    id ∈ p.find field value ↔ id ≠ worldId ∧ ∃ e, p.entity? id = some e ∧ e.inUse = true ∧
      (e.fields.text? field).any (Text.sameIgnoringCase · value) = true := by
  rw [find_eq_filter, List.mem_filter, List.mem_range'_1, Option.any_eq_true]
  constructor
  · rintro ⟨⟨above, -⟩, e, held, fits⟩
    exact ⟨Nat.ne_of_gt above, e, held, Bool.and_eq_true_iff.mp fits⟩
  · rintro ⟨other, e, held, fits⟩
    have above : 1 ≤ id := Nat.pos_of_ne_zero other
    have below := lt_size_of_entity? held
    have room : 1 + (p.size - 1) = p.size := Nat.add_sub_of_le (Nat.lt_of_le_of_lt (Nat.zero_le id) below)
    exact ⟨⟨above, room.symm ▸ below⟩, e, held, Bool.and_eq_true_iff.mpr fits⟩

theorem pairwise_find (p : Pool) (field : Field) (value : String) :
    (p.find field value).Pairwise (· < ·) := by
  rw [find_eq_filter]
  exact (List.pairwise_lt_range' 1).filter _

end EntityScripting.Pool
