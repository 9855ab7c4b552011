import EntityScripting.Pool.Basic

/-!
# Handles and the pool

A handle made from a slot in use resolves to that slot for as long as the slot keeps its generation.
A handle made from a free slot gets the generation before the present one, which the next occupant
will not have either.
-/

namespace EntityScripting

namespace Pool

/-- The handle of what a slot holds now. -/
def wrap (p : Pool) (id : EntityId) : Handle :=
  match p.entity? id with
  | some e => ⟨id, if e.inUse then e.generation else e.generation - 1⟩
  | none => .invalid

end Pool

namespace Handle

/-- The entity of a handle, if it is still the one the handle was made from. -/
def entity? (h : Handle) (p : Pool) : Option Entity :=
  (p.entity? h.slot).filter fun e => e.inUse && e.generation = h.generation

/-- The index of a handle's entity, if that is still there. -/
def resolve (h : Handle) (p : Pool) : Option EntityId := (h.entity? p).map (·.index)

def isValid (h : Handle) (p : Pool) : Bool := (h.resolve p).isSome

theorem entity?_eq_some_iff {h : Handle} {p : Pool} {e : Entity} :
    h.entity? p = some e ↔
      p.entity? h.slot = some e ∧ e.inUse = true ∧ e.generation = h.generation := by
  simp [entity?, Option.filter_eq_some_iff]

theorem index_of_entity? {h : Handle} {p : Pool} {e : Entity} (found : h.entity? p = some e) :
    e.index = h.slot := Pool.index_of_entity? (entity?_eq_some_iff.mp found).1

theorem resolve_of_entity? {h : Handle} {p : Pool} {e : Entity} (found : h.entity? p = some e) :
    h.resolve p = some h.slot := by
  rw [resolve, found, Option.map_some, index_of_entity? found]

/-- The index of the entity is the slot of the handle. -/
theorem resolve_eq_some_iff (h : Handle) (p : Pool) (id : EntityId) :
    h.resolve p = some id ↔
      h.slot = id ∧
        ∃ e, p.entity? h.slot = some e ∧ e.inUse = true ∧ e.generation = h.generation := by
  constructor
  · intro resolved
    obtain ⟨e, found, rfl⟩ := Option.map_eq_some_iff.mp resolved
    exact ⟨(index_of_entity? found).symm, e, entity?_eq_some_iff.mp found⟩
  · rintro ⟨rfl, e, held, live⟩
    exact resolve_of_entity? (entity?_eq_some_iff.mpr ⟨held, live⟩)

end Handle

end EntityScripting
