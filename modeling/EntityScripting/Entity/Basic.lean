import EntityScripting.Entity.Field
import EntityScripting.Logged
import EntityScripting.SortedMap

/-!
# Entities

A slot of the pool holds an entity: whether it is in use, its generation, and the body that the game
and the scripts work on. A handle names a slot together with the generation it had, so that it can
be told whether the slot still holds the same entity.
-/

namespace EntityScripting

open Number

/-- The number of a slot. -/
abbrev EntityId := Nat

/-- The slot of the world. -/
def worldId : EntityId := 0

/-- A slot and the generation it had. -/
structure Handle where
  slot : EntityId
  generation : Int32
deriving DecidableEq, Repr, Inhabited

namespace Handle

/-- The handle that stands for no entity: the world never has this generation. -/
def invalid : Handle := ⟨worldId, -1⟩

def text (h : Handle) : String := s!"entity #{h.slot}@{intText h.generation.toInt}"

end Handle

/-- An action put off until the clock reaches the time of the entity that carries it. -/
inductive Think where
  | trigger (target : Handle) (activator : Option Handle)
  | kill (target : Handle)
  | message (target : Handle)
deriving DecidableEq, Repr, Inhabited

/-- The entities that take part in a use. -/
structure UseEvent where
  target : EntityId
  other : Option EntityId := none
  activator : Option EntityId := none
deriving DecidableEq, Repr, Inhabited

/-- What a native callback does to the pool, one action after another; it may go on according to the
slot that a spawn gave it. -/
inductive Callback where
  | done
  | spawn (next : Option EntityId → Callback)
  | free (id : EntityId) (next : Callback)
  | kill (id : EntityId) (next : Callback)
  | announce (id : EntityId) (text : String) (next : Callback)

/-- What happens when an entity is used. -/
inductive UseBehavior where
  /-- The level function named by the entity's `script_function` is called. -/
  | script
  /-- Every entity whose `targetname` is this entity's `target` is used. -/
  | relay
  | native (callback : UseEvent → Callback)

def UseBehavior.name : UseBehavior → String
  | .script => "Script"
  | .relay => "Relay"
  | .native _ => "Native(..)"

/-- All of an entity but its place in the pool. -/
structure Body where
  fields : Fields := {}
  isPlayer : Bool := false
  isMonster : Bool := false
  takeDamage : Bool := false
  dead : Bool := false
  /-- Whether a kill counts in the level's total. -/
  counted : Bool := false
  inventory : SortedMap String UInt32 := {}
  use : Option UseBehavior := none
  think : Option Think := none
  nextThink : Single := {}
deriving Inhabited

namespace Body

/-- The class of an entity, with a name for entities that have none. -/
def classname (body : Body) : String := body.fields.classname.getD "noclass"

/-- The class and the slot, as messages name an entity. -/
def label (body : Body) (id : EntityId) : String := s!"{body.classname} #{id}"

end Body

/-- A slot of the pool and what it holds. -/
structure Entity extends Body where
  /-- The number of the slot. -/
  index : EntityId
  inUse : Bool := false
  generation : Int32 := 0
deriving Inhabited

namespace Entity

/-- A slot that nothing is left in. -/
def vacant (index : EntityId) (generation : Int32) : Entity := { index, generation }

/-- The entity with another body. -/
def withBody (e : Entity) (body : Body) : Entity := { e with toBody := body }

@[simp] theorem index_withBody (e : Entity) (body : Body) : (e.withBody body).index = e.index := rfl

end Entity

/-- Sets up a new entity of a class; the flag says whether the class takes it. -/
abbrev SpawnRule := EntityId → Body → Logged (Bool × Body)

end EntityScripting
