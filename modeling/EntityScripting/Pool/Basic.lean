import EntityScripting.Entity.Basic
import EntityScripting.Text.Ascii

/-!
# The entity pool

Slot 0 is the world, the next slots belong to the players, and none of these is ever freed. The
other slots are claimed lowest first, and freeing one raises its generation, so that a handle to the
old entity is told apart from one to the next.
-/

namespace EntityScripting

open Number

/-- How large a pool is. -/
structure PoolConfig where
  maxClients : Nat := 1
  maxEntities : Nat := 1024
deriving DecidableEq, Repr, Inhabited

/-! ### The item catalog

The classes of items that players can carry, and how many of each. Names are compared without regard
to case, and of two entries with one name the first counts. -/

/-- An item class and how many a player can carry. -/
structure Item where
  classname : String
  max : UInt32
deriving DecidableEq, Repr, Inhabited

namespace Item

/-- The first entry of this name. -/
def find? (items : List Item) (classname : String) : Option Item :=
  items.find? fun item => Text.sameIgnoringCase item.classname classname

/-- The items every pool begins with. -/
def standard : List Item :=
  [⟨"weapon_shotgun", 1⟩, ⟨"weapon_supershotgun", 1⟩, ⟨"ammo_shells", 10⟩, ⟨"ammo_bullets", 20⟩,
    ⟨"item_armor_shard", 200⟩, ⟨"item_quad", 1⟩, ⟨"key_blue_key", 1⟩, ⟨"key_red_key", 1⟩,
    ⟨"key_data_cd", 1⟩]

end Item

/-- What the players see and hear. -/
inductive Event where
  | centerPrint (entity : EntityId) (text : String)
  | sound (entity : EntityId) (sample : String)
deriving DecidableEq, Repr, Inhabited

/-- The sound that goes with a message. -/
def talkSound : String := "misc/talk1.wav"

inductive PoolError where
  | exhausted
deriving DecidableEq, Repr, Inhabited

def PoolError.message : PoolError → String
  | .exhausted => "no free entities"

/-- Whether every entity has the number of its place for an index. -/
def Indexed (entities : Array Entity) : Prop :=
  ∀ (id : EntityId) (e : Entity), entities[id]? = some e → e.index = id

structure Pool where
  entities : Array Entity
  maxClients : Nat
  capacity : Nat
  time : Single := {}
  spawnRules : SortedMap String SpawnRule := {}
  items : List Item := Item.standard
  events : Array Event := #[]
  killed : UInt32 := 0
  indexed : Indexed entities

namespace Pool

/-! ### Spawn rules of the standard classes -/

/-- A scripted entity needs the name of its function. -/
def scriptRule : SpawnRule := fun id body =>
  if body.fields.scriptFunction.isNone then
    .note .warn s!"{body.label id} has no function set" (false, body)
  else pure (true, { body with use := some .script })

def relayRule : SpawnRule := fun _ body => pure (true, { body with use := some .relay })

def pointRule : SpawnRule := fun _ body => pure (true, body)

/-- A monster can be hurt and counts when killed; without health of its own it gets a little. -/
def monsterRule : SpawnRule := fun _ body =>
  let health := if body.fields.health ≤ 0 then 20 else body.fields.health
  pure (true, { body with
    isMonster := true, takeDamage := true, counted := true
    fields := { body.fields with health, maxHealth := health } })

def standardRules : SortedMap String SpawnRule := .ofList
  [("script", scriptRule), ("trigger_relay", relayRule), ("info_notnull", pointRule),
    ("info_null", pointRule), ("monster_soldier", monsterRule), ("monster_gunner", monsterRule)]

/-! ### Slots -/

/-- The world as a pool begins with it. -/
def world : Entity :=
  { Entity.vacant worldId 0 with inUse := true, fields := { classname := some "worldspawn" } }

/-- What a pool begins with: the world and a vacant slot for each player. -/
def reserved (clients : Nat) : List Entity :=
  (List.range (clients + 1)).map fun id => if id = worldId then world else Entity.vacant id 0

theorem getElem?_reserved (clients : Nat) (id : EntityId) :
    (reserved clients)[id]? =
      if id ≤ clients then some (if id = worldId then world else Entity.vacant id 0) else none := by
  rw [reserved, List.getElem?_map]
  by_cases below : id < clients + 1
  · rw [List.getElem?_range below, if_pos (Nat.le_of_lt_succ below), Option.map_some]
  · rw [List.getElem?_eq_none (by simpa using below), if_neg (below ∘ Nat.lt_succ_of_le),
      Option.map_none]

theorem indexed_reserved (clients : Nat) : Indexed (reserved clients).toArray := by
  intro id e found
  rw [List.getElem?_toArray, getElem?_reserved] at found
  split at found
  · cases found
    split
    · rename_i same
      exact same.symm
    · rfl
  · cases found

def new (config : PoolConfig) : Pool where
  entities := (reserved config.maxClients).toArray
  maxClients := config.maxClients
  capacity := max config.maxEntities (config.maxClients + 1)
  spawnRules := standardRules
  indexed := indexed_reserved config.maxClients

instance : Inhabited Pool := ⟨new {}⟩

/-- The slots allocated so far. -/
def size (p : Pool) : Nat := p.entities.size

def entity? (p : Pool) (id : EntityId) : Option Entity := p.entities[id]?

theorem index_of_entity? {p : Pool} {id : EntityId} {e : Entity} (found : p.entity? id = some e) :
    e.index = id := p.indexed id e found

theorem entity?_new (config : PoolConfig) (id : EntityId) :
    (new config).entity? id = if id ≤ config.maxClients then
      some (if id = worldId then world else Entity.vacant id 0) else none := by
  rw [entity?, new, List.getElem?_toArray, getElem?_reserved]

theorem indexed_modify {entities : Array Entity} (indexed : Indexed entities) {id : EntityId}
    {f : Entity → Entity} (kept : ∀ e, e.index = id → (f e).index = id) :
    Indexed (entities.modify id f) := by
  intro other e found
  rw [Array.getElem?_modify] at found
  split at found
  · rename_i same
    subst same
    obtain ⟨before, held, rfl⟩ := Option.map_eq_some_iff.mp found
    exact kept before (indexed _ _ held)
  · exact indexed other e found

theorem indexed_push {entities : Array Entity} (indexed : Indexed entities) {e : Entity}
    (next : e.index = entities.size) : Indexed (entities.push e) := by
  intro other e' found
  rw [Array.getElem?_push] at found
  split at found
  · rename_i last
    cases found
    rw [next, last]
  · exact indexed other e' found

/-- The pool with the entity of a slot changed, which keeps its index; a slot that is not allocated is
left alone. -/
def modify (p : Pool) (id : EntityId) (f : Entity → Entity)
    (kept : ∀ e, e.index = id → (f e).index = id) : Pool :=
  { p with entities := p.entities.modify id f, indexed := indexed_modify p.indexed kept }

section

variable (p : Pool) (id other : EntityId) (f : Entity → Entity)
  (kept : ∀ e, e.index = id → (f e).index = id)

@[simp] theorem size_modify : (p.modify id f kept).size = p.size := by
  simp [size, modify]

theorem entity?_modify :
    (p.modify id f kept).entity? other =
      if id = other then (p.entity? other).map f else p.entity? other := by
  rw [entity?, modify, Array.getElem?_modify]
  rfl

end

/-- The pool with the body in a slot changed. -/
def modifyBody (p : Pool) (id : EntityId) (f : Body → Body) : Pool :=
  p.modify id (fun e => e.withBody (f e.toBody)) fun e same => (e.index_withBody _).trans same

/-- The pool with the fields in a slot changed. -/
def modifyFields (p : Pool) (id : EntityId) (f : Fields → Fields) : Pool :=
  p.modifyBody id fun body => { body with fields := f body.fields }

/-- The pool with one slot more, which is in use. -/
def grow (p : Pool) : Pool :=
  { p with
    entities := p.entities.push { Entity.vacant p.size 0 with inUse := true }
    indexed := indexed_push p.indexed rfl }

@[simp] theorem size_grow (p : Pool) : p.grow.size = p.size + 1 := by
  simp [size, grow]

theorem entity?_grow (p : Pool) (id : EntityId) :
    p.grow.entity? id =
      if id = p.size then some { Entity.vacant p.size 0 with inUse := true } else p.entity? id := by
  rw [entity?, grow, Array.getElem?_push]
  rfl

/-- Whether a slot is the world's or a player's. -/
def isReserved (p : Pool) (id : EntityId) : Bool := id ≤ p.maxClients

/-- The entity as a player who comes into play. -/
def joined (e : Entity) : Entity :=
  { e with
    inUse := true, isPlayer := true, isMonster := false, takeDamage := true
    fields := { e.fields with classname := some "player", health := 100, maxHealth := 100 } }

@[simp] theorem index_joined (e : Entity) : (joined e).index = e.index := rfl

/-- Brings a client into play, in the slot that is kept for it. -/
def connect? (p : Pool) (client : Nat) : Option (EntityId × Pool) :=
  if client < p.maxClients then
    match p.entity? (client + 1) with
    | none => none
    | some player => some (player.index, p.modify (client + 1) joined fun e same =>
        (index_joined e).trans same)
  else none

/-- The lowest slot that is neither reserved nor in use. -/
def vacantId? (p : Pool) : Option EntityId :=
  ((p.entities.toList.drop (p.maxClients + 1)).find? fun e => !e.inUse).map (·.index)

/-- Claims the lowest slot that can be had, a new one only if all others are taken. -/
def spawn? (p : Pool) : Option (EntityId × Pool) :=
  match p.vacantId? with
  | some id => some (id, p.modify id (fun e => { e with inUse := true }) fun _ same => same)
  | none => if p.size < p.capacity then some (p.size, p.grow) else none

/-- Clears a slot in use and raises its generation. Reserved slots are never freed. -/
def free (p : Pool) (id : EntityId) : Logged Pool :=
  if p.isReserved id then .note .debug s!"refusing to free reserved entity #{id}" p
  else pure (p.modify id (fun e => if e.inUse then Entity.vacant id (e.generation + 1) else e)
    fun e same => by
      split
      · rfl
      · exact same)

/-- Whether killing the entity counts. -/
def isCreditable (e : Entity) : Bool := e.inUse && e.isMonster && !e.dead && e.counted

/-- Removes an entity; a live counted monster is credited first. -/
def kill (p : Pool) (id : EntityId) : Logged Pool :=
  if (p.entity? id).any isCreditable then ({ p with killed := p.killed + 1 } : Pool).free id
  else p.free id

/-! ### Classes and items -/

def addRule (p : Pool) (classname : String) (rule : SpawnRule) : Pool :=
  { p with spawnRules := p.spawnRules.insert (Text.asciiLower classname) rule }

def addItem (p : Pool) (item : Item) : Pool := { p with items := p.items ++ [item] }

/-- Sets an entity up by the rule of its class. Items need none; an entity without a rule, or that
its rule refuses, is freed. -/
def setUp (p : Pool) (id : EntityId) : Logged (Bool × Pool) :=
  match p.entity? id with
  | none => pure (false, p)
  | some e =>
    let classname := Text.asciiLower e.classname
    if (Item.find? p.items classname).isSome then pure (true, p)
    else match p.spawnRules.get? classname with
      | none => do
        Logged.note .debug s!"{e.label e.index} doesn't have a spawn function" ()
        return (false, ← p.free id)
      | some rule => do
        let (accepted, body) ← rule e.index e.toBody
        let p := p.modifyBody id fun _ => body
        if accepted then return (true, p) else return (false, ← p.free id)

/-- Lets a player pick an item up. The item is consumed if the player can carry it; a player who
cannot has an entry for it from then on, though. -/
def touch (p : Pool) (item player : EntityId) : Logged (Bool × Pool) :=
  match p.entity? item with
  | none => pure (false, p)
  | some e =>
    if !e.inUse then pure (false, p)
    else match Item.find? p.items e.classname with
      | none => pure (false, p)
      | some entry =>
        match p.entity? player with
        | none => pure (false, p)
        | some holder =>
          if !(holder.inUse && holder.isPlayer) then pure (false, p)
          else
            let held := (holder.inventory.get? entry.classname).getD 0
            let hold (n : UInt32) : Pool := p.modifyBody player fun body =>
              { body with inventory := body.inventory.insert entry.classname n }
            if entry.max ≤ held then pure (false, hold held)
            else do return (true, ← (hold (held + 1)).free item)

/-- The entities in use, the world apart, whose text under a key is this one up to case, lowest slot
first. -/
def find (p : Pool) (field : Field) (value : String) : List EntityId :=
  ((p.entities.toList.drop 1).filter fun e =>
    e.inUse && (e.fields.text? field).any (Text.sameIgnoringCase · value)).map (·.index)

/-! ### The clock -/

/-- Moves the clock forward; it never runs back. -/
def advance (p : Pool) (seconds : Single) : Pool := { p with time := p.time.add seconds.orZero }

/-- Gives an entity an action for a time after now. -/
def schedule (p : Pool) (id : EntityId) (delay : Single) (think : Think) : Pool :=
  p.modifyBody id fun body => { body with think := some think, nextThink := p.time.add delay }

/-- Whether an entity has an action whose time has come. -/
def isDue (now : Single) (e : Entity) : Bool := e.inUse && e.think.isSome && e.nextThink.le now

/-- The earlier of two actions; of equal times the one before. -/
def earlier (best : Option Entity) (e : Entity) : Option Entity :=
  match best with
  | none => some e
  | some first => if e.nextThink.rank < first.nextThink.rank then some e else some first

/-- The slot whose action is due first; of equal times the lowest slot. -/
def dueId? (p : Pool) : Option EntityId :=
  ((p.entities.toList.filter (isDue p.time)).foldl earlier none).map (·.index)

/-- Takes the action that is due first off its entity. -/
def takeDue? (p : Pool) : Option (EntityId × Think × Pool) :=
  match p.dueId? with
  | none => none
  | some id =>
    match (p.entity? id).bind (·.think) with
    | none => none
    | some think => some (id, think, p.modifyBody id fun body => { body with think := none })

/-! ### Events -/

def centerPrint (p : Pool) (id : EntityId) (text : String) : Pool :=
  { p with events := p.events.push (.centerPrint id text) }

def sound (p : Pool) (id : EntityId) (sample : String) : Pool :=
  { p with events := p.events.push (.sound id sample) }

/-- The events since the last time, which the pool forgets. -/
def takeEvents (p : Pool) : Array Event × Pool := (p.events, { p with events := #[] })

/-! ### Callbacks -/

/-- Carries a native callback out. -/
def runCallback : Callback → Pool → Logged Pool
  | .done, p => pure p
  | .spawn next, p =>
    match p.spawn? with
    | some (id, p) => runCallback (next (some id)) p
    | none => runCallback (next none) p
  | .free id next, p => do runCallback next (← p.free id)
  | .kill id next, p => do runCallback next (← p.kill id)
  | .announce id text next, p => runCallback next (p.centerPrint id text)

end Pool

end EntityScripting
