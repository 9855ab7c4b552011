import EntityScripting.Proofs.Game.Primitive
import EntityScripting.Proofs.Pool.Deadline
import EntityScripting.Proofs.Pool.Living

/-!
# How entities enter the game

A map entity, a new entity of a script, an item that is given and the helper of a delayed action all
begin with a slot that is claimed. For each of these requests, what becomes of the slot, and that a
request which is refused with an error has left the pool as it was.
-/

namespace EntityScripting

open Number Script

namespace Pool

variable {p : Pool} {id : EntityId}

/-- Items need no rule. -/
theorem setUp_of_item {e : Entity} {item : Item} (held : p.entity? id = some e)
    (named : e.fields.classname = some item.classname)
    (listed : Item.find? p.items item.classname = some item) : p.setUp id = pure (true, p) := by
  have known : (Item.find? p.items (Text.asciiLower e.classname)).isSome = true := by
    rw [Body.classname, named, Option.getD_some,
      Item.find?_congr (Text.asciiLower_asciiLower item.classname), listed]
    rfl
  unfold setUp
  rw [held]
  exact if_pos known

def rejects (p : Pool) (classname : String) (origin angles : Vec3) : Bool :=
  match p.spawn? with
  | none => false
  | some (id, q) =>
    !((q.modifyFields id fun fields =>
      { fields with classname := some classname, origin, angles }).setUp id).value.1

/-- Whether a new entity is all that is different, which is still what the spawn found in its slot
but for its fields and its action. -/
structure Enlists (p q : Pool) (id : EntityId) : Prop where
  beside : Beside id p q
  made : ∃ r e f think time, p.spawn? = some (id, r) ∧ r.entity? id = some e ∧
    q.entity? id = some { e with fields := f, think, nextThink := time }

theorem enlists_of_spawn? {p q : Pool} {id : EntityId} (spawned : p.spawn? = some (id, q))
    (f : Fields → Fields) (delay : Single) (think : Think) :
    p.Enlists ((q.modifyFields id f).schedule id delay think) id where
  beside := ((Beside.spawn? spawned).trans (.modifyFields q id f)).trans (.modifyBody _ id _)
  made := by
    obtain ⟨e, held, -⟩ := (claims_of_spawn? spawned).live
    exact ⟨q, e, _, _, _, spawned, held, entity?_schedule (entity?_modifyFields held f) delay think⟩

theorem Enlists.modifyFields {p q : Pool} {id : EntityId} (enlists : p.Enlists q id)
    (f : Fields → Fields) : p.Enlists (q.modifyFields id f) id where
  beside := enlists.beside.trans (.modifyFields q id f)
  made := by
    obtain ⟨r, e, fields, think, time, spawned, held, found⟩ := enlists.made
    exact ⟨r, e, _, think, time, spawned, held, entity?_modifyFields found f⟩

end Pool

namespace Game

def Refuses {α : Type} (g : Game) (result : Except ScriptError α × Game) : Prop :=
  (∃ e, result.1 = .error e) ∧ result.2.pool = g.pool

theorem refuses {α : Type} {g g' : Game} (e : ScriptError) (same : g'.pool = g.pool) :
    g.Refuses ((.error e : Except ScriptError α), g') := ⟨⟨e, rfl⟩, same⟩

/-- A new entity of a script is there if its class takes it; a kill of it does not count then. -/
theorem spawn_cases (classname : String) (origin angles : Vec3) (g : Game) :
    g.Refuses (spawn classname origin angles g) ∧
        g.pool.rejects classname origin angles = false ∨
      ∃ id p f, g.pool.spawn? = some (id, p) ∧
        (spawn classname origin angles g).1 =
          .ok ((spawn classname origin angles g).2.pool.wrap id) ∧
        g.pool.rejects classname origin angles = !((p.modifyFields id f).setUp id).value.1 ∧
        (spawn classname origin angles g).2.pool =
          if ((p.modifyFields id f).setUp id).value.1 = true then
            ((p.modifyFields id f).setUp id).value.2.modifyBody id
              (fun body => { body with counted := false })
          else ((p.modifyFields id f).setUp id).value.2 := by
  unfold spawn
  dsimp only
  split
  · rename_i full
    have full : g.pool.spawn? = none := full
    exact .inl ⟨refuses _ rfl, by simp only [Pool.rejects, full]⟩
  · rename_i id p spawned
    have spawned : g.pool.spawn? = some (id, p) := spawned
    simp only [Pool.rejects, spawned]
    generalize (fun fields : Fields =>
      { fields with classname := some classname, origin, angles }) = f
    refine .inr ⟨id, p, f, rfl, rfl, rfl, ?_⟩
    generalize (p.modifyFields id f).setUp id = result
    obtain ⟨⟨_ | _, q⟩, records⟩ := result <;> rfl

/-- An item that is given is made, and is either picked up or removed again. -/
theorem give_cases (h : Handle) (name : String) (g : Game) :
    g.Refuses (give h name g) ∨
      ∃ item id p f, g.pool.isOccupied h.slot = true ∧
        Item.find? g.pool.items name = some item ∧ g.pool.spawn? = some (id, p) ∧
        (∀ fields, (f fields).classname = some item.classname) ∧
        (give h name g).1 = .ok ((p.modifyFields id f).touch id h.slot).value.1 ∧
        (give h name g).2.pool =
          if ((p.modifyFields id f).touch id h.slot).value.1 = true then
            ((p.modifyFields id f).touch id h.slot).value.2
          else (((p.modifyFields id f).touch id h.slot).value.2.free id).value := by
  unfold give
  split
  · exact .inl (refuses _ rfl)
  rename_i player found
  split
  · exact .inl (refuses _ rfl)
  split
  · exact .inl (refuses _ rfl)
  rename_i item listed
  dsimp only
  split
  · exact .inl (refuses _ rfl)
  rename_i id p spawned
  have spawned : g.pool.spawn? = some (id, p) := spawned
  generalize dressed : (fun fields : Fields =>
    { fields with classname := some item.classname, origin := player.fields.origin }) = f
  have named (fields : Fields) : (f fields).classname = some item.classname := by rw [← dressed]
  -- The class is one of the items, so it takes the new entity as it is.
  have accepted : (p.modifyFields id f).setUp id = pure (true, p.modifyFields id f) := by
    obtain ⟨e, held, -⟩ := (Pool.claims_of_spawn? spawned).live
    refine Pool.setUp_of_item (Pool.entity?_modifyFields held f) (named e.fields) ?_
    have items : (p.modifyFields id f).items = g.pool.items := by
      rw [((Pool.Beside.spawn? spawned).trans (.modifyFields p id f)).rest]
    rw [items]
    exact Item.find?_classname listed
  refine .inr ⟨item, id, p, f, isOccupied_of_entity found, listed, spawned, named, ?_⟩
  rw [accepted, index_of_entity found]
  cases taken : ((p.modifyFields id f).touch id h.slot).value.1 <;> simp [keep, taken, withPool]

/-! ### Helpers of delayed actions -/

theorem postpone_cases (target : Handle) (delay : Single) (think : Think) (g : Game) :
    g.Refuses (postpone target delay think g) ∨
      ∃ id, (postpone target delay think g).1 = .ok id ∧
        g.pool.Enlists (postpone target delay think g).2.pool id := by
  unfold postpone
  split
  · exact .inl (refuses _ rfl)
  dsimp only
  split
  · exact .inl (refuses _ rfl)
  · rename_i id p spawned
    exact .inr ⟨id, rfl, Pool.enlists_of_spawn? spawned _ delay think⟩

theorem postponeMessage_cases (target : Handle) (delay : Single) (text : String) (g : Game) :
    g.Refuses (postponeMessage target delay text g) ∨
      ∃ id, (postponeMessage target delay text g).1 = .ok id ∧
        g.pool.Enlists (postponeMessage target delay text g).2.pool id := by
  have cases := postpone_cases target delay (.message target) g
  unfold postponeMessage
  generalize postpone target delay (.message target) g = result at cases
  obtain ⟨outcome, g'⟩ := result
  rcases cases with ⟨⟨e, rfl⟩, same⟩ | ⟨id, rfl, enlists⟩
  · exact .inl (refuses e same)
  · exact .inr ⟨id, rfl, enlists.modifyFields fun fields => { fields with message := some text }⟩

/-- Scripts see of a helper only that it was made. -/
theorem mapped_cases {β : Type} {g : Game} {result : Except ScriptError EntityId × Game}
    (answer : β) (cases : g.Refuses result ∨
      ∃ id, result.1 = .ok id ∧ g.pool.Enlists result.2.pool id) :
    g.Refuses (result.1.map fun _ => answer, result.2) ∨
      (result.1.map fun _ => answer) = .ok answer ∧ ∃ id, g.pool.Enlists result.2.pool id := by
  obtain ⟨outcome, g'⟩ := result
  rcases cases with ⟨⟨e, rfl⟩, same⟩ | ⟨id, rfl, enlists⟩
  · exact .inl (refuses e same)
  · exact .inr ⟨rfl, id, enlists⟩

/-- A trigger is refused, is put off, or is to be carried out at once. -/
theorem trigger_cases (h : Handle) (delay : Single) (g : Game) :
    g.Refuses (trigger h delay g) ∨
      (trigger h delay g).1 = .ok none ∧ (∃ id, g.pool.Enlists (trigger h delay g).2.pool id) ∨
      ∃ event, trigger h delay g = (.ok (some event), g) := by
  unfold trigger
  split
  · exact .inl (refuses _ rfl)
  split
  · exact .inl (refuses _ rfl)
  dsimp only
  split
  · rcases mapped_cases none (postpone_cases h delay _ g) with refused | posted
    · exact .inl refused
    · exact .inr (.inl posted)
  · split
    · exact .inl (refuses _ rfl)
    · exact .inr (.inr ⟨_, rfl⟩)

theorem kill_cases (h : Handle) (delay : Single) (g : Game) :
    g.Refuses (kill h delay g) ∨
      (kill h delay g).1 = .ok () ∧ (∃ id, g.pool.Enlists (kill h delay g).2.pool id) ∨
      (∃ e, g.entity h = .ok e ∧ e.isPlayer = false) ∧ Single.zero.lt delay = false ∧
        kill h delay g = (.ok (), g.withPool (g.pool.kill h.slot)) := by
  unfold kill
  split
  · exact .inl (refuses _ rfl)
  rename_i e found
  split
  · exact .inl (refuses _ rfl)
  rename_i mortal
  split
  · rcases mapped_cases () (postpone_cases h delay (.kill h) g) with refused | posted
    · exact .inl refused
    · exact .inr (.inl posted)
  · rename_i now
    rw [index_of_entity found]
    exact .inr (.inr ⟨⟨e, found, by simpa using mortal⟩, by simpa using now, rfl⟩)

theorem message_cases (h : Handle) (text : String) (delay : Single) (g : Game) :
    g.Refuses (message h text delay g) ∨
      (message h text delay g).1 = .ok () ∧
        ((∃ id, g.pool.Enlists (message h text delay g).2.pool id) ∨
          (message h text delay g).2 = g.announce h.slot text) := by
  unfold message
  split
  · exact .inl (refuses _ rfl)
  rename_i e found
  split
  · exact .inl (refuses _ rfl)
  split
  · rcases mapped_cases () (postponeMessage_cases h delay text g) with refused | posted
    · exact .inl refused
    · exact .inr ⟨posted.1, .inl posted.2⟩
  · rw [index_of_entity found]
    exact .inr ⟨rfl, .inr rfl⟩

/-- A map entity is made first. If a key does not fit, or its class does not take it, it is removed
again. -/
theorem placeEntity_cases (spec : EntitySpec) (g : Game) :
    g.Refuses (placeEntity spec g) ∨
      ∃ id p, g.pool.spawn? = some (id, p) ∧
        ((∃ e, (placeEntity spec g).1 = .error e) ∧
            (placeEntity spec g).2.pool = (p.free id).value ∨
          ∃ f, (placeEntity spec g).1 =
              .ok (if ((p.modifyFields id f).setUp id).value.1 = true then some id else none) ∧
            (placeEntity spec g).2.pool = ((p.modifyFields id f).setUp id).value.2) := by
  unfold placeEntity
  split
  · exact .inl (refuses _ rfl)
  rename_i id p spawned
  have converts := moves_convertKeys spec.keys.entries ({ g with pool := p }.intern spec.classname)
  refine .inr ⟨id, p, spawned, ?_⟩
  dsimp only
  split
  · rename_i e after converted
    rw [converted] at converts
    have same : after.pool = p := converts.pool.symm
    exact .inl ⟨⟨e, rfl⟩, by rw [← same]; rfl⟩
  · rename_i pairs after converted
    rw [converted] at converts
    have same : after.pool = p := converts.pool.symm
    refine .inr ⟨fun fields => setAll { fields with classname := some spec.classname } pairs, ?_⟩
    simp only [keep, modifyFields, same, and_self]

end Game

end EntityScripting
