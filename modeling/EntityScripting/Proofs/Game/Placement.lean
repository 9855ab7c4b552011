import EntityScripting.Proofs.Entity.Conversion
import EntityScripting.Proofs.Entity.Field
import EntityScripting.Proofs.Game.Recycling
import EntityScripting.Proofs.Pool.Layout

/-!
# Entities of a map

An entity of a map is made in the lowest slot that is to be had, with every key that the map gives and
what its class makes of it (`placed_exactly`). It is not made if a key of it is at fault, of which the
first is told, or if its class does not take it.
-/

namespace EntityScripting

open Number

namespace Pool

/-- Whether the class of an entity takes it, and what the entity is then: an item is left as it is, and
any other class has a rule for it. -/
inductive Accepts (p : Pool) (id : EntityId) (body : Body) : Body → Prop
  | item {item : Item} : item ∈ p.items →
      Text.sameIgnoringCase item.classname body.classname = true → Accepts p id body body
  | rule {rule : SpawnRule} {final : Body} :
      (∀ item ∈ p.items, Text.sameIgnoringCase item.classname body.classname = false) →
      p.spawnRules.get? (Text.asciiLower body.classname) = some rule →
      (rule id body).value = (true, final) → Accepts p id body final

theorem isSome_find?_iff {items : List Item} {classname : String} :
    (Item.find? items classname).isSome = true ↔
      ∃ item ∈ items, Text.sameIgnoringCase item.classname classname = true := by
  simp [Item.find?]

/-- A class makes the same of an entity as long as the items and the rules are the same. -/
theorem Beside.accepts_iff {p q : Pool} {slot id : EntityId} (beside : Beside slot p q)
    {body final : Body} : q.Accepts id body final ↔ p.Accepts id body final := by
  rw [beside.rest]
  constructor
  · rintro (⟨member, same⟩ | ⟨others, ruled, made⟩)
    · exact .item member same
    · exact .rule others ruled made
  · rintro (⟨member, same⟩ | ⟨others, ruled, made⟩)
    · exact .item member same
    · exact .rule others ruled made

def IsFull (p : Pool) : Prop := p.occupants.card = p.capacity - p.maxClients - 1

theorem setUp_of_accepts {p : Pool} {id : EntityId} {e : Entity} (held : p.entity? id = some e)
    {final : Body} (accepts : p.Accepts id e.toBody final) :
    ∃ q, (p.setUp id).value = (true, q) ∧ q.entity? id = some (e.withBody final) := by
  unfold setUp
  simp only [held, index_of_entity? held, Item.find?_congr (Text.asciiLower_asciiLower e.classname)]
  cases accepts with
  | item member same =>
    rw [if_pos (isSome_find?_iff.mpr ⟨_, member, same⟩)]
    exact ⟨p, rfl, held⟩
  | @rule rule final others ruled made =>
    rw [if_neg, ruled]
    · simp only [Logged.value_bind, made]
      refine ⟨_, rfl, ?_⟩
      rw [modifyBody, entity?_modify, if_pos rfl, held, Option.map_some]
    · rw [isSome_find?_iff]
      rintro ⟨item, member, same⟩
      rw [others item member] at same
      cases same

theorem setUp_of_not_accepts {p : Pool} {id : EntityId} {e : Entity} (held : p.entity? id = some e)
    (refused : ∀ final, ¬ p.Accepts id e.toBody final) : (p.setUp id).value.1 = false := by
  unfold setUp
  simp only [held, index_of_entity? held, Item.find?_congr (Text.asciiLower_asciiLower e.classname)]
  split
  · rename_i found
    obtain ⟨item, member, same⟩ := isSome_find?_iff.mp found
    exact absurd (.item member same) (refused e.toBody)
  · rename_i none
    have others : ∀ item ∈ p.items, Text.sameIgnoringCase item.classname e.classname = false := by
      simpa [isSome_find?_iff] using none
    split
    · rfl
    · rename_i rule ruled
      have made := refused (rule id e.toBody).value.2
      simp only [Logged.value_bind]
      cases accepted : (rule id e.toBody).value.1 with
      | true => exact absurd (.rule others ruled (Prod.ext accepted rfl)) made
      | false => rfl

end Pool

/-! ### The keys of an entity -/

namespace EntitySpec

/-- Whether the keys of an entity are in order and none of them is the class, which stands apart. -/
structure Proper (spec : EntitySpec) : Prop where
  sorted : spec.keys.Sorted
  plain : spec.keys.get? Field.classname.name = none

theorem proper_of_ofJson? {value : Json} {spec : EntitySpec} (read : ofJson? value = some spec) :
    spec.Proper := by
  unfold ofJson? at read
  split at read
  · rename_i members
    split at read
    · split at read
      · cases read
        refine ⟨SortedMap.sorted_ofList _, Option.eq_none_iff_forall_ne_some.mpr fun value found => ?_⟩
        have member := SortedMap.mem_of_get?_ofList found
        simp [Field.name, TextKey.name] at member
      · cases read
    · cases read
  · cases read

def Sound (name : String) (value : Json) : Prop :=
  ∃ (field : Field) (held : FieldValue), field.name = name ∧ field.kind.Reads value held

inductive Fault (name : String) (value : Json) : ScriptError → Prop
  | unknown : (∀ field : Field, field.name ≠ name) → Fault name value (.unknownField name)
  | unfit (field : Field) : field.name = name → (∀ held, ¬ field.kind.Reads value held) →
      Fault name value (.fieldType field field.kind.noun value.kindName)

def Fits (spec : EntitySpec) : Prop :=
  ∀ name value, spec.keys.get? name = some value → Sound name value

def FirstFault (spec : EntitySpec) (e : ScriptError) : Prop :=
  ∃ name value, spec.keys.get? name = some value ∧ Fault name value e ∧
    ∀ earlier < name, ∀ value, spec.keys.get? earlier = some value → Sound earlier value

/-- Whether a body has the class and the keys of an entity, and else what was there before. -/
structure Fills (spec : EntitySpec) (left body : Body) : Prop where
  classname : body.fields.classname = some spec.classname
  given : ∀ (field : Field) (value : Json), spec.keys.get? field.name = some value →
    field.kind.Reads value (body.fields.get field)
  others : ∀ field ≠ Field.classname, spec.keys.get? field.name = none →
    body.fields.get field = left.fields.get field
  rest : body = { left with fields := body.fields }

end EntitySpec

namespace Game

open EntitySpec

variable {g : Game} {spec : EntitySpec} {entries : List (String × Json)}

def convertKey (entry : String × Json) : Except ScriptError (Field × FieldValue) :=
  Field.named entry.1 >>= fun field =>
    (FieldValue.ofJson field entry.2).map fun held => (field, held)

def keyFault? (entry : String × Json) : Option ScriptError :=
  match convertKey entry with
  | .error e => some e
  | .ok _ => none

theorem convertKey_eq_ok_iff {name : String} {value : Json} {field : Field} {held : FieldValue} :
    convertKey (name, value) = .ok (field, held) ↔
      field.name = name ∧ field.kind.Reads value held := by
  simp only [convertKey, Except.bind_eq_ok_iff, Except.map_eq_ok_iff, Field.named_eq_ok_iff,
    FieldValue.ofJson_eq_ok_iff, Prod.mk.injEq]
  constructor
  · rintro ⟨key, named, held', reads, rfl, rfl⟩
    exact ⟨named, reads⟩
  · rintro ⟨named, reads⟩
    exact ⟨field, named, held, reads, rfl, rfl⟩

theorem convertKey_eq_error_iff {name : String} {value : Json} {e : ScriptError} :
    convertKey (name, value) = .error e ↔ Fault name value e := by
  simp only [convertKey, Except.bind_eq_error_iff, Except.map_eq_error_iff, Field.named_eq_error_iff,
    Field.named_eq_ok_iff, FieldValue.ofJson_eq_error_iff]
  constructor
  · rintro (⟨rfl, none⟩ | ⟨field, named, rfl, unfit⟩)
    · exact .unknown none
    · exact .unfit field named unfit
  · rintro (none | ⟨field, named, unfit⟩)
    · exact .inl ⟨rfl, none⟩
    · exact .inr ⟨field, named, rfl, unfit⟩

theorem keyFault?_eq_some_iff {name : String} {value : Json} {e : ScriptError} :
    keyFault? (name, value) = some e ↔ Fault name value e := by
  rw [← convertKey_eq_error_iff, keyFault?]
  cases convertKey (name, value) <;> simp

theorem keyFault?_eq_none_iff {name : String} {value : Json} :
    keyFault? (name, value) = none ↔ Sound name value := by
  simp only [Sound, ← convertKey_eq_ok_iff, keyFault?]
  cases convertKey (name, value) with
  | error e => simp
  | ok pair => simpa using ⟨pair.1, pair.2, rfl⟩

theorem convertKeys_cons (entry : String × Json) (rest : List (String × Json)) (g : Game) :
    (convertKeys (entry :: rest) g).1 = convertKey entry >>= fun pair =>
      (convertKeys rest (g.internValue pair.2)).1.map (pair :: ·) := by
  obtain ⟨name, value⟩ := entry
  have one : (do
      let field ← Field.named name
      return (field, ← FieldValue.ofJson field value)) = convertKey (name, value) := by
    unfold convertKey
    cases Field.named name with
    | error e => rfl
    | ok field => cases converted : FieldValue.ofJson field value <;> rfl
  rw [convertKeys, one]
  cases convertKey (name, value) with
  | error e => rfl
  | ok pair =>
    simp only [bind, Except.bind]
    generalize convertKeys rest (g.internValue pair.2) = result
    obtain ⟨outcome, g'⟩ := result
    cases outcome <;> rfl

theorem convertKeys_eq_error_iff {e : ScriptError} :
    (convertKeys entries g).1 = .error e ↔ entries.findSome? keyFault? = some e := by
  induction entries generalizing g with
  | nil => simp [convertKeys]
  | cons entry rest ih =>
    rw [convertKeys_cons, List.findSome?_cons, keyFault?]
    cases convertKey entry with
    | error e' => simp [bind, Except.bind]
    | ok pair =>
      rw [← ih (g := g.internValue pair.2)]
      exact Except.map_eq_error_iff

theorem forall₂_of_convertKeys {pairs : List (Field × FieldValue)}
    (converted : (convertKeys entries g).1 = .ok pairs) :
    List.Forall₂ (fun entry pair => convertKey entry = .ok pair) entries pairs := by
  induction entries generalizing g pairs with
  | nil =>
    cases converted
    exact .nil
  | cons entry rest ih =>
    rw [convertKeys_cons] at converted
    obtain ⟨pair, first, converted⟩ := Except.bind_eq_ok_iff.mp converted
    obtain ⟨pairs', others, rfl⟩ := Except.map_eq_ok_iff.mp converted
    exact .cons first (ih others)

/-- Each key that a map gives holds its value then, and every other key what it held before. -/
theorem get_setAll {pairs : List (Field × FieldValue)}
    (distinct : entries.Pairwise fun a b => a.1 ≠ b.1)
    (converted : List.Forall₂ (fun entry pair => convertKey entry = .ok pair) entries pairs)
    (fields : Fields) (field : Field) :
    (∀ value, (field.name, value) ∈ entries →
      field.kind.Reads value ((setAll fields pairs).get field)) ∧
    ((∀ value, (field.name, value) ∉ entries) →
      (setAll fields pairs).get field = fields.get field) := by
  induction converted generalizing fields with
  | nil => exact ⟨nofun, fun _ => rfl⟩
  | @cons entry pair entries pairs first _ ih =>
    obtain ⟨name, value⟩ := entry
    obtain ⟨key, held⟩ := pair
    obtain ⟨others, apart⟩ := List.pairwise_cons.mp distinct
    obtain ⟨rfl, reads⟩ := convertKey_eq_ok_iff.mp first
    obtain ⟨fields', written, now⟩ := Fields.exists_set? fields
      (FieldValue.kind_of_reads reads)
    obtain ⟨given, kept⟩ := ih apart fields'
    have step : setAll fields ((key, held) :: pairs) = setAll fields' pairs := by
      simp only [setAll, List.foldl_cons, written, Option.getD_some]
    rw [step]
    refine ⟨fun value' member => ?_, fun absent => ?_⟩
    · rcases List.mem_cons.mp member with same | later
      · obtain ⟨named, rfl⟩ := Prod.mk.inj same
        obtain rfl := Field.name_injective named
        rw [kept fun value' later => others _ later rfl, now, if_pos rfl]
        exact reads
      · exact given value' later
    · rw [kept fun value' later => absent value' (List.mem_cons_of_mem _ later), now, if_neg]
      rintro rfl
      exact absent value List.mem_cons_self

/-! ### Making an entity -/

theorem placeEntity_of_fault {id : EntityId} {q : Pool} {e : ScriptError}
    (spawned : g.pool.spawn? = some (id, q))
    (fault : (convertKeys spec.keys.entries ({ g with pool := q }.intern spec.classname)).1 =
      .error e) : (placeEntity spec g).1 = .error e := by
  unfold placeEntity
  simp only [spawned]
  generalize convertKeys spec.keys.entries ({ g with pool := q }.intern spec.classname) = result
    at fault
  obtain ⟨outcome, g'⟩ := result
  cases fault
  rfl

/-- What comes of an entity with keys that can be given is what its class makes of it. -/
theorem placeEntity_of_converted {id : EntityId} {q filled : Pool} {pairs : List (Field × FieldValue)}
    (spawned : g.pool.spawn? = some (id, q))
    (converted : (convertKeys spec.keys.entries ({ g with pool := q }.intern spec.classname)).1 =
      .ok pairs)
    (fill : filled = q.modifyFields id fun fields =>
      setAll { fields with classname := some spec.classname } pairs) :
    (placeEntity spec g).1 = .ok (if (filled.setUp id).value.1 then some id else none) ∧
      (placeEntity spec g).2.pool = (filled.setUp id).value.2 := by
  have same := (moves_convertKeys spec.keys.entries
    ({ g with pool := q }.intern spec.classname)).pool
  unfold placeEntity
  simp only [spawned]
  generalize convertKeys spec.keys.entries ({ g with pool := q }.intern spec.classname) = result
    at converted same
  obtain ⟨outcome, g'⟩ := result
  cases converted
  obtain rfl : g'.pool = q := same.symm
  subst fill
  exact ⟨rfl, rfl⟩

/-- Keys that can be given fill an entity. -/
theorem fills_setAll {pairs : List (Field × FieldValue)} (proper : spec.Proper)
    (converted : List.Forall₂ (fun entry pair => convertKey entry = .ok pair) spec.keys.entries pairs)
    (left : Body) :
    spec.Fills left { left with
      fields := setAll { left.fields with classname := some spec.classname } pairs } := by
  have reads := get_setAll proper.sorted.distinct converted
    { left.fields with classname := some spec.classname }
  have absent {field : Field} (none : spec.keys.get? field.name = none) (value : Json) :
      (field.name, value) ∉ spec.keys.entries := by
    intro member
    rw [proper.sorted.get?_eq_some_iff.mpr member] at none
    cases none
  refine ⟨?_, fun field value given => ?_, fun field other none => ?_, rfl⟩
  · have named := (reads .classname).2 (absent proper.plain)
    exact FieldValue.text.inj named
  · exact (reads field).1 value (proper.sorted.get?_eq_some_iff.mp given)
  · refine ((reads field).2 (absent none)).trans ?_
    cases field with
    | text key => cases key <;> first | rfl | exact absurd rfl other
    | _ => rfl

theorem findSome?_keyFault?_iff (proper : spec.Proper) {e : ScriptError} :
    spec.keys.entries.findSome? keyFault? = some e ↔ spec.FirstFault e := by
  rw [proper.sorted.findSome?_eq_some_iff]
  simp only [keyFault?_eq_some_iff, keyFault?_eq_none_iff, FirstFault]

theorem findSome?_keyFault?_eq_none_iff (proper : spec.Proper) :
    spec.keys.entries.findSome? keyFault? = none ↔ spec.Fits := by
  rw [List.findSome?_eq_none_iff]
  simp only [Fits, proper.sorted.get?_eq_some_iff, ← keyFault?_eq_none_iff, Prod.forall]

/-- What comes of an entity of a map whose class is given a body: it is made in the lowest slot that
is to be had, or the class does not take it. -/
structure Places (g : Game) (spec : EntitySpec) (id : EntityId) (left : Entity) (body : Body) :
    Prop where
  slot : ∃ q, g.pool.Allocates id q ∧ q.entity? id = some left
  fills : spec.Fills left.toBody body
  refused : (placeEntity spec g).1 = .ok none ↔ ∀ final, ¬ g.pool.Accepts id body final
  taken : ∀ final, g.pool.Accepts id body final → ∃ g', placeEntity spec g = (.ok (some id), g') ∧
    g'.pool.entity? id = some (left.withBody final) ∧ Pool.Beside id g.pool g'.pool

section

variable {config : PoolConfig} (made : (Pool.new config).Reaches g.pool)

include made

theorem spawn?_eq_none_iff : g.pool.spawn? = none ↔ g.pool.IsFull :=
  Pool.spawn?_eq_none_iff (Pool.maxClients_lt_of_made made) (Pool.size_le_of_made made)

theorem exists_spawn? (room : ¬ g.pool.IsFull) : ∃ id q, g.pool.spawn? = some (id, q) := by
  obtain ⟨⟨id, q⟩, spawned⟩ := Option.ne_none_iff_exists'.mp fun none =>
    room ((spawn?_eq_none_iff made).mp none)
  exact ⟨id, q, spawned⟩

theorem placeEntity_of_full (full : g.pool.IsFull) :
    (placeEntity spec g).1 = .error (.pool .exhausted) := by
  simp only [placeEntity, (spawn?_eq_none_iff made).mpr full]

variable (proper : spec.Proper) (room : ¬ g.pool.IsFull)

include proper room

theorem placeEntity_of_firstFault {e : ScriptError} (first : spec.FirstFault e) :
    (placeEntity spec g).1 = .error e := by
  obtain ⟨id, q, spawned⟩ := exists_spawn? made room
  exact placeEntity_of_fault spawned
    (convertKeys_eq_error_iff.mpr ((findSome?_keyFault?_iff proper).mpr first))

theorem places_of_fits (fits : spec.Fits) : ∃ id left body, g.Places spec id left body ∧
    ((Pool.new config).Tends g.pool → left.toBody = {}) := by
  obtain ⟨id, q, spawned⟩ := exists_spawn? made room
  cases converted : (convertKeys spec.keys.entries
      ({ g with pool := q }.intern spec.classname)).1 with
  | error e =>
    have first := convertKeys_eq_error_iff.mp converted
    rw [(findSome?_keyFault?_eq_none_iff proper).mpr fits] at first
    cases first
  | ok pairs =>
    obtain ⟨placed, led⟩ := placeEntity_of_converted spawned converted rfl
    have allocates := Pool.allocates_of_spawn? (Pool.maxClients_lt_of_made made) spawned
    have filled := Pool.entity?_modifyFields allocates.claimed fun fields =>
      setAll { fields with classname := some spec.classname } pairs
    have beside := allocates.beside.trans (.modifyFields q id fun fields =>
      setAll { fields with classname := some spec.classname } pairs)
    refine ⟨id, _, _, ⟨⟨q, allocates, allocates.claimed⟩,
      fills_setAll proper (forall₂_of_convertKeys converted) _, ⟨?_, ?_⟩, ?_⟩, fun tends => ?_⟩
    · intro refused final accepts
      obtain ⟨q', accepted, -⟩ := Pool.setUp_of_accepts filled (beside.accepts_iff.mpr accepts)
      rw [placed, accepted] at refused
      cases refused
    · intro refused
      rw [placed, Pool.setUp_of_not_accepts filled fun final accepts =>
        refused final (beside.accepts_iff.mp accepts)]
      rfl
    · intro final accepts
      obtain ⟨q', accepted, held⟩ := Pool.setUp_of_accepts filled (beside.accepts_iff.mpr accepts)
      have setUp := beside.trans (.setUp _ id)
      rw [accepted] at placed led setUp
      exact ⟨(placeEntity spec g).2, Prod.ext placed rfl, led ▸ held, led ▸ setUp⟩
    · have vacant := (tends.vacated (Pool.vacated_new config)).entity?_spawn? spawned
      rw [Option.some.inj (allocates.claimed.symm.trans vacant)]
      rfl

end

theorem Places.exists_ok {id : EntityId} {left : Entity} {body : Body}
    (places : g.Places spec id left body) : ∃ placed, (placeEntity spec g).1 = .ok placed := by
  by_cases accepted : ∃ final, g.pool.Accepts id body final
  · obtain ⟨final, accepts⟩ := accepted
    obtain ⟨g', placed, -⟩ := places.taken final accepts
    exact ⟨some id, by rw [placed]⟩
  · exact ⟨none, places.refused.mpr fun final accepts => accepted ⟨final, accepts⟩⟩

theorem not_fits_of_firstFault {e : ScriptError} (first : spec.FirstFault e) : ¬ spec.Fits := by
  obtain ⟨name, value, given, fault, -⟩ := first
  intro fits
  have none := keyFault?_eq_none_iff.mpr (fits name value given)
  rw [keyFault?_eq_some_iff.mpr fault] at none
  cases none

theorem fits_or_firstFault (proper : spec.Proper) : spec.Fits ∨ ∃ e, spec.FirstFault e := by
  simp only [← findSome?_keyFault?_eq_none_iff proper, ← findSome?_keyFault?_iff proper]
  cases spec.keys.entries.findSome? keyFault? <;> simp

/-- An entity of a map is refused exactly if every slot is in use or a key of it is at fault, and the
error is that of the first such key. Otherwise the lowest free slot is taken, and every key that the map
gives is written to what was left in it, which is nothing unless the host wrote to the slot while it was
free. The class may refuse the entity then; if it takes it, the entity is what the class makes of it,
and no other slot is changed. -/
theorem placed_exactly {config : PoolConfig} (made : (Pool.new config).Reaches g.pool)
    (proper : spec.Proper) :
    (∀ e, (placeEntity spec g).1 = .error e ↔
      g.pool.IsFull ∧ e = .pool .exhausted ∨ ¬ g.pool.IsFull ∧ spec.FirstFault e) ∧
    ((∃ placed, (placeEntity spec g).1 = .ok placed) ↔ ¬ g.pool.IsFull ∧ spec.Fits) ∧
    (¬ g.pool.IsFull → spec.Fits → ∃ id left body, g.Places spec id left body ∧
      ((Pool.new config).Tends g.pool → left.toBody = {})) := by
  refine ⟨fun e => ?_, ?_, places_of_fits made proper⟩ <;> by_cases full : g.pool.IsFull
  · simp [placeEntity_of_full made full, full, eq_comm]
  · rcases fits_or_firstFault proper with fits | ⟨e', first⟩
    · obtain ⟨id, left, body, places, -⟩ := places_of_fits made proper full fits
      obtain ⟨placed, done⟩ := places.exists_ok
      have sound : ¬ spec.FirstFault e := fun first => not_fits_of_firstFault first fits
      simp [done, full, sound]
    · have same : spec.FirstFault e ↔ e' = e := by
        rw [← findSome?_keyFault?_iff proper, (findSome?_keyFault?_iff proper).mpr first,
          Option.some.injEq]
      simp [placeEntity_of_firstFault made proper full first, full, same]
  · simp [placeEntity_of_full made full, full]
  · rcases fits_or_firstFault proper with fits | ⟨e, first⟩
    · obtain ⟨id, left, body, places, -⟩ := places_of_fits made proper full fits
      exact iff_of_true places.exists_ok ⟨full, fits⟩
    · simp [placeEntity_of_firstFault made proper full first, not_fits_of_firstFault first]

/-- A class of the standard rules that leaves its entities as they are. -/
theorem accepts_point {p : Pool} (items : p.items = Item.standard)
    (rules : p.spawnRules = Pool.standardRules) (id : EntityId) {body : Body}
    (named : body.classname = "info_notnull") : p.Accepts id body body := by
  have lower : Text.asciiLower "info_notnull" = "info_notnull" := by decide +kernel
  have others : ∀ item ∈ p.items, Text.sameIgnoringCase item.classname body.classname = false := by
    rw [items, named]
    decide +kernel
  have ruled : p.spawnRules.get? (Text.asciiLower body.classname) = some Pool.pointRule := by
    rw [rules, named, lower]
    rfl
  exact .rule others ruled rfl

theorem not_isFull_new : ¬ (Pool.new {}).IsFull := by
  unfold Pool.IsFull
  decide

/-- An entity with a message is made in the first slot after the players'. -/
theorem placed_exactly_message :
    (Pool.new {}).Reaches (Engine.new {} 1).state.pool ∧
    ∃ g' e, placeEntity ⟨"info_notnull", .ofList [("message", .string "open")]⟩
        (Engine.new {} 1).state = (.ok (some 2), g') ∧
      g'.pool.entity? 2 = some e ∧ e.fields.get (.text .message) = .text (some "open") ∧
      e.fields.get (.text .target) = .text none := by
  have made : (Pool.new {}).Reaches (Engine.new {} 1).state.pool := .refl _
  have proper : (EntitySpec.mk "info_notnull" (.ofList [("message", .string "open")])).Proper :=
    ⟨SortedMap.sorted_ofList _, rfl⟩
  obtain ⟨-, -, places⟩ := placed_exactly made proper
  obtain ⟨id, left, body, ⟨⟨q, allocates, -⟩, fills, -, accepted⟩, clean⟩ := places not_isFull_new
    fun name value given => by
      obtain ⟨rfl, rfl⟩ := Prod.mk.inj (List.mem_singleton.mp (SortedMap.mem_of_get?_ofList given))
      exact ⟨.text .message, _, rfl, .text "open"⟩
  have first : id = 2 := by
    have free : (Engine.new {} 1).state.pool.isVacant 2 = true := rfl
    refine Nat.le_antisymm (Nat.not_lt.mp fun less => ?_) (Nat.not_lt.mp fun less => ?_)
    · rw [allocates.lowest 2 less] at free
      cases free
    · have vacant := allocates.vacant
      obtain rfl | rfl := Nat.le_one_iff_eq_zero_or_eq_one.mp (Nat.le_of_lt_succ less) <;> cases vacant
  subst first
  have named : body.classname = "info_notnull" := by
    rw [Body.classname, fills.classname]
    rfl
  obtain ⟨g', placed, there, -⟩ := accepted body (accepts_point rfl rfl 2 named)
  refine ⟨made, g', _, placed, there, ?_, ?_⟩
  · have given := fills.given (.text .message) (.string "open") rfl
    change body.fields.get _ = _
    generalize body.fields.get (.text .message) = value at given
    cases given
    rfl
  · have kept := fills.others (.text .target) (by decide) rfl
    rw [clean .refl] at kept
    exact kept

/-- An engine whose slot 2 is free, where the host has written a message to it. -/
def litteredEngine : Engine :=
  (Engine.new {} 1).update fun g => { g with pool := g.pool.run [.spawn, .free 2, .write 2 fun body =>
    { body with fields := { body.fields with message := some "open" } }] }

/-- What the host writes to a slot while it is free is found in the next entity of a map there, though
the class of it leaves its entities as they are. -/
theorem written_while_free :
    ¬ ∀ (limits : Script.Limits) (engine : Engine) (spec : EntitySpec) (id : EntityId) (g' : Game)
        (e : Entity) (field : Field),
      Engine.Reachable limits engine → spec.Proper →
      (∀ body : Body, body.classname = spec.classname → engine.state.pool.Accepts id body body) →
      placeEntity spec engine.state = (.ok (some id), g') → g'.pool.entity? id = some e →
      field ≠ .classname → spec.keys.get? field.name = none →
      e.fields.get field = ({} : Fields).get field := by
  intro always
  have reachable : Engine.Reachable ⟨0, 0, 0⟩ litteredEngine :=
    .obey (.pool (.write 2 fun body =>
      { body with fields := { body.fields with message := some "open" } }))
      (.obey (.pool (.free 2)) (.obey (.pool .spawn) (.new {} 1) rfl) rfl) rfl
  have spawned : litteredEngine.state.pool.spawn? =
      some (2, litteredEngine.state.pool.apply .spawn) := rfl
  obtain ⟨left, held, message⟩ : ∃ left, (litteredEngine.state.pool.apply .spawn).entity? 2 = some left ∧
      left.fields.message = some "open" := ⟨_, rfl, rfl⟩
  have converted : (convertKeys (EntitySpec.mk "info_notnull" {}).keys.entries
      ({ litteredEngine.state with pool := litteredEngine.state.pool.apply .spawn }.intern
        "info_notnull")).1 = .ok [] := rfl
  obtain ⟨placed, led⟩ := placeEntity_of_converted spawned converted rfl
  obtain ⟨q, accepted, found⟩ := Pool.setUp_of_accepts
    (Pool.entity?_modifyFields held fun fields =>
      setAll { fields with classname := some "info_notnull" } []) (accepts_point rfl rfl 2 rfl)
  rw [accepted] at placed led
  have default := always _ _ ⟨"info_notnull", {}⟩ 2 _ _ (.text .message) reachable
    ⟨SortedMap.sorted_empty, rfl⟩ (fun _ => accepts_point rfl rfl 2) (Prod.ext placed rfl)
    ((congrArg (·.entity? 2) led).trans found) (by decide) rfl
  change FieldValue.text left.fields.message = .text none at default
  rw [message] at default
  cases default

end Game

end EntityScripting
