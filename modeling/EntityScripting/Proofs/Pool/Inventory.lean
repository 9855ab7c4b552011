import Mathlib.Logic.Relation
import EntityScripting.Proofs.Pool.Living
import EntityScripting.Proofs.SortedMap

/-!
# What entities carry

Items enter an inventory when they are picked up, under the name that the catalog has for them, and
while there is room. So nobody carries more of a class than its first entry allows (`Capped`), which
new entries of the class do not change. A class that items have another way round the catalog, a
write or a spawn rule, is what `AddsNothing` leaves out.
-/

namespace EntityScripting

open Number

structure Item.First (items : List Item) (name : String) (item : Item) : Prop where
  named : Text.asciiLower item.classname = Text.asciiLower name
  first : ∃ before later, items = before ++ item :: later ∧
    ∀ other ∈ before, Text.asciiLower other.classname ≠ Text.asciiLower name

theorem Item.find?_eq_some_iff {items : List Item} {name : String} {item : Item} :
    find? items name = some item ↔ First items name item := by
  rw [find?, List.find?_eq_some_iff_append]
  simp only [Text.sameIgnoringCase, beq_iff_eq, Bool.not_eq_true', beq_eq_false_iff_ne]
  constructor
  · rintro ⟨named, before, later, parts, apart⟩
    exact ⟨named, before, later, parts, apart⟩
  · rintro ⟨named, before, later, parts, apart⟩
    exact ⟨named, before, later, parts, apart⟩

/-- An entry stays the first of its name when others are added. -/
theorem Item.find?_append {items : List Item} {name : String} {item : Item}
    (found : find? items name = some item) (more : List Item) :
    find? (items ++ more) name = some item := by
  show (items ++ more).find? _ = some item
  rw [List.find?_append, show items.find? _ = some item from found]
  rfl

namespace Pool

variable {p q r : Pool} {id : EntityId} {name : String}

def carried (p : Pool) (id : EntityId) (name : String) : Nat :=
  ((p.entity? id).map fun e => e.count name).getD 0

theorem carried_of_entity? {e : Entity} (held : p.entity? id = some e) (name : String) :
    p.carried id name = e.count name := by
  rw [carried, held, Option.map_some, Option.getD_some]

/-! ### Picking up -/

theorem stock_carried {holder : EntityId} {e : Entity} (held : p.entity? holder = some e)
    (classname : String) (n : UInt32) (id : EntityId) (name : String) :
    (p.stock holder classname n).carried id name =
      if id = holder ∧ name = classname then n.toNat else p.carried id name := by
  by_cases same : id = holder
  · subst same
    have now : (p.stock id classname n).entity? id =
        some (e.withBody { e.toBody with inventory := e.inventory.insert classname n }) := by
      rw [stock, modifyBody, entity?_modify, if_pos rfl, held, Option.map_some]
    rw [carried_of_entity? now, carried_of_entity? held]
    by_cases this : name = classname
    · rw [if_pos ⟨rfl, this⟩]
      exact (count_insert e.toBody classname n name).trans (if_pos this)
    · rw [if_neg fun both => this both.2]
      exact (count_insert e.toBody classname n name).trans (if_neg this)
  · rw [if_neg fun both => same both.1, carried, carried, stock,
      (Beside.modifyBody p holder _).others id same]

theorem carried_free_of_ne (p : Pool) {item : EntityId} (apart : id ≠ item) (name : String) :
    (p.free item).value.carried id name = p.carried id name := by
  rw [carried, carried, entity?_free_of_ne p apart]

structure Fits (p : Pool) (item player : EntityId) (entry : Item) : Prop where
  offered : ∃ i, p.living? item = some i ∧ Item.find? p.items i.classname = some entry
  room : ∃ e, p.living? player = some e ∧ e.isPlayer = true ∧
    e.count entry.classname < entry.max.toNat

theorem living?_eq_some {e : Entity} (found : p.living? id = some e) :
    p.entity? id = some e ∧ e.inUse = true := by
  obtain ⟨held, live⟩ := Option.filter_eq_some_iff.mp found
  exact ⟨held, live⟩

theorem Fits.unique {item player : EntityId} {entry other : Item} (fits : p.Fits item player entry)
    (fits' : p.Fits item player other) : other = entry := by
  obtain ⟨i, there, listed⟩ := fits.offered
  obtain ⟨i', there', listed'⟩ := fits'.offered
  obtain rfl := Option.some.inj (there.symm.trans there')
  exact Option.some.inj (listed'.symm.trans listed)

theorem count_lt_iff (e : Entity) (entry : Item) :
    e.count entry.classname < entry.max.toNat ↔
      (e.inventory.get? entry.classname).getD 0 < entry.max :=
  UInt32.lt_iff_toNat_lt.symm

theorem touch_of_fits {item player : EntityId} {entry : Item} (fits : p.Fits item player entry) :
    ∃ e n, p.entity? player = some e ∧ n.toNat = e.count entry.classname + 1 ∧
      (p.touch item player).value =
        (true, ((p.stock player entry.classname n).free item).value) := by
  obtain ⟨i, offered, listed⟩ := fits.offered
  obtain ⟨e, holds, able, room⟩ := fits.room
  obtain ⟨there, live⟩ := living?_eq_some offered
  obtain ⟨held, live'⟩ := living?_eq_some holds
  have below := (count_lt_iff e entry).mp room
  refine ⟨e, (e.inventory.get? entry.classname).getD 0 + 1, held, Body.count_succ below, ?_⟩
  have space := UInt32.not_le.mpr below
  unfold touch
  simp only [there, live, listed, held, live', able, space, Bool.not_true, Bool.and_self,
    Bool.false_eq_true, if_false]
  rfl

/-- If nothing is picked up, at most an entry for as many items as before is new. -/
theorem touch_of_not_fits {item player : EntityId} (unfit : ∀ entry, ¬ p.Fits item player entry) :
    ∃ q, (p.touch item player).value = (false, q) ∧
      (∀ id, q.isOccupied id = p.isOccupied id) ∧
        ∀ id name, q.carried id name = p.carried id name := by
  have nothing {result : Bool × Pool} (same : result = (false, p)) :
      ∃ q, result = (false, q) ∧ (∀ id, q.isOccupied id = p.isOccupied id) ∧
        ∀ id name, q.carried id name = p.carried id name :=
    ⟨p, same, fun _ => rfl, fun _ _ => rfl⟩
  unfold touch
  split
  · exact nothing rfl
  rename_i i there
  split
  · exact nothing rfl
  rename_i live
  split
  · exact nothing rfl
  rename_i entry listed
  split
  · exact nothing rfl
  rename_i e held
  split
  · exact nothing rfl
  rename_i able
  simp only [Bool.not_eq_true', Bool.not_eq_false, Bool.and_eq_true] at live able
  by_cases full : entry.max ≤ (e.inventory.get? entry.classname).getD 0
  · refine ⟨p.stock player entry.classname ((e.inventory.get? entry.classname).getD 0), ?_, ?_, ?_⟩
    · simp only [if_pos full]
      rfl
    · intro id
      rw [Pool.isOccupied, stock, slot?_modifyBody]
      rfl
    · intro id name
      rw [stock_carried held]
      by_cases same : id = player ∧ name = entry.classname
      · rw [if_pos same, same.1, same.2, carried_of_entity? held]
        rfl
      · rw [if_neg same]
  · have fits : p.Fits item player entry :=
      ⟨⟨i, living?_of_entity? there live, listed⟩,
        ⟨e, living?_of_entity? held able.1, able.2, (count_lt_iff e entry).mpr (UInt32.not_le.mp full)⟩⟩
    exact absurd fits (unfit entry)

/-- What a touch comes to: the item is gone and the player has one more of it, or neither. -/
structure PicksUp (p : Pool) (item player : EntityId) (result : Bool × Pool) : Prop where
  taken : result.1 = true ↔ ∃ entry, p.Fits item player entry
  consumed : result.2.isOccupied item = (p.isOccupied item && !result.1)
  others : ∀ id ≠ item, result.2.isOccupied id = p.isOccupied id
  gained : ∀ entry, p.Fits item player entry → ∀ id ≠ item, ∀ name, result.2.carried id name =
    p.carried id name + if id = player ∧ name = entry.classname then 1 else 0
  kept : result.1 = false → ∀ id name, result.2.carried id name = p.carried id name

theorem picksUp_touch {item player : EntityId} (free : p.isReserved item = false) :
    p.PicksUp item player (p.touch item player).value := by
  by_cases fit : ∃ entry, p.Fits item player entry
  · obtain ⟨entry, fits⟩ := fit
    obtain ⟨e, n, held, counted, touched⟩ := touch_of_fits fits
    have occupied : p.isOccupied item = true := by
      obtain ⟨i, offered, -⟩ := fits.offered
      obtain ⟨there, live⟩ := living?_eq_some offered
      exact isOccupied_iff.mpr ⟨i, there, live⟩
    rw [touched]
    refine ⟨⟨fun _ => ⟨entry, fits⟩, fun _ => rfl⟩, ?_, ?_, ?_, fun missed => ?_⟩
    · have stocked : (p.stock player entry.classname n).isReserved item = false := free
      show ((p.stock player entry.classname n).free item).value.isOccupied item = _
      rw [isOccupied_free stocked, Bool.not_true, Bool.and_false]
    · intro id apart
      show ((p.stock player entry.classname n).free item).value.isOccupied id = _
      rw [(Beside.free _ item).isOccupied apart, Pool.isOccupied, stock, slot?_modifyBody]
      rfl
    · intro other fits' id apart name
      obtain rfl : entry = other := (fits.unique fits').symm
      show ((p.stock player entry.classname n).free item).value.carried id name = _
      rw [carried_free_of_ne _ apart, stock_carried held]
      by_cases same : id = player ∧ name = entry.classname
      · rw [if_pos same, if_pos same, same.1, same.2, carried_of_entity? held, counted]
      · rw [if_neg same, if_neg same, Nat.add_zero]
    · cases missed
  · have unfit : ∀ entry, ¬ p.Fits item player entry := fun entry fits => fit ⟨entry, fits⟩
    obtain ⟨q, touched, occupied, carried⟩ := touch_of_not_fits unfit
    rw [touched]
    refine ⟨⟨fun taken => ?_, fun fits => absurd fits fit⟩, ?_, fun id _ => occupied id, ?_,
      fun _ => carried⟩
    · cases taken
    · rw [occupied, Bool.not_false, Bool.and_true]
    · intro entry fits
      exact absurd fits (unfit entry)

/-- A new item of a class fits if the player has room for one more. -/
theorem Made.fits_iff (made : p.Made q id) {item : Item} {i : Entity} (held : q.entity? id = some i)
    (named : i.fields.classname = some item.classname)
    (listed : Item.find? q.items item.classname = some item) {player : EntityId} {e : Entity}
    (holds : p.living? player = some e) (able : e.isPlayer = true) :
    (∃ entry, q.Fits id player entry) ↔ e.count item.classname < item.max.toNat := by
  have classed : i.classname = item.classname := by
    rw [Body.classname, named, Option.getD_some]
  have offered : q.living? id = some i := by
    obtain ⟨i', found, live⟩ := isOccupied_iff.mp made.live
    obtain rfl := Option.some.inj (held.symm.trans found)
    exact living?_of_entity? held live
  have apart : player ≠ id := by
    rintro rfl
    rw [living?_eq_none made.vacant] at holds
    cases holds
  have holds' : q.living? player = some e := (made.beside.living? apart).trans holds
  constructor
  · rintro ⟨entry, ⟨i', offered', listed'⟩, e', there, -, room⟩
    obtain rfl := Option.some.inj (offered.symm.trans offered')
    obtain rfl := Option.some.inj (holds'.symm.trans there)
    rw [classed, listed] at listed'
    rwa [Option.some.inj listed']
  · intro room
    exact ⟨item, ⟨i, offered, classed ▸ listed⟩, e, holds', able, room⟩

/-! ### The caps -/

/-- Nobody carries anything but what the first entry of its name allows, under the name there. -/
def Capped (p : Pool) : Prop :=
  ∀ id name, p.carried id name = 0 ∨ ∃ item, Item.find? p.items name = some item ∧
    item.classname = name ∧ p.carried id name ≤ item.max.toNat

def AddsNothing (rule : SpawnRule) : Prop :=
  ∀ id body name, (rule id body).value.2.count name ≤ body.count name

structure Provided (p : Pool) : Prop where
  capped : p.Capped
  rules : ∀ name rule, p.spawnRules.get? name = some rule → AddsNothing rule

structure Spends (p q : Pool) : Prop where
  items : q.items = p.items
  rules : q.spawnRules = p.spawnRules
  carried : ∀ id name, q.carried id name ≤ p.carried id name

namespace Spends

theorem refl (p : Pool) : p.Spends p := ⟨rfl, rfl, fun _ _ => Nat.le_refl _⟩

theorem trans (first : p.Spends q) (second : q.Spends r) : p.Spends r where
  items := second.items.trans first.items
  rules := second.rules.trans first.rules
  carried id name := Nat.le_trans (second.carried id name) (first.carried id name)

theorem of_entities (same : q.entities = p.entities) (items : q.items = p.items)
    (rules : q.spawnRules = p.spawnRules) : p.Spends q := by
  refine ⟨items, rules, ?_⟩
  intro id name
  rw [Pool.carried, Pool.carried, entity?, entity?, same]

theorem modify (p : Pool) (id : EntityId) {f : Entity → Entity}
    (kept : ∀ e, e.index = id → (f e).index = id)
    (less : ∀ e name, p.entity? id = some e → (f e).count name ≤ e.count name) :
    p.Spends (p.modify id f kept) := by
  refine ⟨rfl, rfl, ?_⟩
  intro other name
  rw [Pool.carried, Pool.carried, entity?_modify]
  by_cases same : id = other
  · subst same
    rw [if_pos rfl]
    cases held : p.entity? id with
    | none => exact Nat.le_refl _
    | some e => exact less e name held
  · rw [if_neg same]

theorem modifyBody (p : Pool) (id : EntityId) {f : Body → Body}
    (less : ∀ body name, (f body).count name ≤ body.count name) :
    p.Spends (p.modifyBody id f) :=
  modify p id _ fun e name _ => less e.toBody name

theorem count_of_inventory {body other : Body} (same : other.inventory = body.inventory)
    (name : String) : other.count name ≤ body.count name := by
  rw [Body.count, Body.count, same]

theorem modifyFields (p : Pool) (id : EntityId) (f : Fields → Fields) :
    p.Spends (p.modifyFields id f) := modifyBody p id fun _ => count_of_inventory rfl

theorem schedule (p : Pool) (id : EntityId) (delay : Single) (think : Think) :
    p.Spends (p.schedule id delay think) := modifyBody p id fun _ => count_of_inventory rfl

theorem takeDue? {think : Think} (taken : p.takeDue? = some (id, think, q)) : p.Spends q := by
  obtain ⟨-, -, rfl⟩ := takeDue?_eq_some taken
  exact modifyBody p id fun _ => count_of_inventory rfl

theorem free (p : Pool) (id : EntityId) : p.Spends (p.free id).value := by
  unfold Pool.free
  split
  · exact refl p
  · rw [Logged.value_pure]
    refine modify p id _ ?_
    intro e name _
    split
    · exact Nat.zero_le _
    · exact Nat.le_refl _

theorem kill (p : Pool) (id : EntityId) : p.Spends (p.kill id).value := by
  unfold Pool.kill
  split
  · have credited : p.Spends { p with killed := p.killed + 1 } := of_entities rfl rfl rfl
    exact credited.trans (free _ id)
  · exact free p id

theorem spawn? (spawned : p.spawn? = some (id, q)) : p.Spends q := by
  have beside := Beside.spawn? spawned
  unfold Pool.spawn? at spawned
  split at spawned
  · cases spawned
    exact modify p id _ fun _ _ _ => Nat.le_refl _
  · split at spawned
    · cases spawned
      refine ⟨rfl, rfl, ?_⟩
      intro other name
      by_cases same : other = p.size
      · rw [same, Pool.carried, entity?_grow, if_pos rfl]
        exact Nat.zero_le _
      · rw [Pool.carried, Pool.carried, beside.others other same]
    · cases spawned

theorem setUp (provided : p.Provided) (id : EntityId) : p.Spends (p.setUp id).value.2 := by
  unfold Pool.setUp
  split
  · exact refl p
  rename_i e held
  dsimp only
  split
  · exact refl p
  split
  · exact free p id
  rename_i rule ruled
  have adds := provided.rules _ rule ruled
  have written : p.Spends (p.modifyBody id fun _ => (rule id e.toBody).value.2) := by
    refine modify p id _ ?_
    intro e' name held'
    obtain rfl := Option.some.inj (held.symm.trans held')
    exact adds id e.toBody name
  simp only [Logged.value_bind, index_of_entity? held]
  split
  · exact written
  · exact written.trans (free _ id)

end Spends

theorem Provided.spends (provided : p.Provided) (spends : p.Spends q) : q.Provided where
  capped id name := by
    have less := spends.carried id name
    rw [spends.items]
    rcases provided.capped id name with none | ⟨item, found, spelled, most⟩
    · left
      omega
    · exact .inr ⟨item, found, spelled, Nat.le_trans less most⟩
  rules name rule found := provided.rules name rule (spends.rules ▸ found)

/-- One more under the name in the catalog, for one who had room for it. -/
theorem Provided.stock (provided : p.Provided) {holder : EntityId} {entry : Item} {name : String}
    (listed : Item.find? p.items name = some entry) {n : UInt32} (most : n ≤ entry.max) :
    (p.stock holder entry.classname n).Provided where
  capped id other := by
    cases held : p.entity? holder with
    | none =>
      have same : (p.stock holder entry.classname n).carried id other = p.carried id other := by
        rw [carried, carried, Pool.stock, modifyBody, entity?_modify]
        by_cases this : holder = id
        · rw [if_pos this, ← this, held]
          rfl
        · rw [if_neg this]
      rw [same]
      exact provided.capped id other
    | some e =>
      rw [stock_carried held]
      by_cases this : id = holder ∧ other = entry.classname
      · rw [if_pos this, this.2]
        exact .inr ⟨entry, Item.find?_classname listed, rfl, UInt32.le_iff_toNat_le.mp most⟩
      · rw [if_neg this]
        exact provided.capped id other
  rules := provided.rules

theorem Provided.touch (provided : p.Provided) (item player : EntityId) :
    (p.touch item player).value.2.Provided := by
  rcases p.touch_cases item player with nothing | ⟨e, entry, holds, ⟨i, -, listed⟩, offered⟩
  · rw [nothing]
    exact provided
  obtain ⟨held, -⟩ := living?_eq_some holds
  rcases offered with ⟨-, refused⟩ | ⟨room, taken⟩
  · -- The entry that is left behind is for as many items as before.
    rw [refused]
    refine provided.spends ⟨rfl, rfl, ?_⟩
    intro id name
    rw [stock_carried held]
    by_cases same : id = player ∧ name = entry.classname
    · rw [if_pos same, same.1, same.2, carried_of_entity? held]
      exact Nat.le_refl _
    · rw [if_neg same]
  · have most : (e.inventory.get? entry.classname).getD 0 + 1 ≤ entry.max := by
      rw [UInt32.le_iff_toNat_le, Body.count_succ room]
      exact (count_lt_iff e entry).mpr room
    rw [taken]
    exact (provided.stock listed most).spends (.free _ item)

def Operation.AddsNothing : Operation → Prop
  | .write _ f => ∀ body name, (f body).count name ≤ body.count name
  | .addRule _ rule => Pool.AddsNothing rule
  | _ => True

theorem Provided.addItem (provided : p.Provided) (item : Item) : (p.addItem item).Provided where
  capped id name := by
    rcases provided.capped id name with none | ⟨first, found, spelled, most⟩
    · exact .inl none
    · exact .inr ⟨first, Item.find?_append found [item], spelled, most⟩
  rules := provided.rules

theorem Provided.addRule (provided : p.Provided) {rule : SpawnRule} (adds : Pool.AddsNothing rule)
    (classname : String) : (p.addRule classname rule).Provided where
  capped := provided.capped
  rules name other found := by
    rw [Pool.addRule, SortedMap.get?_insert] at found
    by_cases same : name = Text.asciiLower classname
    · rw [if_pos same] at found
      obtain rfl := Option.some.inj found
      exact adds
    · rw [if_neg same] at found
      exact provided.rules name other found

theorem Provided.apply (provided : p.Provided) {op : Operation} (adds : op.AddsNothing) :
    (p.apply op).Provided := by
  cases op with
  | spawn =>
    simp only [Pool.apply]
    cases spawned : p.spawn? with
    | none => exact provided
    | some result => exact provided.spends (.spawn? spawned)
  | free id => exact provided.spends (.free p id)
  | kill id => exact provided.spends (.kill p id)
  | connect client =>
    simp only [Pool.apply]
    cases connected : p.connect? client with
    | none => exact provided
    | some result =>
      obtain ⟨-, -, -, led⟩ := connect?_eq_some connected
      rw [Option.map_some, Option.getD_some, led]
      exact provided.spends (.modify p result.1 _ fun _ _ _ => Nat.le_refl _)
  | setUp id => exact provided.spends (.setUp provided id)
  | touch item player => exact provided.touch item player
  | schedule id delay think =>
    exact provided.spends (.schedule p id delay think)
  | takeDue =>
    simp only [Pool.apply]
    cases taken : p.takeDue? with
    | none => exact provided
    | some result => exact provided.spends (.takeDue? taken)
  | write id f => exact provided.spends (.modifyBody p id adds)
  | addRule classname rule => exact provided.addRule adds classname
  | addItem item => exact provided.addItem item
  | advance | centerPrint | sound | takeEvents =>
    exact provided.spends (.of_entities rfl rfl rfl)

/-- Whether operations lead from one pool to another that let items in by touch alone. -/
def Rations : Pool → Pool → Prop :=
  Relation.ReflTransGen fun p q => ∃ op : Operation, op.AddsNothing ∧ q = p.apply op

namespace Rations

theorem apply (rations : p.Rations q) (op : Operation) (adds : op.AddsNothing) :
    p.Rations (q.apply op) := .tail rations ⟨op, adds, rfl⟩

theorem spawn? (rations : p.Rations q) (spawned : q.spawn? = some (id, r)) : p.Rations r := by
  simpa [Pool.apply, spawned] using rations.apply .spawn trivial

theorem takeDue? {think : Think} (rations : p.Rations q)
    (taken : q.takeDue? = some (id, think, r)) : p.Rations r := by
  simpa [Pool.apply, taken] using rations.apply .takeDue trivial

theorem write (rations : p.Rations q) (id : EntityId) {f : Body → Body}
    (kept : ∀ body, (f body).inventory = body.inventory) : p.Rations (q.modifyBody id f) :=
  rations.apply (.write id f) fun body => Spends.count_of_inventory (kept body)

theorem reaches (rations : p.Rations q) : p.Reaches q := by
  induction rations with
  | refl => exact .refl p
  | tail _ step ih =>
    obtain ⟨op, -, rfl⟩ := step
    exact ih.apply op

theorem provided (rations : p.Rations q) (provided : p.Provided) : q.Provided := by
  induction rations with
  | refl => exact provided
  | tail _ step ih =>
    obtain ⟨op, adds, rfl⟩ := step
    exact ih.apply adds

end Rations

/-- Nobody carries anything in a new pool, and no standard rule gives anything. -/
theorem provided_new (config : PoolConfig) : (Pool.new config).Provided where
  capped id name := by
    left
    cases held : (Pool.new config).entity? id with
    | none => rw [carried, held, Option.map_none, Option.getD_none]
    | some e =>
      rw [carried_of_entity? held]
      rcases eq_of_entity?_new held with rfl | rfl <;> rfl
  rules name rule found := by
    have member := SortedMap.mem_of_get?_ofList found
    have standard : AddsNothing scriptRule ∧ AddsNothing relayRule ∧ AddsNothing pointRule ∧
        AddsNothing monsterRule := by
      refine ⟨?_, ?_, ?_, ?_⟩
      · intro id body name
        unfold scriptRule
        split <;> exact Nat.le_refl _
      all_goals exact fun _ _ _ => Nat.le_refl _
    obtain ⟨script, relay, point, monster⟩ := standard
    simp only [List.mem_cons, Prod.mk.injEq, List.not_mem_nil, or_false] at member
    rcases member with ⟨-, rfl⟩ | ⟨-, rfl⟩ | ⟨-, rfl⟩ | ⟨-, rfl⟩ | ⟨-, rfl⟩ | ⟨-, rfl⟩ <;> assumption

end Pool

end EntityScripting
