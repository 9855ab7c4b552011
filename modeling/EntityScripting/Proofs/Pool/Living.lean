import EntityScripting.Proofs.Pool.Action

/-!
# Entities in use

What there is in a pool is the entities of the slots in use. An operation on one entity leaves the
other slots as they are (`Beside`), so an entity that is made and removed again leaves no trace among
them (`Beside.preserves`). `Stocks` says what is different when a player has picked something up.
-/

namespace EntityScripting

open Number

def Body.count (body : Body) (classname : String) : Nat :=
  ((body.inventory.get? classname).getD 0).toNat

/-- One more than an entity carries is counted as such where there is room for it. -/
theorem Body.count_succ {body : Body} {classname : String} {most : UInt32}
    (room : (body.inventory.get? classname).getD 0 < most) :
    ((body.inventory.get? classname).getD 0 + 1).toNat = body.count classname + 1 := by
  have below := UInt32.lt_iff_toNat_lt.mp room
  have bound := most.toNat_lt
  rw [UInt32.toNat_add, Nat.mod_eq_of_lt]
  · rfl
  · exact Nat.lt_of_le_of_lt below bound

theorem Item.find?_congr {items : List Item} {name other : String}
    (same : Text.asciiLower name = Text.asciiLower other) : find? items name = find? items other := by
  simp only [find?, Text.sameIgnoringCase, same]

/-- An entry is found by its own name too. -/
theorem Item.find?_classname {items : List Item} {name : String} {item : Item}
    (found : find? items name = some item) : find? items item.classname = some item := by
  have same := List.find?_some (show items.find? _ = some item from found)
  rw [← found]
  exact find?_congr (by simpa [Text.sameIgnoringCase] using same)

namespace Pool

variable {p q r : Pool} {id : EntityId}

def living? (p : Pool) (id : EntityId) : Option Entity := (p.entity? id).filter (·.inUse)

theorem living?_of_entity? {e : Entity} (held : p.entity? id = some e) (live : e.inUse = true) :
    p.living? id = some e := by
  simp [living?, held, Option.filter, live]

theorem living?_eq_none (unused : p.isOccupied id = false) : p.living? id = none := by
  cases held : p.entity? id with
  | none => simp [living?, held]
  | some e =>
    have idle : e.inUse = false := by simpa [isOccupied, slot?, held] using unused
    simp [living?, held, Option.filter, idle]

def Preserves (p q : Pool) : Prop := ∀ id, q.living? id = p.living? id

theorem Preserves.of_eq (same : q = p) : p.Preserves q := fun _ => same ▸ rfl

/-- Whether the same slots are in use with the same entities, but for what one of them carries. -/
structure Stocks (p q : Pool) (holder : EntityId) (gain : String → Nat) : Prop where
  others : ∀ id ≠ holder, q.living? id = p.living? id
  carried : ∃ e inventory, p.living? holder = some e ∧
    q.living? holder = some (e.withBody { e.toBody with inventory }) ∧
    ∀ classname, ({ e.toBody with inventory } : Body).count classname =
      e.count classname + gain classname

/-! ### One slot -/

/-- Whether all is the same but what is in one slot. -/
structure Beside (id : EntityId) (p q : Pool) : Prop where
  others : ∀ other ≠ id, q.entity? other = p.entity? other
  rest : q = { p with entities := q.entities, indexed := q.indexed }

namespace Beside

theorem refl (id : EntityId) (p : Pool) : Beside id p p := ⟨fun _ _ => rfl, rfl⟩

theorem trans (first : Beside id p q) (second : Beside id q r) : Beside id p r where
  others other apart := (second.others other apart).trans (first.others other apart)
  rest := second.rest.trans (congrArg (fun s : Pool =>
    { s with entities := r.entities, indexed := r.indexed }) first.rest)

theorem isReserved (beside : Beside id p q) (other : EntityId) :
    q.isReserved other = p.isReserved other := by
  rw [beside.rest]
  rfl

theorem isOccupied (beside : Beside id p q) {other : EntityId} (apart : other ≠ id) :
    q.isOccupied other = p.isOccupied other := by
  simp only [Pool.isOccupied, slot?, beside.others other apart]

theorem living? (beside : Beside id p q) {other : EntityId} (apart : other ≠ id) :
    q.living? other = p.living? other := by
  simp only [Pool.living?, beside.others other apart]

/-- What was not there before and is not there afterwards makes no difference. -/
theorem preserves (beside : Beside id p q) (before : p.isOccupied id = false)
    (after : q.isOccupied id = false) : p.Preserves q := by
  intro other
  by_cases same : other = id
  · rw [same, living?_eq_none before, living?_eq_none after]
  · exact beside.living? same

theorem modify (p : Pool) (id : EntityId) (f : Entity → Entity)
    (kept : ∀ e, e.index = id → (f e).index = id) : Beside id p (p.modify id f kept) where
  others other apart := by
    rw [entity?_modify, if_neg (Ne.symm apart)]
  rest := rfl

theorem modifyBody (p : Pool) (id : EntityId) (f : Body → Body) :
    Beside id p (p.modifyBody id f) := modify ..

theorem modifyFields (p : Pool) (id : EntityId) (f : Fields → Fields) :
    Beside id p (p.modifyFields id f) := modifyBody ..

theorem free (p : Pool) (id : EntityId) : Beside id p (p.free id).value := by
  unfold Pool.free
  split
  · exact refl id p
  · rw [Logged.value_pure]
    exact modify ..

theorem spawn? (spawned : p.spawn? = some (id, q)) : Beside id p q where
  others := (claims_of_spawn? spawned).others
  rest := by
    unfold Pool.spawn? at spawned
    repeat' split at spawned
    all_goals cases spawned
    all_goals rfl

theorem setUp (p : Pool) (id : EntityId) : Beside id p (p.setUp id).value.2 := by
  unfold Pool.setUp
  split
  · exact refl id p
  dsimp only
  split
  · exact refl id p
  split
  · exact free p id
  · simp only [Logged.value_bind]
    split
    · simp only [Logged.value_pure]
      exact modifyBody p id _
    · exact (modifyBody p id _).trans (free _ id)

end Beside

theorem isOccupied_free (free : p.isReserved id = false) :
    (p.free id).value.isOccupied id = false := by
  cases held : p.entity? id with
  | none => simp [Pool.free, free, isOccupied, slot?, entity?_modify, held]
  | some e =>
    cases live : e.inUse <;>
      simp [Pool.free, free, isOccupied, slot?, entity?_modify, held, live, Entity.vacant]

theorem entity?_free_of_ne (p : Pool) {id other : EntityId} (apart : other ≠ id) :
    (p.free id).value.entity? other = p.entity? other :=
  (Beside.free p id).others other apart

/-- An entity that its class does not take is gone. -/
theorem isOccupied_setUp_of_refused (free : p.isReserved id = false)
    (refused : (p.setUp id).value.1 = false) : (p.setUp id).value.2.isOccupied id = false := by
  unfold setUp at refused ⊢
  split at refused
  · rename_i missing
    simp [isOccupied, slot?, missing]
  dsimp only at refused ⊢
  split at refused
  · cases refused
  · rename_i item
    rw [if_neg item]
    split at refused
    · exact isOccupied_free free
    · rename_i rule ruled
      simp only [Logged.value_bind] at refused ⊢
      split at refused
      · cases refused
      · rename_i refusal
        rw [if_neg refusal]
        exact isOccupied_free (p := p.modifyBody id _) free

structure Made (p q : Pool) (id : EntityId) : Prop where
  beside : Beside id p q
  vacant : p.isOccupied id = false
  free : q.isReserved id = false
  live : q.isOccupied id = true

theorem made_of_spawn? (room : p.maxClients < p.size) (spawned : p.spawn? = some (id, q)) :
    p.Made q id where
  beside := .spawn? spawned
  vacant := (claims_of_spawn? spawned).vacant
  free := ((Beside.spawn? spawned).isReserved id).trans ((claims_of_spawn? spawned).reserved room)
  live := (claims_of_spawn? spawned).isOccupied

theorem Made.modifyFields (made : p.Made q id) (f : Fields → Fields) :
    p.Made (q.modifyFields id f) id where
  beside := made.beside.trans (.modifyFields q id f)
  vacant := made.vacant
  free := ((Beside.modifyFields q id f).isReserved id).trans made.free
  live := (isOccupied_modifyFields ..).trans made.live

theorem Made.preserves_free (made : p.Made q id) : p.Preserves (q.free id).value :=
  (made.beside.trans (.free q id)).preserves made.vacant (isOccupied_free made.free)

theorem Made.preserves_setUp (made : p.Made q id) (refused : (q.setUp id).value.1 = false) :
    p.Preserves (q.setUp id).value.2 :=
  (made.beside.trans (.setUp q id)).preserves made.vacant
    (isOccupied_setUp_of_refused made.free refused)

def stock (p : Pool) (holder : EntityId) (classname : String) (n : UInt32) : Pool :=
  p.modifyBody holder fun body => { body with inventory := body.inventory.insert classname n }

theorem count_insert (body : Body) (classname : String) (n : UInt32) (other : String) :
    ({ body with inventory := body.inventory.insert classname n } : Body).count other =
      if other = classname then n.toNat else body.count other := by
  simp only [Body.count, SortedMap.get?_insert]
  split <;> rfl

/-- An item is picked up as long as there is room for it, and only if it is there. -/
theorem touch_cases (p : Pool) (item holder : EntityId) :
    (p.touch item holder).value = (false, p) ∨
      ∃ e entry, p.living? holder = some e ∧
        ((∃ i, p.entity? item = some i ∧ Item.find? p.items i.classname = some entry) ∧
          (entry.max ≤ (e.inventory.get? entry.classname).getD 0 ∧
              (p.touch item holder).value =
                (false, p.stock holder entry.classname ((e.inventory.get? entry.classname).getD 0)) ∨
            (e.inventory.get? entry.classname).getD 0 < entry.max ∧
              (p.touch item holder).value =
                (true, ((p.stock holder entry.classname
                  ((e.inventory.get? entry.classname).getD 0 + 1)).free item).value))) := by
  unfold touch
  split
  · exact .inl rfl
  rename_i i found
  split
  · exact .inl rfl
  split
  · exact .inl rfl
  rename_i entry listed
  split
  · exact .inl rfl
  rename_i e held
  split
  · exact .inl rfl
  rename_i able
  have live : e.inUse = true := by
    simp only [Bool.not_eq_true', Bool.not_eq_false, Bool.and_eq_true] at able
    exact able.1
  refine .inr ⟨e, entry, living?_of_entity? held live, ⟨i, found, listed⟩, ?_⟩
  dsimp only
  split
  · rename_i full
    exact .inl ⟨full, rfl⟩
  · rename_i room
    exact .inr ⟨UInt32.not_le.mp room, rfl⟩

/-- What a new number of items makes of the entity that carries them. -/
theorem stocks_stock {holder : EntityId} {e : Entity} (held : p.living? holder = some e)
    (classname : String) (n : UInt32) (gain : String → Nat)
    (counts : ∀ other, (if other = classname then n.toNat else e.count other) =
      e.count other + gain other) : p.Stocks (p.stock holder classname n) holder gain where
  others id apart := (Beside.modifyBody p holder _).living? apart
  carried := by
    obtain ⟨found, live⟩ := Option.filter_eq_some_iff.mp held
    refine ⟨e, e.inventory.insert classname n, held, ?_, fun other => ?_⟩
    · refine living?_of_entity? ?_ live
      rw [stock, modifyBody, entity?_modify, if_pos rfl, found, Option.map_some]
    · rw [count_insert]
      exact counts other

theorem stocks_refl {holder : EntityId} {e : Entity} (held : p.living? holder = some e) :
    p.Stocks p holder fun _ => 0 :=
  ⟨fun _ _ => rfl, e, e.inventory, held, held, fun _ => rfl⟩

/-- What a player has gained stays when the new entity is removed. -/
theorem Made.stocks_free (made : p.Made q id) {holder : EntityId} {gain : String → Nat}
    (stocks : q.Stocks r holder gain) (apart : holder ≠ id) (free : r.isReserved id = false) :
    p.Stocks (r.free id).value holder gain where
  others other differ := by
    by_cases same : other = id
    · rw [same, living?_eq_none made.vacant, living?_eq_none (isOccupied_free free)]
    · rw [(Beside.free r id).living? same, stocks.others other differ, made.beside.living? same]
  carried := by
    rw [(Beside.free r id).living? apart, ← made.beside.living? apart]
    exact stocks.carried

/-- What a player carries once a new item was offered and is gone again. -/
theorem Made.stocks_touch (made : p.Made q id) {item : Item} {i : Entity}
    (held : q.entity? id = some i) (named : i.fields.classname = some item.classname)
    (listed : Item.find? q.items item.classname = some item) {holder : EntityId}
    (there : p.isOccupied holder = true) :
    p.Stocks (if (q.touch id holder).value.1 = true then (q.touch id holder).value.2
      else ((q.touch id holder).value.2.free id).value) holder
        fun classname =>
          if (q.touch id holder).value.1 = true ∧ classname = item.classname then 1 else 0 := by
  have apart : holder ≠ id := by
    rintro rfl
    rw [made.vacant] at there
    cases there
  rcases q.touch_cases id holder with none | ⟨e, entry, carrier, ⟨i', held', entered⟩, offered⟩
  · rw [none]
    rw [← made.beside.isOccupied apart] at there
    obtain ⟨e, found, live⟩ := isOccupied_iff.mp there
    simpa using made.stocks_free (stocks_refl (living?_of_entity? found live)) apart made.free
  obtain rfl : i = i' := Option.some.inj (held.symm.trans held')
  obtain rfl : entry = item := by
    rw [Body.classname, named, Option.getD_some, listed] at entered
    exact (Option.some.inj entered).symm
  rcases offered with ⟨full, refused⟩ | ⟨room, taken⟩
  · rw [refused]
    have kept := stocks_stock carrier entry.classname
      ((e.inventory.get? entry.classname).getD 0) (fun _ => 0) fun other => by
        split
        · rename_i same
          rw [same]
          rfl
        · rfl
    simpa using made.stocks_free kept apart made.free
  · rw [taken]
    have gained := stocks_stock carrier entry.classname
      ((e.inventory.get? entry.classname).getD 0 + 1)
      (fun classname => if classname = entry.classname then 1 else 0) fun other => by
        split
        · rename_i same
          rw [same, Body.count_succ room]
        · rfl
    simpa using made.stocks_free gained apart made.free

end Pool

end EntityScripting
