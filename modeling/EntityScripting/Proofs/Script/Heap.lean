import EntityScripting.Proofs.SortedMap
import EntityScripting.Script.Heap

/-!
# Heaps

What a table holds after the operations that change it, and what a script reads from it. In a closed
heap every table that is mentioned exists and views do not go round in circles, so that a view reads
as the table behind it does (`get_frozen`).
-/

namespace EntityScripting.Script

open Text

def TableObject.put (object : TableObject) (key value : Value) : TableObject :=
  match object with
  | .plain entries => .plain (entries.set key value)
  | object => object

theorem Value.eq_of_key_eq {value : Value} {t : TableId} (is : value.key = .table t) :
    value = .table t := by
  unfold Value.key at is
  split at is
  · split at is <;> cases is
  · exact is

theorem Entries.at_set (entries : Entries) (key other value : Value) :
    (entries.set key value).at other = if other = key then value else entries.at other := by
  unfold Entries.set Entries.at
  split
  · rename_i nil
    rw [SortedMap.get?_erase]
    split
    · exact nil.symm
    · rfl
  · rw [SortedMap.get?_insert]
    split <;> rfl

theorem Entries.mem_of_at {entries : Entries} {key value : Value} (present : value ≠ .nil)
    (read : entries.at key = value) : (key, value) ∈ entries.entries := by
  unfold Entries.at at read
  cases found : entries.get? key with
  | none => exact absurd (by simpa [found] using read.symm) present
  | some stored =>
    rw [found] at read
    exact SortedMap.mem_of_get? (read ▸ found)

theorem Entries.mem_of_mem_set {entries : Entries} {key value : Value} {entry : Value × Value}
    (member : entry ∈ (entries.set key value).entries) :
    entry = (key, value) ∨ entry ∈ entries.entries := by
  unfold Entries.set at member
  split at member
  · exact .inr (SortedMap.mem_of_mem_erase member)
  · exact SortedMap.mem_of_mem_insert member

/-- Whether a value is no table but one below a bound. -/
def Value.Below (size : Nat) : Value → Prop
  | .table t => t < size
  | _ => True

instance (size : Nat) (v : Value) : Decidable (v.Below size) :=
  match v with
  | .table t => inferInstanceAs (Decidable (t < size))
  | .nil | .boolean _ | .integer _ | .number _ | .text _ | .function _ | .userdata .. =>
    isTrue trivial

theorem Value.Below.mono {size later : Nat} {v : Value} (below : v.Below size)
    (grown : size ≤ later) : v.Below later := by
  cases v with
  | table t => exact Nat.lt_of_lt_of_le below grown
  | _ => trivial

theorem Value.below_iff {size : Nat} {v : Value} : v.Below size ↔ ∀ t, v = .table t → t < size := by
  constructor
  · rintro below t rfl
    exact below
  · intro inside
    cases v with
    | table t => exact inside t rfl
    | _ => trivial

theorem Value.Below.key {size : Nat} {v : Value} (below : v.Below size) : v.key.Below size :=
  below_iff.mpr fun t is => below_iff.mp below t (Value.eq_of_key_eq is)

namespace Heap

variable {heap : Heap}

theorem lt_size_of_table? {t : TableId} {object : TableObject}
    (found : heap.table? t = some object) : t < heap.tables.size :=
  (Array.getElem?_eq_some_iff.mp found).1

theorem exists_table? {t : TableId} (allocated : t < heap.tables.size) :
    ∃ object, heap.table? t = some object :=
  ⟨heap.tables[t], Array.getElem?_eq_getElem allocated⟩

theorem table?_newTable (heap : Heap) (object : TableObject) (t : TableId) :
    (heap.newTable object).2.table? t =
      if t = heap.tables.size then some object else heap.table? t :=
  Array.getElem?_push

theorem table?_rawSet (heap : Heap) (t u : TableId) (key value : Value) :
    (heap.rawSet t key value).table? u =
      if t = u then (heap.table? u).map (·.put key value) else heap.table? u := by
  simp only [rawSet, table?, Array.getElem?_modify]
  rfl

@[simp] theorem size_rawSet (heap : Heap) (t : TableId) (key value : Value) :
    (heap.rawSet t key value).tables.size = heap.tables.size :=
  Array.size_modify

theorem entries_of_table? {t : TableId} {entries : Entries}
    (plain : heap.table? t = some (.plain entries)) : heap.entries t = entries := by
  simp [Heap.entries, plain]

theorem entries_congr {other : Heap} {t : TableId} (same : other.table? t = heap.table? t) :
    other.entries t = heap.entries t := by
  simp only [Heap.entries, same]

/-! ### Closed heaps -/

/-- Whether every table that a heap mentions is there, each view younger than the table it shows. -/
structure Closed (heap : Heap) : Prop where
  values : ∀ {t u : TableId} {entries : Entries} {key : Value},
    heap.table? t = some (.plain entries) → (key, .table u) ∈ entries.entries →
      u < heap.tables.size
  keys : ∀ {t k : TableId} {entries : Entries} {value : Value},
    heap.table? t = some (.plain entries) → (.table k, value) ∈ entries.entries →
      k < heap.tables.size
  views : ∀ {view source : TableId}, heap.table? view = some (.frozen source) → source < view
  environments : ∀ {t : TableId} {store : StoreId},
    heap.table? t = some (.environment store) → store < heap.stores.size
  bindings : ∀ {id : StoreId} {store : GlobalStore} {name : Bytes} {u : TableId},
    heap.stores[id]? = some store → store.bindings.get? name = some (.table u) →
      u < heap.tables.size

def isPlainBelow (size : Nat) : TableObject → Bool
  | .plain entries => entries.entries.all fun entry => entry.1.Below size && entry.2.Below size
  | _ => false

theorem exists_plain_of_all (all : heap.tables.all (isPlainBelow heap.tables.size) = true)
    {t : TableId} {object : TableObject} (found : heap.table? t = some object) :
    ∃ entries, object = .plain entries ∧ ∀ entry ∈ entries.entries,
      entry.1.Below heap.tables.size ∧ entry.2.Below heap.tables.size := by
  obtain ⟨inside, is⟩ := Array.getElem?_eq_some_iff.mp found
  have below := Array.all_eq_true.mp all t inside
  rw [is] at below
  cases object with
  | plain entries =>
    refine ⟨entries, rfl, fun entry member => ?_⟩
    simpa using List.all_eq_true.mp below entry member
  | frozen | environment => cases below

/-- A heap of plain tables is closed if they mention no others. -/
theorem closed_of_all (all : heap.tables.all (isPlainBelow heap.tables.size) = true)
    (noStores : heap.stores = #[]) : heap.Closed where
  values plain member := by
    obtain ⟨_, is, below⟩ := exists_plain_of_all all plain
    cases is
    exact (below _ member).2
  keys plain member := by
    obtain ⟨_, is, below⟩ := exists_plain_of_all all plain
    cases is
    exact (below _ member).1
  views shows := by
    obtain ⟨_, is, -⟩ := exists_plain_of_all all shows
    cases is
  environments names := by
    obtain ⟨_, is, -⟩ := exists_plain_of_all all names
    cases is
  bindings found _ := by
    rw [noStores] at found
    cases found

theorem Closed.lt_of_bound (closed : heap.Closed) {store : StoreId} {key : Value} {u : TableId}
    (read : heap.bound store key = .table u) : u < heap.tables.size := by
  unfold bound at read
  split at read
  · rename_i found name stored
    cases bound : found.bindings.get? name with
    | none => simp [bound] at read
    | some value =>
      rw [bound] at read
      exact closed.bindings stored (bound.trans (congrArg some read))
  · cases read

/-- Reading does not run out of fuel, since every view leads to an older table. -/
theorem Closed.lookup_eq (closed : heap.Closed) (key : Value) {fuel more : Nat} {t : TableId}
    (enough : t < fuel) (enough' : t < more) :
    heap.lookup key fuel t = heap.lookup key more t := by
  induction fuel generalizing more t with
  | zero => cases enough
  | succ fuel ih =>
    cases more with
    | zero => cases enough'
    | succ more =>
      unfold lookup
      split
      · rfl
      · rename_i source view
        have older := closed.views view
        exact ih (Nat.lt_of_lt_of_le older (Nat.le_of_lt_succ enough))
          (Nat.lt_of_lt_of_le older (Nat.le_of_lt_succ enough'))
      · rfl
      · rfl

theorem get_plain {t : TableId} {entries : Entries} (plain : heap.table? t = some (.plain entries))
    (key : Value) : heap.get t key = entries.at key.key := by
  simp only [get, lookup, plain]

theorem get_environment {t : TableId} {store : StoreId}
    (environment : heap.table? t = some (.environment store)) (key : Value) :
    heap.get t key = heap.bound store key.key := by
  simp only [get, lookup, environment]

theorem get_frozen (closed : heap.Closed) {view source : TableId}
    (frozen : heap.table? view = some (.frozen source)) (key : Value) :
    heap.get view key = heap.get source key := by
  have older := closed.views frozen
  have young := lt_size_of_table? frozen
  have step : heap.get view key = heap.lookup key.key heap.tables.size source := by
    conv => lhs; unfold get lookup
    simp only [frozen]
  rw [step]
  have allocated : source < heap.tables.size := Nat.lt_trans older young
  exact closed.lookup_eq key.key allocated (Nat.lt_succ_of_lt allocated)

/-- What a script reads is there, and so is a table at which it is read. -/
theorem Closed.lt_of_get (closed : heap.Closed) {t u : TableId} {key : Value}
    (read : heap.get t key = .table u) :
    u < heap.tables.size ∧ ∀ k, key = .table k → k < heap.tables.size := by
  unfold get at read
  generalize heap.tables.size + 1 = fuel at read
  induction fuel generalizing t with
  | zero => cases read
  | succ fuel ih =>
    unfold lookup at read
    split at read
    · rename_i plain
      have member := Entries.mem_of_at (by simp) read
      refine ⟨closed.values plain member, ?_⟩
      rintro k rfl
      exact closed.keys plain member
    · exact ih read
    · refine ⟨closed.lt_of_bound read, ?_⟩
      rintro k rfl
      simp [bound, Value.key] at read
    · cases read

theorem lt_size_of_get {t u : TableId} {key : Value} (read : heap.get t key = .table u) :
    t < heap.tables.size := by
  cases found : heap.table? t with
  | none => simp [get, lookup, found] at read
  | some object => exact lt_size_of_table? found

end Heap

end EntityScripting.Script
