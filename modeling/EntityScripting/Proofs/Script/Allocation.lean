import EntityScripting.Game.Level
import EntityScripting.Proofs.Script.Confinement
import EntityScripting.Proofs.Script.Freeze

/-!
# Closed heaps

A closed heap stays closed when tables are made and when tables that are there are put into tables,
frozen and bound to names.
-/

namespace EntityScripting

open Script Text

namespace Script

namespace Entries

def Below (size : Nat) (entries : Entries) : Prop :=
  ∀ entry ∈ entries.entries, entry.1.Below size ∧ entry.2.Below size

variable {size later : Nat} {entries : Entries} {key value : Value}

theorem below_empty : Below size {} := fun _ member => absurd member List.not_mem_nil

theorem Below.mono (below : entries.Below size) (grown : size ≤ later) : entries.Below later :=
  fun entry member => ⟨(below entry member).1.mono grown, (below entry member).2.mono grown⟩

theorem Below.set (below : entries.Below size) (keyBelow : key.Below size)
    (valueBelow : value.Below size) : (entries.set key value).Below size := by
  intro entry member
  rcases mem_of_mem_set member with rfl | earlier
  · exact ⟨keyBelow, valueBelow⟩
  · exact below entry earlier

theorem Below.at (below : entries.Below size) (key : Value) : (entries.at key).Below size := by
  refine Value.below_iff.mpr fun t read => ?_
  have present : Value.table t ≠ .nil := Value.noConfusion
  exact (below _ (mem_of_at present read)).2

end Entries

namespace Heap

def Fits (heap : Heap) (t : TableId) : TableObject → Prop
  | .plain entries => entries.Below heap.tables.size
  | .frozen source => source < t
  | .environment store => store < heap.stores.size

def Binds (heap : Heap) (store : GlobalStore) : Prop :=
  ∀ name value, store.bindings.get? name = some value → value.Below heap.tables.size

/-- A heap that tables have been made and written in. -/
structure Continues (heap later : Heap) : Prop where
  closed : later.Closed
  grown : heap.tables.size ≤ later.tables.size
  cells : later.cells = heap.cells

variable {heap later : Heap} {t : TableId} {store : StoreId} {name : Bytes} {key value : Value}

theorem Continues.trans {last : Heap} (first : heap.Continues later)
    (second : later.Continues last) : heap.Continues last :=
  ⟨second.closed, first.grown.trans second.grown, second.cells.trans first.cells⟩

theorem Fits.mono {object : TableObject} (fits : heap.Fits t object)
    (grown : heap.tables.size ≤ later.tables.size) (kept : heap.stores.size ≤ later.stores.size) :
    later.Fits t object := by
  cases object with
  | plain entries => exact Entries.Below.mono fits grown
  | frozen source => exact fits
  | environment store => exact Nat.lt_of_lt_of_le fits kept

namespace Closed

theorem fits (closed : heap.Closed) {object : TableObject} (found : heap.table? t = some object) :
    heap.Fits t object := by
  cases object with
  | plain entries =>
    rintro ⟨key, value⟩ member
    refine ⟨Value.below_iff.mpr ?_, Value.below_iff.mpr ?_⟩
    · rintro k rfl
      exact closed.keys found member
    · rintro u rfl
      exact closed.values found member
  | frozen source => exact closed.views found
  | environment store => exact closed.environments found

theorem binds (closed : heap.Closed) {s : GlobalStore} (found : heap.stores[store]? = some s) :
    heap.Binds s := by
  intro name value bound
  refine Value.below_iff.mpr ?_
  rintro t rfl
  exact closed.bindings found bound

theorem of_fits (fits : ∀ t object, heap.table? t = some object → heap.Fits t object)
    (binds : ∀ (store : StoreId) s, heap.stores[store]? = some s → heap.Binds s) : heap.Closed where
  values found member := (fits _ _ found _ member).2
  keys found member := (fits _ _ found _ member).1
  views found := fits _ _ found
  environments found := fits _ _ found
  bindings found bound := binds _ _ found _ _ bound

/-! ### Operations on a closed heap -/

theorem of_same (closed : heap.Closed) (tables : later.tables = heap.tables)
    (stores : later.stores = heap.stores) : later.Closed := by
  obtain ⟨cells, t, closures, cursors, s, identity⟩ := later
  obtain rfl : t = heap.tables := tables
  obtain rfl : s = heap.stores := stores
  exact ⟨closed.values, closed.keys, closed.views, closed.environments, closed.bindings⟩

theorem newTable (closed : heap.Closed) {object : TableObject}
    (fits : heap.Fits heap.tables.size object) : heap.Continues (heap.newTable object).2 := by
  have grown : heap.tables.size ≤ (heap.newTable object).2.tables.size := by
    simp only [Heap.newTable, Array.size_push]
    omega
  refine ⟨.of_fits (fun t other found => ?_) (fun store s found => ?_), grown, rfl⟩
  · rw [table?_newTable] at found
    split at found
    · rename_i new
      cases found
      exact new ▸ fits.mono grown (Nat.le_refl _)
    · exact (closed.fits found).mono grown (Nat.le_refl _)
  · exact fun name value bound => (closed.binds found name value bound).mono grown

theorem newStore (closed : heap.Closed) {s : GlobalStore} (binds : heap.Binds s) :
    heap.Continues (heap.newStore s).2 := by
  refine ⟨.of_fits (fun t object found => ?_) (fun store other found => ?_), Nat.le_refl _, rfl⟩
  · refine (closed.fits found).mono (Nat.le_refl _) ?_
    simp only [Heap.newStore, Array.size_push]
    omega
  · simp only [Heap.newStore, Array.getElem?_push] at found
    split at found
    · cases found
      exact binds
    · exact closed.binds found

theorem rawSet (closed : heap.Closed) (t : TableId) (allocatedKey : key.Below heap.tables.size)
    (allocated : value.Below heap.tables.size) : heap.Continues (heap.rawSet t key value) := by
  have grown : heap.tables.size ≤ (heap.rawSet t key value).tables.size :=
    Nat.le_of_eq (size_rawSet ..).symm
  refine ⟨.of_fits (fun u object found => ?_) (fun store s found => ?_), grown, rfl⟩
  · suffices fits : heap.Fits u object from fits.mono grown (Nat.le_refl _)
    rw [table?_rawSet] at found
    split at found
    · obtain ⟨before, was, rfl⟩ := Option.map_eq_some_iff.mp found
      cases before with
      | plain entries =>
        have below : entries.Below heap.tables.size := closed.fits was
        exact below.set allocatedKey allocated
      | frozen | environment => exact closed.fits was
    · exact closed.fits found
  · exact fun name value bound => (closed.binds found name value bound).mono grown

theorem modifyStore (closed : heap.Closed) (store : StoreId) {change : GlobalStore → GlobalStore}
    (binds : ∀ s, heap.Binds s → heap.Binds (change s)) :
    heap.Continues { heap with stores := heap.stores.modify store change } := by
  refine ⟨.of_fits (fun t object found => ?_) (fun other s found => ?_), Nat.le_refl _, rfl⟩
  · exact (closed.fits found).mono (Nat.le_refl _) (Nat.le_of_eq Array.size_modify.symm)
  · simp only [Array.getElem?_modify] at found
    split at found
    · obtain ⟨before, was, rfl⟩ := Option.map_eq_some_iff.mp found
      exact binds before (closed.binds was)
    · exact closed.binds found

theorem sealStore (closed : heap.Closed) (store : StoreId) :
    heap.Continues (heap.sealStore store) :=
  closed.modifyStore store fun _ => id

theorem bind (closed : heap.Closed) (store : StoreId) (name : Bytes)
    (allocated : value.Below heap.tables.size) : heap.Continues (heap.bind store name value) := by
  refine closed.modifyStore store fun s binds other found bound => ?_
  rw [SortedMap.get?_insert] at bound
  split at bound
  · cases bound
    exact allocated
  · exact binds other found bound

theorem freeze (closed : heap.Closed) (allocated : t < heap.tables.size) :
    heap.Continues (heap.freeze t).2 ∧ (heap.freeze t).1 < (heap.freeze t).2.tables.size := by
  obtain ⟨views, frozen⟩ := freeze_spec closed allocated
  obtain ⟨-, -, shows⟩ := frozen.shown frozen.root
  exact ⟨⟨frozen.closed closed, frozen.grown, by rw [frozen.rest]⟩, lt_size_of_table? shows⟩

theorem define (closed : heap.Closed) (store : StoreId) (name : Bytes)
    (allocated : value.Below heap.tables.size) : heap.Continues (heap.define store name value) := by
  unfold Heap.define
  split
  · obtain ⟨continues, there⟩ := closed.freeze allocated
    exact continues.trans (continues.closed.bind store name there)
  · exact closed.bind store name allocated

theorem write (closed : heap.Closed) (t : TableId) (allocatedKey : key.Below heap.tables.size)
    (allocated : value.Below heap.tables.size) : heap.Continues (heap.write t key value) := by
  unfold Heap.write
  split
  · exact closed.define _ _ allocated
  · exact closed.rawSet t allocatedKey.key allocated

theorem below_entries (closed : heap.Closed) (t : TableId) :
    (heap.entries t).Below heap.tables.size := by
  unfold Heap.entries
  split
  · exact closed.fits ‹_›
  · exact Entries.below_empty

theorem below_rawGet (closed : heap.Closed) (t : TableId) (key : Value) :
    (heap.rawGet t key).Below heap.tables.size :=
  (closed.below_entries t).at key.key

theorem below_get (closed : heap.Closed) (t : TableId) (key : Value) :
    (heap.get t key).Below heap.tables.size :=
  Value.below_iff.mpr fun _ read => (closed.lt_of_get read).1

end Closed

end Heap

end Script

namespace Engine

open Heap

theorem openApi_below :
    openApi.2.tables.all (isPlainBelow openApi.2.tables.size) = true := by
  decide +kernel

end Engine

end EntityScripting
