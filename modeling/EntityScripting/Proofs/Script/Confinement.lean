import EntityScripting.Proofs.Script.Heap
import Mathlib.Data.Fintype.List
import Mathlib.Data.Fintype.EquivFin

/-!
# What can be done from a table

A script that has got one table can read further tables from it, and make new ones; nothing else of
the heap is in its hands. `protected_iff` says when no such script changes what was there: when it
cannot come to a table that takes writes. Looking behind a view, as an iteration does, is an operation
that can be left out.
-/

namespace EntityScripting.Script

open Text

namespace Access

/-- The values that an operation on tables is made with; other accesses are no such operations. -/
def operands? {α : Type} : Access α → Option (List Value)
  | .newTable entries => some (entries.entries.flatMap fun (key, value) => [key, value])
  | .get t key | .rawGet t key | .next t key => some [.table t, key]
  | .set t key value => some [.table t, key, value]
  | .length t | .rawLength t | .source t => some [.table t]
  | _ => none

def results {α : Type} : Access α → α → List Value
  | .newTable _, t | .source _, t => [.table t]
  | .get .., value | .rawGet .., value => [value]
  | .next .., some (key, value) => [key, value]
  | _, _ => []

/-- Whether an access hands out the table behind a view, as the iteration over a view does. -/
def LooksBehind {α : Type} (access : Access α) (heap : Heap) : Prop :=
  match access with
  | .source t => ∃ source, heap.table? t = some (.frozen source)
  | _ => False

end Access

namespace Heap

/-- Whether a script that has got some values has a value: tables have to be among them, and
everything else it can make. -/
def Has (got : List Value) (value : Value) : Prop := ∀ t, value = .table t → value ∈ got

/-- What a script comes to, by operations on tables, from a heap and some values; functions that it
finds are not called. The flag says whether it looks behind views. -/
inductive Explores (pairs : Bool) (heap : Heap) (begun : List Value) : Heap → List Value → Prop where
  | start : Explores pairs heap begun heap begun
  | access {α : Type} (access : Access α) {now : Heap} {got operands : List Value} :
    Explores pairs heap begun now got → access.operands? = some operands →
    (∀ value ∈ operands, Has got value) → (pairs = true ∨ ¬ access.LooksBehind now) →
    Explores pairs heap begun (access.run now).2 (access.results (access.run now).1 ++ got)

structure Unchanged (heap later : Heap) : Prop where
  tables : ∀ t, t < heap.tables.size → later.table? t = heap.table? t
  stores : later.stores = heap.stores

def Protected (pairs : Bool) (heap : Heap) (root : TableId) : Prop :=
  ∀ now got, Explores pairs heap [.table root] now got → Unchanged heap now

def Writable (heap : Heap) (t : TableId) : Prop :=
  match heap.table? t with
  | some (.plain _) => True
  | some (.environment store) => (heap.stores[store]?).any (·.isSealed) = false
  | _ => False

inductive Reads (pairs : Bool) (heap : Heap) (root : TableId) : TableId → Prop where
  | root : Reads pairs heap root root
  | get {t u : TableId} {key : Value} : Reads pairs heap root t →
    (∀ k, key = .table k → Reads pairs heap root k) → heap.get t key = .table u →
    Reads pairs heap root u
  | source {t : TableId} : pairs = true → Reads pairs heap root t →
    Reads pairs heap root (heap.source t)

variable {heap now : Heap} {pairs : Bool} {root t u : TableId} {got : List Value}

theorem entries_of_not_writable (refuses : ¬ heap.Writable t) : heap.entries t = {} := by
  unfold Writable at refuses
  unfold Heap.entries
  cases found : heap.table? t with
  | none => rfl
  | some object =>
    cases object with
    | plain => simp [found] at refuses
    | frozen | environment => rfl

theorem writeError?_of_not_writable (allocated : t < heap.tables.size)
    (refuses : ¬ heap.Writable t) (key value : Value) :
    heap.writeError? t key value = some (.refused .readOnly) := by
  obtain ⟨object, found⟩ := exists_table? allocated
  unfold Writable at refuses
  unfold writeError?
  cases object with
  | plain => simp [found] at refuses
  | frozen => simp [found]
  | environment store =>
    have closed : (heap.stores[store]?).any (·.isSealed) = true := by
      simpa [found] using refuses
    simp [found, closed]

/-! ### What stays -/

theorem get_unchanged (closed : heap.Closed) (unchanged : Unchanged heap now)
    (old : t < heap.tables.size) (grown : heap.tables.size ≤ now.tables.size) (key : Value) :
    now.get t key = heap.get t key := by
  have same (fuel : Nat) (t : TableId) (old : t < heap.tables.size) :
      now.lookup key.key fuel t = heap.lookup key.key fuel t := by
    induction fuel generalizing t with
    | zero => rfl
    | succ fuel ih =>
      unfold lookup
      rw [unchanged.tables t old]
      split
      · rfl
      · rename_i view
        exact ih _ (Nat.lt_trans (closed.views view) old)
      · simp only [bound, unchanged.stores]
      · rfl
  unfold get
  rw [same _ t old]
  exact closed.lookup_eq key.key (Nat.lt_succ_of_lt (Nat.lt_of_lt_of_le old grown))
    (Nat.lt_succ_of_lt old)

def Within (pairs : Bool) (heap : Heap) (root : TableId) (now : Heap) (value : Value) : Prop :=
  ∀ t, value = .table t →
    t < heap.tables.size ∧ Reads pairs heap root t ∨
      heap.tables.size ≤ t ∧ t < now.tables.size

theorem Within.mono {later : Heap} {value : Value} (grown : now.tables.size ≤ later.tables.size)
    (within : Within pairs heap root now value) : Within pairs heap root later value := by
  intro t is
  rcases within t is with old | ⟨new, young⟩
  · exact .inl old
  · exact .inr ⟨new, Nat.lt_of_lt_of_le young grown⟩

theorem writable_unchanged (unchanged : Unchanged heap now) (old : t < heap.tables.size) :
    now.Writable t ↔ heap.Writable t := by
  simp only [Writable, unchanged.tables t old, unchanged.stores]

theorem mem_entries_of_next {key : Value} {entry : Value × Value}
    (found : heap.next t key = some entry) : entry ∈ (heap.entries t).entries := by
  unfold next at found
  split at found
  · exact List.mem_of_head? found
  · exact List.mem_of_find?_eq_some found

theorem source_of_not_looksBehind (stays : ¬ (Access.source t).LooksBehind heap) :
    heap.source t = t := by
  unfold source
  split
  · rename_i source frozen
    exact absurd ⟨source, frozen⟩ stays
  · rfl

theorem Closed.source_lt (closed : heap.Closed) (allocated : t < heap.tables.size) :
    heap.source t < heap.tables.size := by
  unfold source
  split
  · rename_i frozen
    exact Nat.lt_trans (closed.views frozen) allocated
  · exact allocated

/-- What holds of a script that cannot come to a table that takes writes: the heap is unchanged, and
what the script has got is read from the root or is new. -/
structure Confined (pairs : Bool) (heap : Heap) (root : TableId) (now : Heap) (got : List Value) :
    Prop where
  unchanged : Unchanged heap now
  grown : heap.tables.size ≤ now.tables.size
  got : ∀ value ∈ got, Within pairs heap root now value
  made : ∀ t, heap.tables.size ≤ t → t < now.tables.size →
    ∃ entries, now.table? t = some (.plain entries) ∧
      ∀ entry ∈ entries.entries,
        Within pairs heap root now entry.1 ∧ Within pairs heap root now entry.2

theorem within_of_has (confined : Confined pairs heap root now got) {value : Value}
    (has : Has got value) : Within pairs heap root now value := by
  intro t is
  exact confined.got value (has t is) t is

theorem within_key {value : Value} (within : Within pairs heap root now value) :
    Within pairs heap root now value.key :=
  fun t is => within t (Value.eq_of_key_eq is)

namespace Confined

theorem start (root : TableId) (pairs : Bool) (allocated : root < heap.tables.size) :
    Confined pairs heap root heap [.table root] := by
  refine ⟨⟨fun _ _ => rfl, rfl⟩, Nat.le_refl _, fun value member t is => ?_, fun t new young => ?_⟩
  · obtain rfl := List.mem_singleton.mp member
    cases is
    exact .inl ⟨allocated, .root⟩
  · exact absurd young (Nat.not_lt_of_le new)

theorem learn (confined : Confined pairs heap root now got) {values : List Value}
    (within : ∀ value ∈ values, Within pairs heap root now value) :
    Confined pairs heap root now (values ++ got) where
  unchanged := confined.unchanged
  grown := confined.grown
  got value member := (List.mem_append.mp member).elim (within value) (confined.got value)
  made := confined.made

theorem learnOne (confined : Confined pairs heap root now got) {value : Value}
    (within : Within pairs heap root now value) :
    Confined pairs heap root now ([value] ++ got) :=
  confined.learn fun other member => by
    obtain rfl := List.mem_singleton.mp member
    exact within

theorem newTable (confined : Confined pairs heap root now got) {entries : Entries}
    (has : ∀ entry ∈ entries.entries, Has got entry.1 ∧ Has got entry.2) :
    Confined pairs heap root (now.newTable (.plain entries)).2
      ([.table (now.newTable (.plain entries)).1] ++ got) := by
  have size : (now.newTable (.plain entries)).2.tables.size = now.tables.size + 1 :=
    Array.size_push ..
  have grows : now.tables.size ≤ (now.newTable (.plain entries)).2.tables.size := by omega
  refine ⟨⟨fun t old => ?_, confined.unchanged.stores⟩, confined.grown.trans grows,
    fun value member => ?_, fun t new young => ?_⟩
  · rw [table?_newTable, if_neg (Nat.ne_of_lt (Nat.lt_of_lt_of_le old confined.grown))]
    exact confined.unchanged.tables t old
  · rcases List.mem_append.mp member with this | before
    · obtain rfl := List.mem_singleton.mp this
      rintro t ⟨⟩
      exact .inr ⟨confined.grown, size ▸ Nat.lt_succ_self _⟩
    · exact (confined.got value before).mono grows
  · rw [table?_newTable]
    split
    · refine ⟨entries, rfl, fun entry member => ?_⟩
      obtain ⟨key, value⟩ := has entry member
      exact ⟨(within_of_has confined key).mono grows, (within_of_has confined value).mono grows⟩
    · rename_i other
      rw [size] at young
      have before := Nat.lt_of_le_of_ne (Nat.le_of_lt_succ young) other
      obtain ⟨entries, plain, within⟩ := confined.made t new before
      exact ⟨entries, plain, fun entry member =>
        ⟨(within entry member).1.mono grows, (within entry member).2.mono grows⟩⟩

theorem within_entries (confined : Confined pairs heap root now got)
    (locked : ∀ u, Reads pairs heap root u → ¬ heap.Writable u) (has : Has got (.table t))
    {entry : Value × Value} (member : entry ∈ (now.entries t).entries) :
    Within pairs heap root now entry.1 ∧ Within pairs heap root now entry.2 := by
  rcases within_of_has confined has t rfl with ⟨old, reads⟩ | ⟨new, young⟩
  · rw [entries_congr (confined.unchanged.tables t old),
      entries_of_not_writable (locked t reads)] at member
    cases member
  · obtain ⟨entries, plain, within⟩ := confined.made t new young
    rw [entries_of_table? plain] at member
    exact within entry member

theorem within_at {entries : Entries} {key : Value}
    (within : ∀ entry ∈ entries.entries,
      Within pairs heap root now entry.1 ∧ Within pairs heap root now entry.2) :
    Within pairs heap root now (entries.at key) := by
  intro u is
  exact (within _ (Entries.mem_of_at (by simp) is)).2 u rfl

theorem within_get (confined : Confined pairs heap root now got) (closed : heap.Closed)
    {key : Value} (has : Has got (.table t)) (hasKey : Has got key) :
    Within pairs heap root now (now.get t key) := by
  rcases within_of_has confined has t rfl with ⟨old, reads⟩ | ⟨new, young⟩
  · rw [get_unchanged closed confined.unchanged old confined.grown]
    intro u read
    obtain ⟨there, keyThere⟩ := closed.lt_of_get read
    refine .inl ⟨there, .get reads (fun k is => ?_) read⟩
    rcases within_of_has confined hasKey k is with ⟨-, reads⟩ | ⟨new, -⟩
    · exact reads
    · exact absurd (keyThere k is) (Nat.not_lt_of_le new)
  · obtain ⟨entries, plain, within⟩ := confined.made t new young
    rw [get_plain plain]
    exact within_at within

theorem within_source (confined : Confined pairs heap root now got) (closed : heap.Closed)
    (behind : pairs = true ∨ ¬ (Access.source t).LooksBehind now) (has : Has got (.table t)) :
    Within pairs heap root now (.table (now.source t)) := by
  rintro u ⟨⟩
  rcases within_of_has confined has t rfl with ⟨old, reads⟩ | ⟨new, young⟩
  · rcases behind with behind | stays
    · have same : now.source t = heap.source t := by
        simp only [source, confined.unchanged.tables t old]
      rw [same]
      exact .inl ⟨closed.source_lt old, .source behind reads⟩
    · rw [source_of_not_looksBehind stays]
      exact .inl ⟨old, reads⟩
  · obtain ⟨entries, plain, -⟩ := confined.made t new young
    have same : now.source t = t := by simp only [source, plain]
    rw [same]
    exact .inr ⟨new, young⟩

theorem rawSet (confined : Confined pairs heap root now got) (new : heap.tables.size ≤ t)
    {key value : Value} (withinKey : Within pairs heap root now key)
    (within : Within pairs heap root now value) :
    Confined pairs heap root (now.rawSet t key value) got := by
  have size : (now.rawSet t key value).tables.size = now.tables.size := size_rawSet ..
  have stays {other : Value} (within : Within pairs heap root now other) :
      Within pairs heap root (now.rawSet t key value) other := within.mono (Nat.le_of_eq size.symm)
  refine ⟨⟨fun u old => ?_, confined.unchanged.stores⟩, by rw [size]; exact confined.grown,
    fun other member => stays (confined.got other member), fun u made young => ?_⟩
  · rw [table?_rawSet, if_neg (Nat.ne_of_gt (Nat.lt_of_lt_of_le old new))]
    exact confined.unchanged.tables u old
  · rw [size] at young
    obtain ⟨entries, plain, before⟩ := confined.made u made young
    rw [table?_rawSet]
    split
    · rw [plain]
      refine ⟨entries.set key value, rfl, fun entry member => ?_⟩
      rcases Entries.mem_of_mem_set member with rfl | earlier
      · exact ⟨stays withinKey, stays within⟩
      · exact ⟨stays (before entry earlier).1, stays (before entry earlier).2⟩
    · exact ⟨entries, plain, fun entry member =>
        ⟨stays (before entry member).1, stays (before entry member).2⟩⟩

/-- A write is refused, or goes to a new table. -/
theorem set (confined : Confined pairs heap root now got)
    (locked : ∀ u, Reads pairs heap root u → ¬ heap.Writable u) {key value : Value}
    (has : Has got (.table t)) (hasKey : Has got key) (hasValue : Has got value) :
    Confined pairs heap root ((Access.set t key value).run now).2 got := by
  unfold Access.run
  dsimp only
  split
  · exact confined
  · rename_i accepted
    rcases within_of_has confined has t rfl with ⟨old, reads⟩ | ⟨new, young⟩
    · have refuses := mt (writable_unchanged confined.unchanged old).mp (locked t reads)
      have refused := writeError?_of_not_writable (Nat.lt_of_lt_of_le old confined.grown) refuses
        key value
      rw [accepted] at refused
      cases refused
    · obtain ⟨entries, plain, -⟩ := confined.made t new young
      have written : now.write t key value = now.rawSet t key.key value := by
        simp only [write, plain]
      rw [written]
      exact confined.rawSet new (within_key (within_of_has confined hasKey))
        (within_of_has confined hasValue)

end Confined

theorem Explores.confined (closed : heap.Closed) (allocated : root < heap.tables.size)
    (locked : ∀ u, Reads pairs heap root u → ¬ heap.Writable u)
    (explores : Explores pairs heap [.table root] now got) :
    Confined pairs heap root now got := by
  induction explores with
  | start => exact .start root pairs allocated
  | @access α access now got operands _ made has behind ih =>
    cases access with
    | newTable entries =>
      cases made
      refine ih.newTable fun entry member => ⟨has _ ?_, has _ ?_⟩
      · exact List.mem_flatMap.mpr ⟨entry, member, by simp⟩
      · exact List.mem_flatMap.mpr ⟨entry, member, by simp⟩
    | get t key =>
      cases made
      exact ih.learnOne (ih.within_get closed (has _ (by simp)) (has _ (by simp)))
    | rawGet t key =>
      cases made
      exact ih.learnOne (Confined.within_at fun entry member =>
        ih.within_entries locked (has _ (by simp)) member)
    | next t key =>
      cases made
      refine ih.learn fun value member => ?_
      simp only [Access.run] at member
      cases found : now.next t key with
      | none => rw [found] at member; cases member
      | some entry =>
        obtain ⟨first, second⟩ := ih.within_entries locked (has _ (by simp))
          (mem_entries_of_next found)
        rw [found] at member
        rcases List.mem_pair.mp member with rfl | rfl
        · exact first
        · exact second
    | set t key value =>
      cases made
      exact ih.set locked (has _ (by simp)) (has _ (by simp)) (has _ (by simp))
    | source t =>
      cases made
      exact ih.learnOne (ih.within_source closed behind (has _ (by simp)))
    | length | rawLength =>
      cases made
      exact ih
    | _ => cases made

/-! ### What can be changed -/

/-- Whatever is read from the root can be got without a change of the heap. -/
theorem Reads.explores {begun : List Value} (member : .table root ∈ begun)
    (reads : Reads pairs heap root u) (explores : Explores pairs heap begun heap got)
    (holds : ∀ value ∈ begun, value ∈ got) :
    ∃ more, Explores pairs heap begun heap more ∧ .table u ∈ more ∧ ∀ value ∈ got, value ∈ more := by
  induction reads generalizing got with
  | root => exact ⟨got, explores, holds _ member, fun _ => id⟩
  | @get t u key _ _ read ih ihKey =>
    obtain ⟨more, explores, table, kept⟩ := ih explores holds
    obtain ⟨all, explores, hasKey, kept'⟩ : ∃ all, Explores pairs heap begun heap all ∧
        Has all key ∧ ∀ value ∈ more, value ∈ all := by
      by_cases is : ∃ k, key = .table k
      · obtain ⟨k, rfl⟩ := is
        obtain ⟨all, explores, held, kept'⟩ :=
          ihKey k rfl explores fun value member => kept value (holds value member)
        exact ⟨all, explores, fun _ _ => held, kept'⟩
      · exact ⟨more, explores, fun k same => absurd ⟨k, same⟩ is, fun _ => id⟩
    have next := explores.access (.get t key) rfl (by
      intro value operand
      rcases List.mem_pair.mp operand with rfl | rfl
      · exact fun _ _ => kept' _ table
      · exact hasKey) (.inr id)
    refine ⟨_, next, ?_, fun value held => List.mem_append_right _ (kept' value (kept value held))⟩
    exact List.mem_append_left _ (List.mem_singleton.mpr read.symm)
  | @source t behind _ ih =>
    obtain ⟨more, explores, table, kept⟩ := ih explores holds
    have next := explores.access (.source t) rfl (by
      intro value operand
      obtain rfl := List.mem_singleton.mp operand
      exact fun _ _ => table) (.inl behind)
    exact ⟨_, next, List.mem_append_left _ (List.mem_singleton.mpr rfl),
      fun value held => List.mem_append_right _ (kept value held)⟩

theorem exists_unbound (heap : Heap) (store : StoreId) :
    ∃ name, name ≠ apiName ∧ heap.bound store (.text name) = .nil := by
  let names := ((heap.stores[store]?).map fun s => s.bindings.entries.map (·.1)).getD []
  obtain ⟨name, fresh⟩ := Infinite.exists_notMem_finset (apiName :: names).toFinset
  rw [List.mem_toFinset, List.mem_cons, not_or] at fresh
  refine ⟨name, fresh.1, ?_⟩
  unfold bound
  split
  · rename_i s _ found is
    cases is
    cases bound : s.bindings.get? name with
    | none => rfl
    | some value =>
      have named : name ∈ names := by
        simp only [names, found, Option.map_some, Option.getD_some]
        exact List.mem_map.mpr ⟨_, SortedMap.mem_of_get? bound, rfl⟩
      exact absurd named fresh.2
  · rfl

theorem exists_change_plain {entries : Entries} (plain : heap.table? t = some (.plain entries)) :
    ∃ key value, (∀ u, key ≠ .table u) ∧ (∀ u, value ≠ .table u) ∧
      ¬ Unchanged heap ((Access.set t key value).run heap).2 := by
  obtain ⟨value, noTable, other⟩ : ∃ value : Value, (∀ u, value ≠ .table u) ∧
      value ≠ entries.at (.boolean true) := by
    by_cases is : entries.at (.boolean true) = .boolean true
    · exact ⟨.boolean false, by simp, by simp [is]⟩
    · exact ⟨.boolean true, by simp, fun same => is same.symm⟩
  refine ⟨.boolean true, value, by simp, noTable, fun unchanged => other ?_⟩
  have written : ((Access.set t (.boolean true) value).run heap).2 =
      heap.rawSet t (.boolean true) value := by
    simp [Access.run, writeError?, write, plain, Value.key]
  have same := unchanged.tables t (lt_size_of_table? plain)
  rw [written, table?_rawSet, if_pos rfl, plain] at same
  have entries_eq : entries.set (.boolean true) value = entries :=
    TableObject.plain.inj (Option.some.inj same)
  have read := entries.at_set (.boolean true) (.boolean true) value
  rw [if_pos rfl, entries_eq] at read
  exact read.symm

theorem exists_change_environment (closed : heap.Closed) {store : StoreId}
    (names : heap.table? t = some (.environment store))
    (unsealed : (heap.stores[store]?).any (·.isSealed) = false) :
    ∃ key value, (∀ u, key ≠ .table u) ∧ (∀ u, value ≠ .table u) ∧
      ¬ Unchanged heap ((Access.set t key value).run heap).2 := by
  obtain ⟨name, free, unbound⟩ := heap.exists_unbound store
  obtain ⟨s, found⟩ : ∃ s, heap.stores[store]? = some s :=
    ⟨_, Array.getElem?_eq_getElem (closed.environments names)⟩
  let value : Value := .builtin (.base .assert)
  refine ⟨.text name, value, by simp, by simp [value, Value.builtin], fun unchanged => ?_⟩
  have written : ((Access.set t (.text name) value).run heap).2 = heap.bind store name value := by
    simp [Access.run, writeError?, definitionError?, write, define, names, unsealed, free, unbound,
      value, Value.builtin]
  have same := unchanged.stores
  rw [written] at same
  have read : (heap.bind store name value).bound store (.text name) = value := by
    simp [bound, bind, Array.getElem?_modify, found, SortedMap.get?_insert]
  have before : (heap.bind store name value).bound store (.text name) =
      heap.bound store (.text name) := by
    simp only [bound, same]
  rw [before, unbound] at read
  exact absurd read.symm (by simp [value, Value.builtin])

/-- A table that takes writes can be changed by one, with a key and a value that are no tables. -/
theorem Writable.exists_change (closed : heap.Closed) (writable : heap.Writable t) :
    ∃ key value, (∀ u, key ≠ .table u) ∧ (∀ u, value ≠ .table u) ∧
      ¬ Unchanged heap ((Access.set t key value).run heap).2 := by
  unfold Writable at writable
  split at writable
  · rename_i plain
    exact exists_change_plain plain
  · rename_i names
    exact exists_change_environment closed names writable
  · cases writable

/-- A table protects what is there exactly if no table that takes writes is read from it. -/
theorem protected_iff (pairs : Bool) (closed : heap.Closed) (allocated : root < heap.tables.size) :
    Protected pairs heap root ↔ ∀ u, Reads pairs heap root u → ¬ heap.Writable u := by
  refine ⟨fun unchanged u reads writable => ?_, fun locked now got explores =>
    (explores.confined closed allocated locked).unchanged⟩
  obtain ⟨got, explores, table, -⟩ :=
    reads.explores (List.mem_singleton.mpr rfl) .start fun _ => id
  obtain ⟨key, value, noTable, noTable', changed⟩ := writable.exists_change closed
  refine changed (unchanged _ _ (explores.access (.set u key value) rfl (fun operand member => ?_)
    (.inr id)))
  simp only [List.mem_cons, List.not_mem_nil, or_false] at member
  rcases member with rfl | rfl | rfl
  · exact fun _ _ => table
  · exact fun t is => absurd is (noTable t)
  · exact fun t is => absurd is (noTable' t)

end Heap

end EntityScripting.Script
