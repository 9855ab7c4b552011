import EntityScripting.Proofs.Script.DeepFreeze
import EntityScripting.Proofs.Script.Order

/-!
# Reading through a view

A script reads a table in four ways: by indexing, with `ipairs`, by its length and with `pairs`. A new
view shows what its table held in all four, with views in the place of the tables among the values;
but the last two look only one table behind a view, so they find nothing if that table was a view
itself (`freeze_transparent`).
-/

namespace EntityScripting.Script

open Relation

def Value.viewed (views : SortedMap TableId TableId) : Value → Value
  | .table t => .table ((views.get? t).getD t)
  | v => v

@[simp] theorem Value.viewed_eq_nil {views : SortedMap TableId TableId} {v : Value} :
    v.viewed views = .nil ↔ v = .nil := by
  cases v <;> simp [viewed]

namespace Entries

open SortedMap

variable {entries : Entries} {views : SortedMap TableId TableId} {f : Value → Value}

theorem at_mapValues (kept : f .nil = .nil) (key : Value) :
    Entries.at (entries.mapValues f) key = f (entries.at key) := by
  unfold Entries.at
  show (lookup key (entries.entries.map fun entry => (entry.1, f entry.2))).getD .nil = _
  rw [lookup_mapValues]
  show _ = f ((lookup key entries.entries).getD .nil)
  cases lookup key entries.entries with
  | none => exact kept.symm
  | some v => rfl

theorem border_mapValues (entries : Entries) (f : Value → Value) :
    Entries.border (entries.mapValues f) = entries.border := by
  unfold Entries.border
  exact List.foldl_map

theorem next?_mapValues (entries : Entries) (f : Value → Value) (key : Value) :
    (entries.mapValues f).next? key = (entries.next? key).map (Prod.map id f) := by
  simp only [next?, mapValues, List.find?_map]
  rfl

/-- Views take the place of tables one by one, and every entry stays where it stands. -/
theorem Ordered.withViews_eq (ordered : entries.Ordered) {nested : List (Value × TableId)}
    (listed : ∀ key inner, (key, inner) ∈ nested → (key, .table inner) ∈ entries.entries) :
    entries.withViews views nested = ⟨entries.entries.map fun entry =>
      (entry.1, if entry.1 ∈ nested.map Prod.fst then entry.2.viewed views else entry.2)⟩ := by
  induction nested using List.reverseRecOn with
  | nil => simp [withViews]
  | append_singleton nested last ih =>
    obtain ⟨key, inner⟩ := last
    have before := ih fun key inner member => listed key inner (List.mem_append_left _ member)
    have present := listed key inner (by simp)
    have ordered' : (entries.withViews views nested).Ordered := by
      rw [before]
      exact List.pairwise_map.mpr ordered
    have member : key ∈ (entries.withViews views nested).keys := by
      rw [before]
      simpa [keys] using ⟨_, present⟩
    have step : entries.withViews views (nested ++ [(key, inner)]) =
        (entries.withViews views nested).insert key (.table ((views.get? inner).getD inner)) := by
      simp [withViews, Entries.set]
    rw [step, ordered'.insert_of_mem member, before]
    simp only [List.map_map]
    refine congrArg _ (List.map_congr_left fun entry listed' => ?_)
    by_cases here : entry.1 = key
    · obtain rfl : entry = (key, .table inner) := ordered.eq_of_key listed' present here
      simp [Value.viewed]
    · have same : entry.1 ∈ (nested ++ [(key, inner)]).map Prod.fst ↔ entry.1 ∈ nested.map Prod.fst := by
        simp [here]
      simp only [Function.comp_def, if_neg here, same]

end Entries

namespace Heap

variable {heap after : Heap} {views : SortedMap TableId TableId} {t u view : TableId}

/-! ### Going through a table -/

/-- The pair that `pairs` gives after a key. -/
def nextPair (heap : Heap) (t : TableId) (key : Value) : Option (Value × Value) :=
  heap.next (heap.source t) key

def nextItem (heap : Heap) (t : TableId) : Value → Option (Value × Value)
  | .integer i =>
    let position := .integer (Int64.ofInt (i.toInt + 1))
    match heap.get t position with
    | .nil => none
    | v => some (position, v)
  | _ => none

/-- The pairs that a loop goes through after a key, so many at most. -/
def walk (step : Value → Option (Value × Value)) : (count : Nat) → Value → List (Value × Value)
  | 0, _ => []
  | count + 1, key =>
    match step key with
    | none => []
    | some entry => entry :: walk step count entry.1

def pairs (heap : Heap) (t : TableId) (count : Nat) : List (Value × Value) :=
  walk (heap.nextPair t) count .nil

def items (heap : Heap) (t : TableId) (count : Nat) : List (Value × Value) :=
  walk (heap.nextItem t) count (.integer 0)

theorem walk_map {step step' : Value → Option (Value × Value)} {f : Value → Value}
    (same : ∀ key, step' key = (step key).map (Prod.map id f)) (count : Nat) (key : Value) :
    walk step' count key = (walk step count key).map (Prod.map id f) := by
  induction count generalizing key with
  | zero => rfl
  | succ count ih =>
    simp only [walk, same]
    cases step key with
    | none => rfl
    | some entry => simpa using ih entry.1

theorem pairs_eq_nil_iff (heap : Heap) (t : TableId) :
    (∀ count, heap.pairs t count = []) ↔ (heap.entries (heap.source t)).entries = [] := by
  have first : heap.nextPair t .nil = (heap.entries (heap.source t)).entries.head? := by
    rw [nextPair, next, if_pos rfl]
  rw [← List.head?_eq_none_iff, ← first]
  refine ⟨fun all => ?_, fun none count => ?_⟩
  · cases read : heap.nextPair t .nil with
    | none => rfl
    | some entry => simpa [pairs, walk, read] using all 1
  · cases count with
    | zero => rfl
    | succ count => simp only [pairs, walk, none]

section

variable {σ : Type} (turns steps : Nat) (perform : Performer σ) (trace : Trace) (world : World σ)

/-- `pairs` gives `next` and the table behind a view, and `next` gives the next pair of that. -/
theorem run_next (t : TableId) (key : Value) :
    ((Value.builtin (.base .next)).invoke turns [.table (world.heap.source t), key] trace).runWith
        turns perform (steps + 2) [] world =
      some (.ok ((world.heap.nextPair t key).elim [.nil] fun entry => [entry.1, entry.2]), world) := by
  have asks : (Value.builtin (.base .next)).invoke turns [.table (world.heap.source t), key] trace =
      .access (.next (world.heap.source t) key) fun entry =>
        .done (entry.elim [.nil] fun entry => [entry.1, entry.2]) := by
    refine congrArg (Routine.access _) (funext fun entry => ?_)
    cases entry <;> rfl
  rw [asks]
  rfl

/-- `ipairs` gives the table itself, which is indexed from one position to the next. -/
theorem run_position (t : TableId) (i : Int64) :
    ((Value.builtin .position).invoke turns [.table t, .integer i] trace).runWith
        turns perform (steps + 2) [] world =
      some (.ok ((world.heap.nextItem t (.integer i)).elim [.nil] fun entry => [entry.1, entry.2]),
        world) := by
  have asks : (Value.builtin .position).invoke turns [.table t, .integer i] trace =
      .access (.get t (.integer (Int64.ofInt (i.toInt + 1)))) fun v =>
        .done (if v = .nil then [.nil] else [.integer (Int64.ofInt (i.toInt + 1)), v]) := by
    refine congrArg (Routine.access _) (funext fun v => ?_)
    cases v <;> rfl
  rw [asks, nextItem]
  show some (Except.ok (if world.heap.get t _ = .nil then _ else _), world) = _
  cases world.heap.get t (.integer (Int64.ofInt (i.toInt + 1))) <;> rfl

end

/-! ### A table in two heaps -/

structure Mirrors (heap : Heap) (t : TableId) (after : Heap) (u : TableId) (f : Value → Value) :
    Prop where
  get : ∀ key, after.get u key = f (heap.get t key)
  items : ∀ count, after.items u count = (heap.items t count).map (Prod.map id f)
  length : after.length u = heap.length t
  pairs : ∀ count, after.pairs u count = (heap.pairs t count).map (Prod.map id f)

/-- Whether a table itself holds what it held, but for the values, and is read like that. -/
structure Retains (heap : Heap) (t : TableId) (after : Heap) (f : Value → Value) : Prop where
  get : ∀ key, after.get t key = f (heap.get t key)
  length : after.rawLength t = heap.rawLength t
  next : ∀ key, after.next t key = (heap.next t key).map (Prod.map id f)

theorem items_of_get {f : Value → Value} (nil : ∀ v, f v = .nil ↔ v = .nil)
    (get : ∀ key, after.get u key = f (heap.get t key)) (count : Nat) :
    after.items u count = (heap.items t count).map (Prod.map id f) := by
  refine walk_map (fun key => ?_) count _
  cases key with
  | integer i =>
    simp only [nextItem, get]
    cases read : heap.get t (.integer (Int64.ofInt (i.toInt + 1))) with
    | nil => simp [(nil .nil).mpr rfl]
    | _ =>
      split
      · rename_i is
        cases (nil _).mp is
      · rfl
  | _ => rfl

theorem entries_of_not_plain {object : TableObject} (found : heap.table? t = some object)
    (other : ∀ entries, object ≠ .plain entries) : heap.entries t = {} := by
  unfold Heap.entries
  split
  · rename_i entries plain
    exact absurd (Option.some.inj (found.symm.trans plain)) (other entries)
  · rfl

theorem Retains.of_not_plain {f : Value → Value} {object : TableObject}
    (found : heap.table? t = some object) (same : after.table? t = some object)
    (other : ∀ entries, object ≠ .plain entries) (get : ∀ key, after.get t key = f (heap.get t key)) :
    heap.Retains t after f where
  get := get
  length := by simp only [rawLength, entries_of_not_plain found other, entries_of_not_plain same other]
  next key := by
    simp only [Heap.next, entries_of_not_plain found other, entries_of_not_plain same other]
    split <;> rfl

theorem length_eq (heap : Heap) (t : TableId) : heap.length t = heap.rawLength (heap.source t) := by
  unfold length source
  split <;> rfl

/-- A table that is gone through by way of one that holds what it held is read like before. -/
theorem Retains.mirrors {f : Value → Value} {s : TableId} (behind : heap.Retains s after f)
    (nil : ∀ v, f v = .nil ↔ v = .nil) (get : ∀ key, after.get u key = f (heap.get t key))
    (through : heap.source t = s) (through' : after.source u = s) : heap.Mirrors t after u f where
  get := get
  items := items_of_get nil get
  length := by rw [length_eq, length_eq, through, through', behind.length]
  pairs count := walk_map (fun key => by rw [nextPair, nextPair, through, through', behind.next]) count _

namespace Frozen

/-- A plain table that is frozen holds views in the place of all tables. -/
theorem table?_viewed (frozen : heap.Frozen t view after views) (ordered : heap.Ordered)
    {entries : Entries} (plain : heap.table? u = some (.plain entries))
    (seen : (views.get? u).isSome) :
    after.table? u = some (.plain (entries.mapValues (Value.viewed views))) := by
  have held := entries_of_table? plain
  rw [frozen.table?_plain plain, if_pos seen]
  have inOrder : entries.Ordered := held ▸ ordered u
  rw [inOrder.withViews_eq fun key inner member => held ▸ mem_entries_of_nested member]
  refine congrArg some (congrArg TableObject.plain (congrArg SortedMap.mk ?_))
  refine List.map_congr_left fun entry member => ?_
  split
  · rfl
  · -- A table among the values is nested, so what is not is no table.
    rename_i absent
    obtain ⟨key, v⟩ := entry
    cases v with
    | table inner => exact absurd (List.mem_map.mpr ⟨_, mem_nested plain member, rfl⟩) absent
    | _ => rfl

theorem retains_plain (frozen : heap.Frozen t view after views) (ordered : heap.Ordered)
    {entries : Entries} (plain : heap.table? u = some (.plain entries))
    (seen : (views.get? u).isSome) : heap.Retains u after (Value.viewed views) := by
  have held := entries_of_table? plain
  have now := frozen.table?_viewed ordered plain seen
  have holds := entries_of_table? now
  refine ⟨fun key => ?_, ?_, fun key => ?_⟩
  · rw [get_plain now, get_plain plain, Entries.at_mapValues rfl]
  · rw [rawLength, rawLength, held, holds, Entries.border_mapValues]
  · rw [next, next, held, holds]
    split
    · exact List.head?_map
    · exact Entries.next?_mapValues entries _ _

theorem source_eq (frozen : heap.Frozen t view after views) (old : u < heap.tables.size) :
    after.source u = heap.source u := by
  obtain ⟨object, found⟩ := exists_table? old
  cases object with
  | plain => simp only [source, found, frozen.table?_plain found]
  | frozen => simp only [source, found, frozen.table?_frozen found]
  | environment => simp only [source, found, frozen.table?_environment found]

/-- A freeze puts views in the place of all tables that a script reads from a table, or of none. -/
theorem exists_retains (frozen : heap.Frozen t view after views) (closed : heap.Closed)
    (ordered : heap.Ordered) (old : u < heap.tables.size) :
    ∃ f, (f = Value.viewed views ∨ f = id) ∧
      ((views.get? u).isSome → (∃ entries, heap.table? u = some (.plain entries)) →
        f = Value.viewed views) ∧
      heap.Retains u after f ∧ heap.Retains (heap.source u) after f := by
  induction u using Nat.strongRecOn with
  | ind u ih =>
    obtain ⟨object, found⟩ := exists_table? old
    cases object with
    | plain entries =>
      have through : heap.source u = u := by simp only [source, found]
      rw [through]
      cases seen : views.get? u with
      | some shown =>
        have retains := frozen.retains_plain ordered found (Option.isSome_of_eq_some seen)
        exact ⟨_, .inl rfl, fun _ _ => rfl, retains, retains⟩
      | none =>
        have same := frozen.untouched old seen
        have retains : heap.Retains u after id := by
          refine ⟨fun key => ?_, ?_, fun key => ?_⟩
          · rw [get_plain (same.trans found), get_plain found]
            rfl
          · simp only [rawLength, entries_congr same]
          · simp [next, entries_congr same]
        exact ⟨id, .inr rfl, by simp, retains, retains⟩
    | frozen source =>
      have older := closed.views found
      have through : heap.source u = source := by simp only [Heap.source, found]
      obtain ⟨f, is, -, retains, -⟩ := ih source older (Nat.lt_trans older old)
      refine ⟨f, is, ?_, .of_not_plain found (frozen.table?_frozen found) (by simp) fun key => ?_,
        through ▸ retains⟩
      · rintro - ⟨entries, plain⟩
        rw [found] at plain
        cases plain
      · rw [get_frozen (frozen.closed closed) (frozen.table?_frozen found), get_frozen closed found]
        exact retains.get key
    | environment store =>
      have through : heap.source u = u := by simp only [source, found]
      have retains : heap.Retains u after id :=
        .of_not_plain found (frozen.table?_environment found) (by simp) fun key => by
          rw [get_environment (frozen.table?_environment found), get_environment found]
          simp only [bound, frozen.stores, id]
      refine ⟨id, .inr rfl, ?_, retains, through.symm ▸ retains⟩
      rintro - ⟨entries, plain⟩
      rw [found] at plain
      cases plain

/-- A new view reads like the table that it shows, but for the length and the pairs of one that was a
view itself. -/
theorem mirrors_view (frozen : heap.Frozen t view after views) (closed : heap.Closed)
    {shown : TableId} (seen : views.get? u = some shown) {f : Value → Value}
    (nil : ∀ v, f v = .nil ↔ v = .nil) (retains : heap.Retains u after f) :
    (∀ key, after.get shown key = f (heap.get u key)) ∧
      (∀ count, after.items shown count = (heap.items u count).map (Prod.map id f)) ∧
      (after.length shown = heap.length u ↔
        ¬ ∃ source, heap.table? u = some (.frozen source) ∧ heap.rawLength source ≠ 0) ∧
      (heap.Mirrors u after shown f ↔
        ¬ ∃ source, heap.table? u = some (.frozen source) ∧ (heap.entries source).entries ≠ []) := by
  obtain ⟨-, -, shows⟩ := frozen.shown seen
  have get (key : Value) : after.get shown key = f (heap.get u key) := by
    rw [get_frozen (frozen.closed closed) shows, retains.get]
  have through : after.source shown = u := by simp only [source, shows]
  have length : after.length shown = heap.rawLength u := by rw [length_eq, through, retains.length]
  refine ⟨get, items_of_get nil get, ?_⟩
  by_cases view : ∃ source, heap.table? u = some (.frozen source)
  · -- The table has no entries of its own, whatever the one behind it has.
    obtain ⟨source, found⟩ := view
    have none : heap.entries u = {} := entries_of_not_plain found (by simp)
    have behind : heap.source u = source := by simp only [Heap.source, found]
    have only (P : TableId → Prop) :
        (∃ other, heap.table? u = some (.frozen other) ∧ P other) ↔ P source := by
      simp [found]
    have empty : ∀ count, after.pairs shown count = [] := by
      rw [pairs_eq_nil_iff, through, entries_of_not_plain (frozen.table?_frozen found) (by simp)]
    have zero : heap.rawLength u = 0 := by
      rw [rawLength, none]
      rfl
    rw [only, only, ← behind, not_ne_iff, not_ne_iff, ← pairs_eq_nil_iff, length, length_eq, zero]
    refine ⟨eq_comm, fun mirrors count => ?_, fun hollow =>
      ⟨get, items_of_get nil get, ?_, fun count => ?_⟩⟩
    · exact List.map_eq_nil_iff.mp ((mirrors.pairs count).symm.trans (empty count))
    · rw [length, length_eq, zero, rawLength, Entries.border, (pairs_eq_nil_iff heap u).mp hollow]
      rfl
    · rw [empty, hollow]
      rfl
  · have through' : heap.source u = u := by
      unfold source
      split
      · exact absurd ⟨_, ‹_›⟩ view
      · rfl
    have none (P : TableId → Prop) : ¬ ∃ source, heap.table? u = some (.frozen source) ∧ P source := by
      rintro ⟨source, found, -⟩
      exact view ⟨source, found⟩
    rw [length, length_eq, through']
    exact ⟨iff_of_true rfl (none _), iff_of_true (retains.mirrors nil get through' through) (none _)⟩

end Frozen

/-- How a script reads the tables that a freeze has come to, and all that were there before. The values
are what they were, with views in the place of the tables among them or as they were. Every old table
is read like before, and every new view like the table that it shows by indexing and `ipairs`; by its
length and by `pairs` it is unless that table is a view already and the one behind it has something to
count or to go through. -/
theorem freeze_transparent {heap : Heap} (closed : heap.Closed) (ordered : heap.Ordered) {t : TableId}
    (allocated : t < heap.tables.size) :
    ∃ views, views.get? t = some (heap.freeze t).1 ∧
      (∀ u, (views.get? u).isSome ↔ ReflTransGen heap.Nests t u) ∧
      ∀ u < heap.tables.size, ∃ f, (f = Value.viewed views ∨ f = id) ∧
        ((views.get? u).isSome → (∃ entries, heap.table? u = some (.plain entries)) →
          f = Value.viewed views) ∧
        heap.Mirrors u (heap.freeze t).2 u f ∧
        ∀ view, views.get? u = some view →
          (∀ key, (heap.freeze t).2.get view key = f (heap.get u key)) ∧
          (∀ count, (heap.freeze t).2.items view count = (heap.items u count).map (Prod.map id f)) ∧
          ((heap.freeze t).2.length view = heap.length u ↔
            ¬ ∃ source, heap.table? u = some (.frozen source) ∧ heap.rawLength source ≠ 0) ∧
          (heap.Mirrors u (heap.freeze t).2 view f ↔
            ¬ ∃ source, heap.table? u = some (.frozen source) ∧
              (heap.entries source).entries ≠ []) := by
  obtain ⟨views, frozen⟩ := freeze_spec closed allocated
  refine ⟨views, frozen.root, frozen.reached, fun u old => ?_⟩
  obtain ⟨f, is, viewed, retains, behind⟩ := frozen.exists_retains closed ordered old
  have nil (v : Value) : f v = .nil ↔ v = .nil := by
    rcases is with rfl | rfl
    · exact Value.viewed_eq_nil
    · rfl
  exact ⟨f, is, viewed, behind.mirrors nil retains.get rfl (frozen.source_eq old),
    fun view seen => frozen.mirrors_view closed seen nil retains⟩

/-- The view of the engine's own table shows all that the table held. -/
theorem freeze_transparent_openApi :
    ∃ views, Engine.openApi.2.Mirrors Engine.openApi.1 (Engine.openApi.2.freeze Engine.openApi.1).2
      (Engine.openApi.2.freeze Engine.openApi.1).1 (Value.viewed views) := by
  have closed : Engine.openApi.2.Closed := closed_of_all Engine.openApi_below rfl
  have allocated : Engine.openApi.1 < Engine.openApi.2.tables.size := by decide +kernel
  obtain ⟨object, found⟩ := exists_table? allocated
  obtain ⟨entries, rfl, -⟩ := exists_plain_of_all Engine.openApi_below found
  obtain ⟨views, root, -, shows⟩ := freeze_transparent closed Engine.ordered_openApi allocated
  obtain ⟨f, -, viewed, -, shown⟩ := shows _ allocated
  obtain rfl := viewed (Option.isSome_of_eq_some root) ⟨entries, found⟩
  obtain ⟨-, -, -, mirrors⟩ := shown _ root
  refine ⟨views, mirrors.mpr ?_⟩
  rintro ⟨source, view, -⟩
  rw [found] at view
  cases view

def singleList : Heap := { tables := #[.plain (.ofList [(.integer 1, .boolean true)])] }

/-- The view of a view does not tell how long the list behind the two is. -/
theorem freeze_hides_length :
    ¬ ∀ (heap : Heap) (t : TableId), heap.Closed → heap.Ordered → t < heap.tables.size →
      (heap.freeze t).2.length (heap.freeze t).1 = heap.length t := by
  intro always
  have all : singleList.tables.all (isPlainBelow singleList.tables.size) = true := by
    decide +kernel
  have empty : ({} : Heap).Ordered := fun t => Entries.ordered_empty
  have ordered : singleList.Ordered := empty.newTable fun entries is => by
    cases is
    exact Entries.ordered_ofList _
  obtain ⟨continues, there⟩ := (closed_of_all all rfl).freeze (t := 0) (by decide)
  have once := always _ _ continues.closed (ordered.freeze 0) there
  exact absurd once (by decide +kernel)

end Heap

end EntityScripting.Script
