import EntityScripting.Proofs.Script.Transparency

/-!
# Freezing tables that go round in circles

A freeze follows the tables among the values of a table, which it rewrites as it goes. `Runs` says
what one visit does without a bound on how deep the visits nest. Every visit makes a view of a table
that has none, so the tables without one bound the depth, and every freeze ends (`runs_freezeWith`).
What it comes to is one view for each table that it reaches (`freeze_once_each`).
-/

namespace EntityScripting.Script.Heap

open Relation

namespace Freezing

variable {heap : Heap} {state : Freezing} {t : TableId}
  {nested : List (Value × TableId)}

mutual

inductive Runs : TableId → Freezing → TableId × Freezing → Prop
  | seen {t view : TableId} {state : Freezing} (found : state.views.get? t = some view) :
    Runs t state (view, state)
  | fresh {t : TableId} {state last : Freezing} (unseen : state.views.get? t = none)
    (loop : Loops t ((state.enter t).heap.nested t) (state.enter t) last) :
    Runs t state (state.heap.tables.size, last)

inductive Loops : TableId → List (Value × TableId) → Freezing → Freezing → Prop
  | nil {t : TableId} {state : Freezing} : Loops t [] state state
  | cons {t inner view : TableId} {key : Value} {nested : List (Value × TableId)}
    {state next last : Freezing} (visit : Runs inner state (view, next))
    (rest : Loops t nested (next.replace t key view) last) :
    Loops t ((key, inner) :: nested) state last

end

/-- A visit that ends does so with fuel for the views that it makes. -/
theorem Runs.exists_freezeWith {result : TableId × Freezing} (run : Runs t state result) :
    ∃ enough, ∀ fuel, enough ≤ fuel → freezeWith fuel t state = result := by
  refine Runs.rec (motive_1 := fun t state result _ =>
      ∃ enough, ∀ fuel, enough ≤ fuel → freezeWith fuel t state = result)
    (motive_2 := fun t nested state last _ =>
      ∃ enough, ∀ fuel, enough ≤ fuel → visitEach fuel t nested state = last)
    ?seen ?fresh ?nil ?cons run
  case seen =>
    intro t view state found
    refine ⟨1, ?_⟩
    intro fuel enough
    obtain ⟨fuel, rfl⟩ := Nat.exists_eq_succ_of_ne_zero (Nat.one_le_iff_ne_zero.mp enough)
    exact freezeWith_of_seen fuel found
  case fresh =>
    intro t state last unseen _ loop
    obtain ⟨enough, loop⟩ := loop
    refine ⟨enough + 1, ?_⟩
    intro fuel more
    obtain ⟨fuel, rfl⟩ : ∃ rest, fuel = rest + 1 := ⟨fuel - 1, by omega⟩
    rw [freezeWith_of_unseen fuel unseen, loop fuel (by omega)]
  case nil =>
    intro t state
    exact ⟨0, fun _ _ => rfl⟩
  case cons =>
    intro t inner view key nested state next last _ _ visit rest
    obtain ⟨enough, visit⟩ := visit
    obtain ⟨enough', rest⟩ := rest
    refine ⟨max enough enough', ?_⟩
    intro fuel more
    rw [visitEach_cons, visit fuel (by omega)]
    exact rest fuel (by omega)

/-- No visit ends in two ways. -/
theorem Runs.unique {result result' : TableId × Freezing} (run : Runs t state result)
    (run' : Runs t state result') : result = result' := by
  obtain ⟨enough, runs⟩ := run.exists_freezeWith
  obtain ⟨enough', runs'⟩ := run'.exists_freezeWith
  rw [← runs (max enough enough') (by omega), ← runs' (max enough enough') (by omega)]

/-- The loop of a visit, if every visit in it has fuel enough to end. -/
theorem loops_visitEach {fuel : Nat} (closed : heap.Closed)
    (visits : ∀ {inner : TableId} {state : Freezing}, Sound heap state →
      inner < heap.tables.size → (unseen heap state).card < fuel →
      Runs inner state (freezeWith fuel inner state))
    (sound : Sound heap state) (visited : (state.views.get? t).isSome)
    (allocated : ∀ entry ∈ nested, entry.2 < heap.tables.size)
    (enough : (unseen heap state).card < fuel) :
    Loops t nested state (visitEach fuel t nested state) := by
  induction nested generalizing state with
  | nil => exact .nil
  | cons entry nested ih =>
    obtain ⟨key, inner⟩ := entry
    have old := allocated (key, inner) List.mem_cons_self
    have run := visits sound old enough
    have visit := freezeWith_visit closed fuel sound old enough
    have visited' := isSome_of_views visit.grows.views visited
    rw [visitEach_cons]
    refine .cons run (ih (visit.sound.replace visited' key _) visited' ?_ ?_)
    · intro entry member
      exact allocated entry (List.mem_cons_of_mem _ member)
    · exact Nat.lt_of_le_of_lt (Finset.card_le_card (unseen_subset visit.grows.views)) enough

/-- Every visit ends. The tables without a view are fewer in each visit within it. -/
theorem runs_freezeWith (closed : heap.Closed) (fuel : Nat) {t : TableId} {state : Freezing}
    (sound : Sound heap state) (allocated : t < heap.tables.size)
    (enough : (unseen heap state).card < fuel) : Runs t state (freezeWith fuel t state) := by
  induction fuel generalizing t state with
  | zero => cases enough
  | succ fuel ih =>
    cases seen : state.views.get? t with
    | some view =>
      rw [freezeWith_of_seen fuel seen]
      exact .seen seen
    | none =>
      have entered := sound.enter allocated seen
      have visited : ((state.enter t).views.get? t).isSome := by
        rw [get?_enter, if_pos rfl]
        rfl
      have same : (state.enter t).heap.table? t = heap.table? t := by
        rw [table?_enter, if_neg (Nat.lt_of_lt_of_le allocated sound.grown).ne]
        exact sound.untouched allocated seen
      have fewer := card_unseen_enter allocated seen
      rw [freezeWith_of_unseen fuel seen]
      refine .fresh seen (loops_visitEach closed ih entered visited ?_ (by omega))
      rw [nested_congr same]
      rintro ⟨key, inner⟩ member
      exact closed.lt_of_nested member

end Freezing

variable {heap after : Heap} {views : SortedMap TableId TableId} {t u view other : TableId}

/-! ### The tables afterwards -/

/-- A table that a freeze reaches has the keys it had, each with the view of the table among its
values or with what it had. -/
theorem Frozen.entries_reached (frozen : heap.Frozen t view after views) (ordered : heap.Ordered)
    (seen : (views.get? u).isSome) :
    after.entries u = (heap.entries u).mapValues (Value.viewed views) := by
  obtain ⟨shown, found⟩ := Option.isSome_iff_exists.mp seen
  obtain ⟨object, was⟩ := exists_table? (frozen.shown found).1
  cases object with
  | plain entries =>
    rw [entries_of_table? was, entries_of_table? (frozen.table?_viewed ordered was seen)]
  | frozen source =>
    rw [entries_of_not_plain was nofun, entries_of_not_plain (frozen.table?_frozen was) nofun]
    rfl
  | environment store =>
    rw [entries_of_not_plain was nofun, entries_of_not_plain (frozen.table?_environment was) nofun]
    rfl

/-- What a table that a freeze reaches has of tables are views that are new, of those it had. -/
theorem Frozen.table_mem_reached (frozen : heap.Frozen t view after views) (ordered : heap.Ordered)
    (seen : (views.get? u).isSome) {key : Value} {w : TableId}
    (member : (key, .table w) ∈ (after.entries u).entries) :
    heap.tables.size ≤ w ∧
      ∃ inner, (key, .table inner) ∈ (heap.entries u).entries ∧ views.get? inner = some w := by
  rw [frozen.entries_reached ordered seen] at member
  obtain ⟨⟨key', v⟩, held, same⟩ := List.mem_map.mp member
  obtain ⟨rfl, became⟩ := Prod.mk.inj same
  cases v with
  | table inner =>
    have nests : (key', inner) ∈ heap.nested u := List.mem_filterMap.mpr ⟨_, held, rfl⟩
    obtain ⟨shown, found, new, -⟩ := frozen.exists_view seen nests
    have is : shown = w := by
      rw [Value.viewed, found] at became
      exact Value.table.inj became
    subst is
    exact ⟨new, inner, held, found⟩
  | _ => cases became

/-- A new view is of the table that it was made for, and of no other. -/
theorem Frozen.view_iff (frozen : heap.Frozen t view after views) (new : heap.tables.size ≤ other) :
    after.table? other = some (.frozen u) ↔ views.get? u = some other := by
  constructor
  · intro shows
    rcases frozen.eq_of_frozen shows with was | ⟨-, -, found⟩
    · exact absurd (lt_size_of_table? was) (Nat.not_lt_of_le new)
    · exact found
  · intro found
    exact (frozen.shown found).2.2

/-- Any freeze ends, however the tables are nested, shared or go round in circles. Each table that
the root leads to through values has one new view, which shows just that table, and the root's is the
result. In such a table every value that was a table is the new view of that one, and nothing else
is changed; tables that the root does not lead to, and all that is not a table, are as before. -/
theorem freeze_once_each {heap : Heap} (closed : heap.Closed) (ordered : heap.Ordered) {t : TableId}
    (allocated : t < heap.tables.size) :
    ∃ views : SortedMap TableId TableId,
      (∀ result, Freezing.Runs t ⟨heap, {}⟩ result ↔
        result = ((heap.freeze t).1, ⟨(heap.freeze t).2, views⟩)) ∧
      views.get? t = some (heap.freeze t).1 ∧
      (∀ u, (views.get? u).isSome ↔ ReflTransGen heap.Nests t u) ∧
      (∀ view, heap.tables.size ≤ view → view < (heap.freeze t).2.tables.size →
        ∃ u, (heap.freeze t).2.table? view = some (.frozen u)) ∧
      (∀ u view, views.get? u = some view ↔
        heap.tables.size ≤ view ∧ (heap.freeze t).2.table? view = some (.frozen u)) ∧
      (∀ u, ReflTransGen heap.Nests t u →
        (heap.freeze t).2.entries u = (heap.entries u).mapValues (Value.viewed views) ∧
        ∀ key w, (key, .table w) ∈ ((heap.freeze t).2.entries u).entries →
          heap.tables.size ≤ w ∧
            ∃ inner, (key, .table inner) ∈ (heap.entries u).entries ∧ views.get? inner = some w) ∧
      (∀ u < heap.tables.size,
        (¬ ReflTransGen heap.Nests t u ∨ ∀ entries, heap.table? u ≠ some (.plain entries)) →
          (heap.freeze t).2.table? u = heap.table? u) ∧
      (heap.freeze t).2 = { heap with tables := (heap.freeze t).2.tables } := by
  have frozen := frozen_freezeWith closed allocated
  have enough := Nat.lt_succ_of_le (Freezing.card_unseen_le heap ⟨heap, {}⟩)
  have runs := Freezing.runs_freezeWith closed _ (Freezing.sound_start heap) allocated enough
  refine ⟨_, ?_, frozen.root, frozen.reached, ?_, ?_, ?_, ?_, frozen.rest⟩
  · intro result
    constructor
    · intro run
      exact run.unique runs
    · rintro rfl
      exact runs
  · intro view new young
    obtain ⟨source, -, -, shows⟩ := frozen.table?_new new young
    exact ⟨source, shows⟩
  · intro u view
    constructor
    · intro found
      obtain ⟨-, new, shows⟩ := frozen.shown found
      exact ⟨new, shows⟩
    · rintro ⟨new, shows⟩
      exact (frozen.view_iff new).mp shows
  · intro u led
    have seen := (frozen.reached u).mpr led
    refine ⟨frozen.entries_reached ordered seen, ?_⟩
    intro key w member
    exact frozen.table_mem_reached ordered seen member
  · rintro u old (away | other)
    · apply frozen.untouched old
      rw [← Option.not_isSome_iff_eq_none, frozen.reached]
      exact away
    · obtain ⟨object, was⟩ := exists_table? old
      cases object with
      | plain entries => exact absurd was (other entries)
      | frozen source => rw [was, frozen.table?_frozen was]
      | environment store => rw [was, frozen.table?_environment was]

/-- Two tables that are among each other's values, the one twice, and a third that has the first. -/
def circle : Heap where
  tables := #[.plain (.ofList [(.integer 1, .table 1), (.integer 2, .table 1)]),
    .plain (.ofList [(.integer 1, .table 0), (.integer 2, .boolean true)]),
    .plain (.ofList [(.integer 1, .table 0)])]

theorem ordered_circle : circle.Ordered := by
  rw [ordered_iff]
  intro t entries plain
  have member : .plain entries ∈ circle.tables.toList := by
    rw [Array.mem_toList_iff]
    exact Array.mem_of_getElem? plain
  simp only [circle, List.mem_cons, TableObject.plain.injEq, List.not_mem_nil, or_false] at member
  rcases member with rfl | rfl | rfl
  · exact Entries.ordered_ofList _
  · exact Entries.ordered_ofList _
  · exact Entries.ordered_ofList _

/-- The circle gets two views, and the third table none. -/
theorem freeze_once_each_circle :
    (∃ views, Freezing.Runs 0 ⟨circle, {}⟩ ((circle.freeze 0).1, ⟨(circle.freeze 0).2, views⟩)) ∧
    (circle.freeze 0).1 = 3 ∧
    (circle.freeze 0).2.tables = #[
      .plain (.ofList [(.integer 1, .table 4), (.integer 2, .table 4)]),
      .plain (.ofList [(.integer 1, .table 3), (.integer 2, .boolean true)]),
      .plain (.ofList [(.integer 1, .table 0)]), .frozen 0, .frozen 1] := by
  have closed : circle.Closed := closed_of_all (by decide +kernel) rfl
  obtain ⟨views, runs, -⟩ := freeze_once_each closed ordered_circle (t := 0) (by decide)
  exact ⟨⟨views, (runs _).mpr rfl⟩, rfl, rfl⟩

end EntityScripting.Script.Heap
