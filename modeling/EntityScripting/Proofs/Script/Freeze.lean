import EntityScripting.Proofs.Script.Heap
import Mathlib.Data.Finset.Card
import Mathlib.Logic.Relation

/-!
# Freezing

What a freeze does to a heap: each table that the root leads to gets one view, views take the place
of the tables in it, and nothing else changes. The visits go round in circles where the tables do;
what carries the proof is that a visit leaves alone every table that was visited before it
(`Freezing.Extends`) and finishes every table that it is the first to reach.
-/

namespace EntityScripting.Script

open Relation

def TableObject.withViews (object : TableObject) (views : SortedMap TableId TableId)
    (nested : List (Value × TableId)) : TableObject :=
  nested.foldl (fun object (key, inner) =>
    object.put key (.table ((views.get? inner).getD inner))) object

def Entries.withViews (entries : Entries) (views : SortedMap TableId TableId)
    (nested : List (Value × TableId)) : Entries :=
  nested.foldl (fun entries (key, inner) =>
    entries.set key (.table ((views.get? inner).getD inner))) entries

theorem TableObject.withViews_plain (entries : Entries) (views : SortedMap TableId TableId)
    (nested : List (Value × TableId)) :
    (TableObject.plain entries).withViews views nested =
      .plain (entries.withViews views nested) := by
  induction nested generalizing entries with
  | nil => rfl
  | cons entry rest ih => exact ih _

theorem TableObject.withViews_frozen (source : TableId) (views : SortedMap TableId TableId)
    (nested : List (Value × TableId)) :
    (TableObject.frozen source).withViews views nested = .frozen source := by
  induction nested with
  | nil => rfl
  | cons entry rest ih => exact ih

theorem TableObject.withViews_environment (store : StoreId) (views : SortedMap TableId TableId)
    (nested : List (Value × TableId)) :
    (TableObject.environment store).withViews views nested = .environment store := by
  induction nested with
  | nil => rfl
  | cons entry rest ih => exact ih

/-- A key that is on the list has a view of a table that the list has there, and any other key has
what it had. -/
theorem Entries.at_withViews (entries : Entries) (views : SortedMap TableId TableId)
    (nested : List (Value × TableId)) (key : Value) :
    (∃ inner, (key, inner) ∈ nested ∧
      (entries.withViews views nested).at key = .table ((views.get? inner).getD inner)) ∨
    (∀ inner, (key, inner) ∉ nested) ∧
      (entries.withViews views nested).at key = entries.at key := by
  induction nested generalizing entries with
  | nil => exact .inr ⟨by simp, rfl⟩
  | cons entry rest ih =>
    obtain ⟨first, inner⟩ := entry
    rcases ih (entries.set first (.table ((views.get? inner).getD inner))) with
      ⟨later, member, read⟩ | ⟨absent, read⟩
    · exact .inl ⟨later, List.mem_cons_of_mem _ member, read⟩
    · rw [Entries.at_set] at read
      split at read
      · rename_i same
        exact .inl ⟨inner, same ▸ List.mem_cons_self, read⟩
      · rename_i other
        refine .inr ⟨fun later member => ?_, read⟩
        rcases List.mem_cons.mp member with here | member
        · exact other (Prod.mk.inj here).1
        · exact absent later member

theorem Entries.mem_of_mem_withViews {entries : Entries} {views : SortedMap TableId TableId}
    {nested : List (Value × TableId)} {entry : Value × Value}
    (member : entry ∈ (entries.withViews views nested).entries) :
    (∃ key inner, (key, inner) ∈ nested ∧
      entry = (key, .table ((views.get? inner).getD inner))) ∨ entry ∈ entries.entries := by
  induction nested generalizing entries with
  | nil => exact .inr member
  | cons first rest ih =>
    obtain ⟨key, inner⟩ := first
    rcases ih member with ⟨other, later, listed, is⟩ | before
    · exact .inl ⟨other, later, List.mem_cons_of_mem _ listed, is⟩
    · exact (Entries.mem_of_mem_set before).imp_left fun is =>
        ⟨key, inner, List.mem_cons_self, is⟩

namespace Heap

def Nests (heap : Heap) (t u : TableId) : Prop := ∃ key, (key, u) ∈ heap.nested t

theorem mem_entries_of_nested {heap : Heap} {t u : TableId} {key : Value}
    (member : (key, u) ∈ heap.nested t) : (key, .table u) ∈ (heap.entries t).entries := by
  obtain ⟨⟨_, value⟩, present, is⟩ := List.mem_filterMap.mp member
  cases value with
  | table inner =>
    obtain ⟨rfl, rfl⟩ := Prod.mk.inj (Option.some.inj is)
    exact present
  | _ => cases is

theorem Closed.lt_of_nested {heap : Heap} (closed : heap.Closed) {t u : TableId} {key : Value}
    (member : (key, u) ∈ heap.nested t) : u < heap.tables.size := by
  have present := mem_entries_of_nested member
  unfold Heap.entries at present
  split at present
  · rename_i plain
    exact closed.values plain present
  · cases present

theorem nested_congr {heap other : Heap} {t : TableId} (same : other.table? t = heap.table? t) :
    other.nested t = heap.nested t := by
  simp only [nested, entries_congr same]

namespace Freezing

variable {heap : Heap} {state next last : Freezing} {t u : TableId}

/-- A freeze under way: the views are the tables that are new, and a table that is not visited yet is
what it was. -/
structure Sound (heap : Heap) (state : Freezing) : Prop where
  rest : state.heap = { heap with tables := state.heap.tables }
  grown : heap.tables.size ≤ state.heap.tables.size
  shown : ∀ {u view : TableId}, state.views.get? u = some view →
    u < heap.tables.size ∧ heap.tables.size ≤ view ∧ state.heap.table? view = some (.frozen u)
  fresh : ∀ {view : TableId}, heap.tables.size ≤ view → view < state.heap.tables.size →
    ∃ u, state.views.get? u = some view
  untouched : ∀ {u : TableId}, u < heap.tables.size → state.views.get? u = none →
    state.heap.table? u = heap.table? u

structure Replaced (heap : Heap) (state : Freezing) (u : TableId)
    (nested : List (Value × TableId)) : Prop where
  seen : ∀ {key : Value} {inner : TableId}, (key, inner) ∈ nested →
    (state.views.get? inner).isSome
  object : state.heap.table? u = (heap.table? u).map (·.withViews state.views nested)

structure Extends (state next : Freezing) : Prop where
  views : ∀ {u view : TableId}, state.views.get? u = some view → next.views.get? u = some view
  kept : ∀ {u : TableId}, (state.views.get? u).isSome → next.heap.table? u = state.heap.table? u

/-- Whether every table that is newly visited is finished, and one that a table leads to. -/
def Finishes (heap : Heap) (t : TableId) (state next : Freezing) : Prop :=
  ∀ u, state.views.get? u = none → (next.views.get? u).isSome →
    Replaced heap next u (heap.nested u) ∧ ReflTransGen heap.Nests t u

def unseen (heap : Heap) (state : Freezing) : Finset TableId :=
  (Finset.range heap.tables.size).filter fun u => state.views.get? u = none

theorem isSome_of_views
    (views : ∀ {u view : TableId}, state.views.get? u = some view → next.views.get? u = some view)
    (seen : (state.views.get? u).isSome) : (next.views.get? u).isSome := by
  obtain ⟨view, found⟩ := Option.isSome_iff_exists.mp seen
  exact Option.isSome_iff_exists.mpr ⟨view, views found⟩

theorem unseen_subset
    (views : ∀ {u view : TableId}, state.views.get? u = some view → next.views.get? u = some view) :
    unseen heap next ⊆ unseen heap state := by
  intro u member
  obtain ⟨allocated, unvisited⟩ := Finset.mem_filter.mp member
  refine Finset.mem_filter.mpr ⟨allocated, ?_⟩
  cases found : state.views.get? u with
  | none => rfl
  | some view => rw [views found] at unvisited; cases unvisited

theorem withViews_congr {object : TableObject} {nested : List (Value × TableId)}
    {views views' : SortedMap TableId TableId}
    (same : ∀ {key : Value} {inner : TableId}, (key, inner) ∈ nested →
      views'.get? inner = views.get? inner) :
    object.withViews views' nested = object.withViews views nested := by
  unfold TableObject.withViews
  refine List.foldl_ext _ _ _ fun object entry member => ?_
  obtain ⟨key, inner⟩ := entry
  simp only [same member]

theorem Replaced.mono {nested : List (Value × TableId)} (replaced : Replaced heap state u nested)
    (views : ∀ {u view : TableId}, state.views.get? u = some view → next.views.get? u = some view)
    (same : next.heap.table? u = state.heap.table? u) : Replaced heap next u nested where
  seen member := isSome_of_views views (replaced.seen member)
  object := by
    have agree (object : TableObject) :
        object.withViews next.views nested = object.withViews state.views nested :=
      withViews_congr fun member => by
        obtain ⟨view, found⟩ := Option.isSome_iff_exists.mp (replaced.seen member)
        rw [found, views found]
    simp only [same, replaced.object, agree]

theorem Extends.refl (state : Freezing) : Extends state state := ⟨id, fun _ => rfl⟩

theorem Finishes.refl (heap : Heap) (t : TableId) (state : Freezing) :
    Finishes heap t state state := by
  intro u unvisited visited
  rw [unvisited] at visited
  cases visited

def enter (state : Freezing) (t : TableId) : Freezing :=
  ⟨(state.heap.newTable (.frozen t)).2, state.views.insert t state.heap.tables.size⟩

def replace (state : Freezing) (t : TableId) (key : Value) (view : TableId) : Freezing :=
  { state with heap := state.heap.rawSet t key (.table view) }

def visitEach (fuel : Nat) (t : TableId) (nested : List (Value × TableId)) (state : Freezing) :
    Freezing :=
  nested.foldl (fun state (key, inner) =>
    let (frozen, state) := freezeWith fuel inner state
    { state with heap := state.heap.rawSet t key (.table frozen) }) state

theorem visitEach_cons (fuel : Nat) (t : TableId) (key : Value) (inner : TableId)
    (nested : List (Value × TableId)) (state : Freezing) :
    visitEach fuel t ((key, inner) :: nested) state =
      visitEach fuel t nested
        ((freezeWith fuel inner state).2.replace t key (freezeWith fuel inner state).1) := rfl

theorem get?_enter (state : Freezing) (t u : TableId) :
    (state.enter t).views.get? u = if u = t then some state.heap.tables.size
      else state.views.get? u :=
  SortedMap.get?_insert ..

theorem table?_enter (state : Freezing) (t u : TableId) :
    (state.enter t).heap.table? u = if u = state.heap.tables.size then some (.frozen t)
      else state.heap.table? u :=
  table?_newTable ..

theorem size_enter (state : Freezing) (t : TableId) :
    (state.enter t).heap.tables.size = state.heap.tables.size + 1 :=
  Array.size_push ..

theorem Sound.enter (sound : Sound heap state) (allocated : t < heap.tables.size)
    (unvisited : state.views.get? t = none) : Sound heap (state.enter t) where
  rest := by
    rw [Freezing.enter, newTable, sound.rest]
  grown := by
    rw [size_enter]
    exact Nat.le_succ_of_le sound.grown
  shown {u view} found := by
    rw [get?_enter] at found
    rw [table?_enter]
    split at found
    · rename_i same
      cases found
      exact ⟨same ▸ allocated, sound.grown, by rw [if_pos rfl, same]⟩
    · obtain ⟨old, new, shows⟩ := sound.shown found
      rw [if_neg (Nat.ne_of_lt (lt_size_of_table? shows))]
      exact ⟨old, new, shows⟩
  fresh {view} new young := by
    rw [size_enter] at young
    rcases Nat.lt_succ_iff_lt_or_eq.mp young with before | last
    · obtain ⟨u, found⟩ := sound.fresh new before
      refine ⟨u, ?_⟩
      rw [get?_enter, if_neg, found]
      rintro rfl
      rw [unvisited] at found
      cases found
    · exact ⟨t, by rw [get?_enter, if_pos rfl, last]⟩
  untouched {u} old absent := by
    rw [get?_enter] at absent
    split at absent
    · cases absent
    · rw [table?_enter, if_neg (Nat.ne_of_lt (Nat.lt_of_lt_of_le old sound.grown))]
      exact sound.untouched old absent

theorem Sound.replace (sound : Sound heap state) (visited : (state.views.get? t).isSome)
    (key : Value) (view : TableId) : Sound heap (state.replace t key view) where
  rest := by
    rw [Freezing.replace, rawSet, sound.rest]
  grown := by
    simpa [Freezing.replace] using sound.grown
  shown {u other} found := by
    obtain ⟨old, new, shows⟩ := sound.shown found
    obtain ⟨mine, found'⟩ := Option.isSome_iff_exists.mp visited
    have apart : t ≠ other := Nat.ne_of_lt (Nat.lt_of_lt_of_le (sound.shown found').1 new)
    refine ⟨old, new, ?_⟩
    rw [Freezing.replace, table?_rawSet, if_neg apart]
    exact shows
  fresh new young := sound.fresh new (by simpa [Freezing.replace] using young)
  untouched {u} old absent := by
    have apart : t ≠ u := by
      rintro rfl
      rw [show state.views.get? t = none from absent] at visited
      cases visited
    rw [Freezing.replace, table?_rawSet, if_neg apart]
    exact sound.untouched old absent

/-! ### A whole visit -/

structure Visit (heap : Heap) (t : TableId) (state : Freezing) (result : TableId × Freezing) :
    Prop where
  sound : Sound heap result.2
  grows : Extends state result.2
  view : result.2.views.get? t = some result.1
  finishes : Finishes heap t state result.2

structure Progress (heap : Heap) (t : TableId) (start state : Freezing)
    (done : List (Value × TableId)) : Prop where
  sound : Sound heap state
  views : ∀ {u view : TableId}, start.views.get? u = some view → state.views.get? u = some view
  kept : ∀ {u : TableId}, (start.views.get? u).isSome → t ≠ u →
    state.heap.table? u = start.heap.table? u
  replaced : Replaced heap state t done
  finishes : Finishes heap t start state

theorem withViews_append (object : TableObject) (views : SortedMap TableId TableId)
    (done : List (Value × TableId)) (key : Value) (inner : TableId) :
    object.withViews views (done ++ [(key, inner)]) =
      (object.withViews views done).put key (.table ((views.get? inner).getD inner)) := by
  simp [TableObject.withViews]

theorem Progress.step {start : Freezing} {done : List (Value × TableId)} {key : Value}
    {inner view : TableId} (progress : Progress heap t start state done)
    (visited : (start.views.get? t).isSome) (member : (key, inner) ∈ heap.nested t)
    (visit : Visit heap inner state (view, next)) :
    Progress heap t start (next.replace t key view) (done ++ [(key, inner)]) := by
  have visited' := isSome_of_views progress.views visited
  have found : next.views.get? inner = some view := visit.view
  have before := progress.replaced.mono visit.grows.views (visit.grows.kept visited')
  have apart {u : TableId} (other : t ≠ u) :
      (next.replace t key view).heap.table? u = next.heap.table? u := by
    rw [replace, table?_rawSet, if_neg other]
  refine ⟨visit.sound.replace (isSome_of_views visit.grows.views visited') key view,
    fun found => visit.grows.views (progress.views found), fun {u} seen other => ?_, ⟨?_, ?_⟩,
    fun u unseen seen => ?_⟩
  · rw [apart other, visit.grows.kept (isSome_of_views progress.views seen),
      progress.kept seen other]
  · intro other target listed
    rcases List.mem_append.mp listed with earlier | this
    · exact before.seen earlier
    · obtain ⟨rfl, rfl⟩ := Prod.mk.inj (List.mem_singleton.mp this)
      exact Option.isSome_iff_exists.mpr ⟨view, found⟩
  · rw [replace, table?_rawSet, if_pos rfl, before.object]
    simp only [withViews_append, found, Option.getD_some, Option.map_map, Function.comp_def]
  · have other : t ≠ u := by
      rintro rfl
      rw [unseen] at visited
      cases visited
    cases already : state.views.get? u with
    | some _ =>
      have seen' : (state.views.get? u).isSome := by rw [already]; rfl
      obtain ⟨replaced, led⟩ := progress.finishes u unseen seen'
      exact ⟨replaced.mono visit.grows.views ((apart other).trans (visit.grows.kept seen')), led⟩
    | none =>
      obtain ⟨replaced, led⟩ := visit.finishes u already seen
      exact ⟨replaced.mono id (apart other), .head ⟨key, member⟩ led⟩

/-- The turns of the loop over the nested tables, if what each turn visits is visited in full. -/
theorem Progress.visitEach {fuel : Nat} {start : Freezing} {done rest : List (Value × TableId)}
    (visits : ∀ {inner : TableId} {state : Freezing}, Sound heap state →
      inner < heap.tables.size → (unseen heap state).card < fuel →
      Visit heap inner state (freezeWith fuel inner state))
    (closed : heap.Closed) (visited : (start.views.get? t).isSome)
    (split : heap.nested t = done ++ rest) (progress : Progress heap t start state done)
    (enough : (unseen heap state).card < fuel) :
    Progress heap t start (visitEach fuel t rest state) (heap.nested t) := by
  induction rest generalizing state done with
  | nil =>
    rw [List.append_nil] at split
    rwa [split]
  | cons entry rest ih =>
    obtain ⟨key, inner⟩ := entry
    have member : (key, inner) ∈ heap.nested t := by
      rw [split]
      exact List.mem_append_right _ List.mem_cons_self
    have visit := visits progress.sound (closed.lt_of_nested member) enough
    rw [visitEach_cons]
    have split' : heap.nested t = (done ++ [(key, inner)]) ++ rest := by
      rw [split, List.append_assoc, List.singleton_append]
    refine ih split' (progress.step visited member visit) ?_
    exact Nat.lt_of_le_of_lt (Finset.card_le_card (unseen_subset visit.grows.views)) enough

theorem card_unseen_enter (allocated : t < heap.tables.size)
    (unvisited : state.views.get? t = none) :
    (unseen heap (state.enter t)).card < (unseen heap state).card := by
  refine Finset.card_lt_card (Finset.ssubset_iff_of_subset ?_ |>.mpr ⟨t, ?_, ?_⟩)
  · refine unseen_subset fun {u view} found => ?_
    rw [get?_enter, if_neg, found]
    rintro rfl
    rw [unvisited] at found
    cases found
  · exact Finset.mem_filter.mpr ⟨Finset.mem_range.mpr allocated, unvisited⟩
  · intro member
    have absent := (Finset.mem_filter.mp member).2
    rw [get?_enter, if_pos rfl] at absent
    cases absent

theorem freezeWith_of_seen {view : TableId} (fuel : Nat)
    (seen : state.views.get? t = some view) : freezeWith (fuel + 1) t state = (view, state) := by
  simp only [freezeWith, seen]

theorem freezeWith_of_unseen (fuel : Nat) (unseen : state.views.get? t = none) :
    freezeWith (fuel + 1) t state =
      (state.heap.tables.size,
        visitEach fuel t ((state.enter t).heap.nested t) (state.enter t)) := by
  rw [freezeWith, unseen]
  rfl

/-- A visit with fuel for all the tables that are not visited yet. -/
theorem freezeWith_visit (closed : heap.Closed) (fuel : Nat) {t : TableId} {state : Freezing}
    (sound : Sound heap state) (allocated : t < heap.tables.size)
    (enough : (unseen heap state).card < fuel) :
    Visit heap t state (freezeWith fuel t state) := by
  induction fuel generalizing t state with
  | zero => cases enough
  | succ fuel ih =>
    cases seen : state.views.get? t with
    | some view =>
      rw [freezeWith_of_seen fuel seen]
      exact ⟨sound, .refl state, seen, .refl heap t state⟩
    | none =>
      have entered := sound.enter allocated seen
      have new : (state.enter t).views.get? t = some state.heap.tables.size := by
        rw [get?_enter, if_pos rfl]
      have same : (state.enter t).heap.table? t = heap.table? t := by
        rw [table?_enter, if_neg (Nat.ne_of_lt (Nat.lt_of_lt_of_le allocated sound.grown))]
        exact sound.untouched allocated seen
      have begun : Progress heap t (state.enter t) (state.enter t) [] := by
        refine ⟨entered, id, fun _ _ => rfl, ⟨?_, ?_⟩, .refl heap t _⟩
        · intro key inner member
          cases member
        · simp [same, TableObject.withViews]
      have fewer := card_unseen_enter allocated seen
      have progress := begun.visitEach ih closed (Option.isSome_of_eq_some new) rfl (by omega)
      rw [freezeWith_of_unseen fuel seen, nested_congr same]
      have views {u view : TableId} (found : state.views.get? u = some view) :
          t ≠ u ∧ (state.enter t).views.get? u = some view := by
        have other : u ≠ t := by
          rintro rfl
          rw [seen] at found
          cases found
        exact ⟨other.symm, by rw [get?_enter, if_neg other, found]⟩
      refine ⟨progress.sound, ⟨fun found => progress.views (views found).2, fun {u} old => ?_⟩,
        progress.views new, fun u unvisited visited => ?_⟩
      · -- What was visited before is not the table that is visited now.
        obtain ⟨view, found⟩ := Option.isSome_iff_exists.mp old
        obtain ⟨other, found'⟩ := views found
        have young := Nat.lt_of_lt_of_le (sound.shown found).1 sound.grown
        refine (progress.kept (Option.isSome_of_eq_some found') other).trans ?_
        rw [table?_enter, if_neg (Nat.ne_of_lt young)]
      · by_cases this : u = t
        · subst this
          exact ⟨progress.replaced, .refl⟩
        · refine progress.finishes u ?_ visited
          rw [get?_enter, if_neg this, unvisited]

theorem sound_start (heap : Heap) : Sound heap ⟨heap, {}⟩ where
  rest := rfl
  grown := Nat.le_refl _
  shown found := by cases found
  fresh new young := absurd young (Nat.not_lt_of_le new)
  untouched _ _ := rfl

theorem card_unseen_le (heap : Heap) (state : Freezing) :
    (unseen heap state).card ≤ heap.tables.size := by
  refine (Finset.card_filter_le _ _).trans ?_
  rw [Finset.card_range]

end Freezing

/-! ### The outcome -/

/-- What a freeze of a table comes to: the tables that it leads to, and no others, have got a view
each, which is new; views have taken the place of all tables among their values. -/
structure Frozen (heap : Heap) (t view : TableId) (after : Heap)
    (views : SortedMap TableId TableId) : Prop where
  rest : after = { heap with tables := after.tables }
  grown : heap.tables.size ≤ after.tables.size
  root : views.get? t = some view
  reached : ∀ u, (views.get? u).isSome ↔ ReflTransGen heap.Nests t u
  shown : ∀ {u view : TableId}, views.get? u = some view →
    u < heap.tables.size ∧ heap.tables.size ≤ view ∧ after.table? view = some (.frozen u)
  fresh : ∀ {view : TableId}, heap.tables.size ≤ view → view < after.tables.size →
    ∃ u, views.get? u = some view
  replaced : ∀ {u : TableId}, (views.get? u).isSome →
    after.table? u = (heap.table? u).map (·.withViews views (heap.nested u))
  untouched : ∀ {u : TableId}, u < heap.tables.size → views.get? u = none →
    after.table? u = heap.table? u

variable {heap : Heap}

/-- The views are those of the last state of the visits. -/
theorem frozen_freezeWith (closed : heap.Closed) {t : TableId} (allocated : t < heap.tables.size) :
    heap.Frozen t (heap.freeze t).1 (heap.freeze t).2
      (freezeWith (heap.tables.size + 1) t ⟨heap, {}⟩).2.views := by
  have enough := Nat.lt_succ_of_le (Freezing.card_unseen_le heap ⟨heap, {}⟩)
  have visit := Freezing.freezeWith_visit closed _ (Freezing.sound_start heap) allocated enough
  refine ⟨visit.sound.rest, visit.sound.grown, visit.view, fun u => ⟨fun seen => ?_, ?_⟩,
    visit.sound.shown, visit.sound.fresh, fun {u} seen => ?_, visit.sound.untouched⟩
  · exact (visit.finishes u rfl seen).2
  · intro led
    induction led with
    | refl => exact Option.isSome_of_eq_some visit.view
    | tail _ nests ih =>
      obtain ⟨key, member⟩ := nests
      exact (visit.finishes _ rfl ih).1.seen member
  · exact (visit.finishes u rfl seen).1.object

theorem freeze_spec (closed : heap.Closed) {t : TableId} (allocated : t < heap.tables.size) :
    ∃ views, heap.Frozen t (heap.freeze t).1 (heap.freeze t).2 views :=
  ⟨_, frozen_freezeWith closed allocated⟩

theorem mem_nested {t inner : TableId} {entries : Entries} {key : Value}
    (plain : heap.table? t = some (.plain entries))
    (member : (key, .table inner) ∈ entries.entries) : (key, inner) ∈ heap.nested t := by
  rw [nested, entries_of_table? plain]
  exact List.mem_filterMap.mpr ⟨_, member, rfl⟩

namespace Frozen

variable {after : Heap} {views : SortedMap TableId TableId} {t u view : TableId}

theorem stores (frozen : heap.Frozen t view after views) : after.stores = heap.stores := by
  rw [frozen.rest]

theorem table?_plain (frozen : heap.Frozen t view after views) {entries : Entries}
    (plain : heap.table? u = some (.plain entries)) :
    after.table? u = some (.plain (if (views.get? u).isSome then
      entries.withViews views (heap.nested u) else entries)) := by
  cases seen : views.get? u with
  | none => simpa [plain] using frozen.untouched (lt_size_of_table? plain) seen
  | some shown =>
    rw [frozen.replaced (Option.isSome_of_eq_some seen), plain]
    simp [TableObject.withViews_plain]

theorem table?_frozen (frozen : heap.Frozen t view after views) {source : TableId}
    (shows : heap.table? u = some (.frozen source)) : after.table? u = some (.frozen source) := by
  cases seen : views.get? u with
  | none => rw [frozen.untouched (lt_size_of_table? shows) seen, shows]
  | some shown =>
    rw [frozen.replaced (Option.isSome_of_eq_some seen), shows]
    simp [TableObject.withViews_frozen]

theorem table?_environment (frozen : heap.Frozen t view after views) {store : StoreId}
    (names : heap.table? u = some (.environment store)) :
    after.table? u = some (.environment store) := by
  cases seen : views.get? u with
  | none => rw [frozen.untouched (lt_size_of_table? names) seen, names]
  | some shown =>
    rw [frozen.replaced (Option.isSome_of_eq_some seen), names]
    simp [TableObject.withViews_environment]

theorem table?_new (frozen : heap.Frozen t view after views) (new : heap.tables.size ≤ u)
    (young : u < after.tables.size) :
    ∃ source, source < heap.tables.size ∧ views.get? source = some u ∧
      after.table? u = some (.frozen source) := by
  obtain ⟨source, found⟩ := frozen.fresh new young
  obtain ⟨old, -, shows⟩ := frozen.shown found
  exact ⟨source, old, found, shows⟩

/-- A table that is there afterwards is a new view, or was there before. -/
theorem eq_of_table? (frozen : heap.Frozen t view after views) {object : TableObject}
    (found : after.table? u = some object) :
    (∃ source, object = .frozen source ∧ source < heap.tables.size ∧ heap.tables.size ≤ u ∧
      views.get? source = some u) ∨ ∃ before, heap.table? u = some before := by
  rcases Nat.lt_or_ge u heap.tables.size with old | new
  · exact .inr (exists_table? old)
  · obtain ⟨source, old, viewed, shows⟩ := frozen.table?_new new (lt_size_of_table? found)
    rw [shows] at found
    exact .inl ⟨source, (Option.some.inj found).symm, old, new, viewed⟩

theorem exists_of_plain (frozen : heap.Frozen t view after views) {entries : Entries}
    (plain : after.table? u = some (.plain entries)) :
    ∃ before, heap.table? u = some (.plain before) ∧
      entries = if (views.get? u).isSome then before.withViews views (heap.nested u)
        else before := by
  rcases frozen.eq_of_table? plain with ⟨_, is, -⟩ | ⟨object, was⟩
  · cases is
  · cases object with
    | plain before =>
      rw [frozen.table?_plain was] at plain
      cases plain
      exact ⟨before, was, rfl⟩
    | frozen => rw [frozen.table?_frozen was] at plain; cases plain
    | environment => rw [frozen.table?_environment was] at plain; cases plain

theorem eq_of_frozen (frozen : heap.Frozen t view after views) {source : TableId}
    (shows : after.table? u = some (.frozen source)) :
    heap.table? u = some (.frozen source) ∨
      source < heap.tables.size ∧ heap.tables.size ≤ u ∧ views.get? source = some u := by
  rcases frozen.eq_of_table? shows with ⟨_, is, new⟩ | ⟨object, was⟩
  · cases is
    exact .inr new
  · cases object with
    | plain => rw [frozen.table?_plain was] at shows; cases shows
    | frozen =>
      rw [frozen.table?_frozen was] at shows
      cases shows
      exact .inl was
    | environment => rw [frozen.table?_environment was] at shows; cases shows

theorem eq_of_environment (frozen : heap.Frozen t view after views) {store : StoreId}
    (names : after.table? u = some (.environment store)) :
    heap.table? u = some (.environment store) := by
  rcases frozen.eq_of_table? names with ⟨_, is, -⟩ | ⟨object, was⟩
  · cases is
  · cases object with
    | plain => rw [frozen.table?_plain was] at names; cases names
    | frozen => rw [frozen.table?_frozen was] at names; cases names
    | environment =>
      rw [frozen.table?_environment was] at names
      cases names
      exact was

theorem exists_view (frozen : heap.Frozen t view after views) (seen : (views.get? u).isSome)
    {key : Value} {inner : TableId} (member : (key, inner) ∈ heap.nested u) :
    ∃ shown, views.get? inner = some shown ∧ heap.tables.size ≤ shown ∧
      shown < after.tables.size := by
  have led := (frozen.reached inner).mpr (((frozen.reached u).mp seen).tail ⟨key, member⟩)
  obtain ⟨shown, found⟩ := Option.isSome_iff_exists.mp led
  obtain ⟨-, new, shows⟩ := frozen.shown found
  exact ⟨shown, found, new, lt_size_of_table? shows⟩

theorem closed (frozen : heap.Frozen t view after views) (before : heap.Closed) :
    after.Closed where
  values {t' u entries key} plain member := by
    obtain ⟨entries, was, rfl⟩ := frozen.exists_of_plain plain
    split at member
    · rename_i seen
      rcases Entries.mem_of_mem_withViews member with ⟨_, inner, listed, is⟩ | member
      · obtain ⟨shown, viewed, -, young⟩ := frozen.exists_view seen listed
        rw [viewed] at is
        cases is
        exact young
      · exact Nat.lt_of_lt_of_le (before.values was member) frozen.grown
    · exact Nat.lt_of_lt_of_le (before.values was member) frozen.grown
  keys {t' k entries value} plain member := by
    obtain ⟨entries, was, rfl⟩ := frozen.exists_of_plain plain
    refine Nat.lt_of_lt_of_le ?_ frozen.grown
    split at member
    · rcases Entries.mem_of_mem_withViews member with ⟨_, inner, listed, is⟩ | member
      · have present := mem_entries_of_nested listed
        rw [entries_of_table? was] at present
        cases is
        exact before.keys was present
      · exact before.keys was member
    · exact before.keys was member
  views {u source} shows := by
    rcases frozen.eq_of_frozen shows with was | ⟨old, new, -⟩
    · exact before.views was
    · exact Nat.lt_of_lt_of_le old new
  environments {u store} names := by
    rw [frozen.stores]
    exact before.environments (frozen.eq_of_environment names)
  bindings {id store name u} found bound := by
    rw [frozen.stores] at found
    exact Nat.lt_of_lt_of_le (before.bindings found bound) frozen.grown

/-- A table that a script reads from one of the old tables is a new view, or was there before. -/
theorem get_old (frozen : heap.Frozen t view after views) (before : heap.Closed)
    (old : u < heap.tables.size) {key : Value} {w : TableId} (read : after.get u key = .table w) :
    heap.tables.size ≤ w ∨ heap.get u key = .table w := by
  induction u using Nat.strongRecOn with
  | ind u ih =>
    obtain ⟨object, found⟩ := exists_table? old
    cases object with
    | plain entries =>
      rw [get_plain (frozen.table?_plain found)] at read
      rw [get_plain found]
      split at read
      · rename_i seen
        rcases entries.at_withViews views (heap.nested u) key.key with
          ⟨inner, member, shown⟩ | ⟨-, same⟩
        · obtain ⟨other, viewed, new, -⟩ := frozen.exists_view seen member
          rw [shown, viewed] at read
          cases read
          exact .inl new
        · exact .inr (same.symm.trans read)
      · exact .inr read
    | frozen source =>
      rw [get_frozen (frozen.closed before) (frozen.table?_frozen found)] at read
      rw [get_frozen before found]
      have older := before.views found
      exact ih source older (Nat.lt_trans older old) read
    | environment store =>
      rw [get_environment (frozen.table?_environment found)] at read
      rw [get_environment found]
      exact .inr (by simpa only [bound, frozen.stores] using read)

/-- What a script reads from a plain table that is reached is no table but a new view. -/
theorem get_plain_seen (frozen : heap.Frozen t view after views) {entries : Entries}
    (plain : heap.table? u = some (.plain entries)) (seen : (views.get? u).isSome) {key : Value}
    {w : TableId} (read : after.get u key = .table w) : heap.tables.size ≤ w := by
  rw [get_plain (frozen.table?_plain plain), if_pos seen] at read
  rcases entries.at_withViews views (heap.nested u) key.key with
    ⟨inner, member, shown⟩ | ⟨absent, same⟩
  · obtain ⟨other, viewed, new, -⟩ := frozen.exists_view seen member
    rw [shown, viewed] at read
    cases read
    exact new
  · rw [same] at read
    exact absurd (mem_nested plain (Entries.mem_of_at (by simp) read)) (absent w)

end Frozen

end Heap

end EntityScripting.Script
