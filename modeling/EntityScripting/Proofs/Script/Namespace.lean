import EntityScripting.Proofs.Script.Freeze

/-!
# Global names

A write to the environment of a level binds a name or does nothing (`set_environment`). No access
to the heap binds a name in another way, takes a name away or binds it to something else
(`Secures.access`), and a sealed store stays as it is.
-/

namespace EntityScripting.Script.Heap

open Text

variable {heap later last : Heap} {t u : TableId} {store : StoreId} {key value : Value}

/-- Whether bound names keep their values, sealed stores their bindings and environments their
stores. -/
structure Secures (heap later : Heap) : Prop where
  names : ∀ {store : StoreId} {key : Value}, heap.bound store key ≠ .nil →
    later.bound store key = heap.bound store key
  stores : ∀ {store : StoreId} {s : GlobalStore}, heap.stores[store]? = some s → s.isSealed = true →
    later.stores[store]? = some s
  environments : ∀ {t : TableId} {store : StoreId}, heap.table? t = some (.environment store) →
    later.table? t = some (.environment store)

theorem Secures.refl (heap : Heap) : heap.Secures heap := ⟨fun _ => rfl, fun h _ => h, fun h => h⟩

theorem Secures.trans (first : heap.Secures later) (second : later.Secures last) :
    heap.Secures last where
  names bound := by
    have same := first.names bound
    rw [second.names (same ▸ bound), same]
  stores found shut := second.stores (first.stores found shut) shut
  environments names := second.environments (first.environments names)

structure Spares (heap later : Heap) : Prop where
  stores : later.stores = heap.stores
  tables : ∀ {t : TableId} {object : TableObject}, (∀ entries, object ≠ .plain entries) →
    heap.table? t = some object → later.table? t = some object

theorem Spares.refl (heap : Heap) : heap.Spares heap := ⟨rfl, fun _ found => found⟩

theorem Spares.trans (first : heap.Spares later) (second : later.Spares last) : heap.Spares last where
  stores := second.stores.trans first.stores
  tables apart found := second.tables apart (first.tables apart found)

theorem Spares.bound_eq (spares : heap.Spares later) (store : StoreId) (key : Value) :
    later.bound store key = heap.bound store key := by
  simp only [bound, spares.stores]

theorem Spares.secures (spares : heap.Spares later) : heap.Secures later where
  names _ := spares.bound_eq _ _
  stores found _ := by rwa [spares.stores]
  environments names := spares.tables (fun _ is => by cases is) names

theorem spares_newTable (heap : Heap) (object : TableObject) :
    heap.Spares (heap.newTable object).2 where
  stores := rfl
  tables {t _} _ found := by
    have old : t ≠ heap.tables.size := Nat.ne_of_lt (lt_size_of_table? found)
    rw [table?_newTable, if_neg old]
    exact found

theorem spares_rawSet (heap : Heap) (t : TableId) (key value : Value) :
    heap.Spares (heap.rawSet t key value) where
  stores := rfl
  tables {u object} apart found := by
    rw [table?_rawSet]
    split
    · rw [found]
      cases object with
      | plain entries => exact absurd rfl (apart entries)
      | frozen | environment => rfl
    · exact found

theorem spares_visits {fuel : Nat}
    (visit : ∀ t state, Spares (Freezing.heap state) (freezeWith fuel t state).2.heap)
    (t : TableId) (nested : List (Value × TableId)) (state : Freezing) :
    state.heap.Spares (Freezing.visitEach fuel t nested state).heap := by
  induction nested generalizing state with
  | nil => exact .refl _
  | cons entry rest ih =>
    obtain ⟨key, inner⟩ := entry
    have replaced : state.heap.Spares
        ((freezeWith fuel inner state).2.replace t key (freezeWith fuel inner state).1).heap :=
      (visit inner state).trans (spares_rawSet _ t key _)
    rw [Freezing.visitEach_cons]
    exact replaced.trans (ih _)

theorem spares_freezeWith (fuel : Nat) (t : TableId) (state : Freezing) :
    state.heap.Spares (freezeWith fuel t state).2.heap := by
  induction fuel generalizing t state with
  | zero => exact .refl _
  | succ fuel ih =>
    cases seen : state.views.get? t with
    | some view =>
      rw [Freezing.freezeWith_of_seen fuel seen]
      exact .refl _
    | none =>
      rw [Freezing.freezeWith_of_unseen fuel seen]
      exact (spares_newTable state.heap (.frozen t)).trans (spares_visits ih t _ (state.enter t))

theorem freeze_view (heap : Heap) (t : TableId) :
    heap.Spares (heap.freeze t).2 ∧
      (heap.freeze t).2.table? (heap.freeze t).1 = some (.frozen t) := by
  have unseen : (⟨heap, {}⟩ : Freezing).views.get? t = none := rfl
  have visits := spares_visits (spares_freezeWith heap.tables.size) t
    (((⟨heap, {}⟩ : Freezing).enter t).heap.nested t) ((⟨heap, {}⟩ : Freezing).enter t)
  have made : (heap.newTable (.frozen t)).2.table? heap.tables.size = some (.frozen t) := by
    rw [table?_newTable, if_pos rfl]
  simp only [freeze, Freezing.freezeWith_of_unseen _ unseen]
  exact ⟨(spares_newTable heap (.frozen t)).trans visits,
    visits.tables (fun _ is => by cases is) made⟩

/-! ### Definitions -/

def Definable (heap : Heap) (store : StoreId) (key value : Value) : Prop :=
  (∃ name, key = .text name ∧ name ≠ apiName) ∧ heap.bound store key = .nil ∧
    ((∃ callee, value = .function callee) ∨ ∃ t, value = .table t)

/-- Whether a key has been given a value, a table as a view of it, and nothing else has changed of
what names stand for. -/
structure Defines (heap later : Heap) (store : StoreId) (key value : Value) : Prop where
  binds : (∃ callee, value = .function callee ∧ later.bound store key = value) ∨
    ∃ t view, value = .table t ∧ later.bound store key = .table view ∧
      later.table? view = some (.frozen t)
  others : ∀ other name, other ≠ store ∨ name ≠ key → later.bound other name = heap.bound other name

theorem definitionError?_eq_none_iff :
    heap.definitionError? store key value = none ↔ heap.Definable store key value := by
  unfold definitionError? Definable
  constructor
  · intro free
    split at free
    · rename_i name
      split at free
      · cases free
      rename_i open_
      split at free
      · cases free
      rename_i unbound
      split at free
      · exact ⟨⟨name, rfl, open_⟩, not_not.mp unbound, .inl ⟨_, rfl⟩⟩
      · exact ⟨⟨name, rfl, open_⟩, not_not.mp unbound, .inr ⟨_, rfl⟩⟩
      · cases free
    · cases free
  · rintro ⟨⟨name, rfl, open_⟩, unbound, callee | table⟩
    · obtain ⟨callee, rfl⟩ := callee
      simp [open_, unbound]
    · obtain ⟨t, rfl⟩ := table
      simp [open_, unbound]

theorem bound_bind (heap : Heap) (store other : StoreId) (name : Bytes) (value key : Value) :
    (heap.bind store name value).bound other key =
      if other = store ∧ key = .text name ∧ store < heap.stores.size then value
      else heap.bound other key := by
  cases key with
  | text word =>
    by_cases same : other = store
    · subst same
      simp only [bound, bind, Array.getElem?_modify, if_true, true_and, Value.text.injEq]
      cases held : heap.stores[other]? with
      | none =>
        have missing : ¬ other < heap.stores.size := Nat.not_lt.mpr (Array.getElem?_eq_none_iff.mp held)
        simp [missing]
      | some s =>
        have there : other < heap.stores.size := (Array.getElem?_eq_some_iff.mp held).1
        simp only [Option.map_some, SortedMap.get?_insert, there, and_true]
        split <;> rfl
    · simp only [bound, bind, Array.getElem?_modify, if_neg (Ne.symm same), same, false_and,
        if_false]
  | _ => simp [bound]

theorem bound_bind_of_ne (heap : Heap) {other : StoreId} {name : Bytes} {word : Value}
    (apart : other ≠ store ∨ word ≠ .text name) (value : Value) :
    (heap.bind store name value).bound other word = heap.bound other word := by
  rw [bound_bind, if_neg]
  rintro ⟨same, same', -⟩
  rcases apart with apart | apart
  · exact apart same
  · exact apart same'

theorem defines_define (there : store < heap.stores.size) {name : Bytes}
    (definable : heap.Definable store (.text name) value) :
    heap.Defines (heap.define store name value) store (.text name) value := by
  obtain ⟨-, -, ⟨callee, rfl⟩ | ⟨t, rfl⟩⟩ := definable
  · refine ⟨.inl ⟨callee, rfl, ?_⟩, fun other word apart => bound_bind_of_ne heap apart _⟩
    exact (bound_bind ..).trans (if_pos ⟨rfl, rfl, there⟩)
  · obtain ⟨spares, shows⟩ := heap.freeze_view t
    have there' : store < (heap.freeze t).2.stores.size := by rwa [spares.stores]
    refine ⟨.inr ⟨t, (heap.freeze t).1, rfl, ?_, shows⟩, fun other word apart => ?_⟩
    · exact (bound_bind ..).trans (if_pos ⟨rfl, rfl, there'⟩)
    · exact (bound_bind_of_ne (heap.freeze t).2 apart (.table (heap.freeze t).1)).trans
        (spares.bound_eq other word)

/-- A write to the environment of a level that is loading is accepted if the name can be defined,
and then defines it; else the heap is left as it is. -/
theorem set_environment {s : GlobalStore} (names : heap.table? t = some (.environment store))
    (held : heap.stores[store]? = some s) (loading : s.isSealed = false) (key value : Value) :
    (heap.Definable store key value → ((Access.set t key value).run heap).1 = .ok () ∧
      heap.Defines ((Access.set t key value).run heap).2 store key value) ∧
    (¬ heap.Definable store key value → ∃ error,
      (Access.set t key value).run heap = (.error (.refused error), heap)) := by
  have unsealed : (heap.stores[store]?).any (·.isSealed) = false := by simp [held, loading]
  have verdict : heap.writeError? t key value =
      (heap.definitionError? store key value).map .refused := by
    simp [writeError?, names, unsealed]
  refine ⟨fun definable => ?_, fun refused => ?_⟩
  · have free := definitionError?_eq_none_iff.mpr definable
    obtain ⟨name, rfl, -⟩ := definable.1
    have accepted : heap.writeError? t (.text name) value = none := by rw [verdict, free]; rfl
    have written : heap.write t (.text name) value = heap.define store name value := by
      simp [write, names]
    simp only [Access.run, accepted, written]
    exact ⟨trivial, defines_define (Array.getElem?_eq_some_iff.mp held).1 definable⟩
  · cases found : heap.definitionError? store key value with
    | none => exact absurd (definitionError?_eq_none_iff.mp found) refused
    | some error =>
      refine ⟨error, ?_⟩
      simp only [Access.run, verdict, found, Option.map_some]

/-- A write to the environment of a level that has been loaded is refused. -/
theorem set_sealed {s : GlobalStore} (names : heap.table? t = some (.environment store))
    (held : heap.stores[store]? = some s) (loaded : s.isSealed = true) (key value : Value) :
    (Access.set t key value).run heap = (.error (.refused .readOnly), heap) := by
  have shut : (heap.stores[store]?).any (·.isSealed) = true := by simp [held, loaded]
  have verdict : heap.writeError? t key value = some (.refused .readOnly) := by
    simp [writeError?, names, shut]
  simp only [Access.run, verdict]

/-! ### All accesses -/

def globalWrite? {α : Type} (access : Access α) (heap : Heap) : Option (StoreId × Value × Value) :=
  match access with
  | .set t key value =>
    match heap.table? t with
    | some (.environment store) => some (store, key, value)
    | _ => none
  | _ => none

theorem spares_of_same (stores : later.stores = heap.stores) (tables : later.tables = heap.tables) :
    heap.Spares later :=
  ⟨stores, fun _ found => by simpa only [table?, tables] using found⟩

/-- All other accesses leave the names alone. -/
theorem spares_access {α : Type} {access : Access α} (other : globalWrite? access heap = none) :
    heap.Spares (access.run heap).2 := by
  cases access with
  | newTable entries => exact spares_newTable heap _
  | set t key value =>
    unfold Access.run
    dsimp only
    split
    · exact .refl heap
    · unfold write
      split
      · rename_i names _
        simp only [globalWrite?, names] at other
        cases other
      · exact spares_rawSet ..
  | advance id =>
    show heap.Spares (heap.advance id).2
    unfold Heap.advance
    split
    · exact .refl heap
    · exact spares_of_same rfl rfl
  | _ => exact spares_of_same rfl rfl

theorem secures_bind {name : Bytes} (unbound : heap.bound store (.text name) = .nil)
    (loading : (heap.stores[store]?).any (·.isSealed) = false) (value : Value) :
    heap.Secures (heap.bind store name value) where
  names {other key} bound := by
    refine bound_bind_of_ne heap ?_ value
    by_cases same : other = store
    · refine .inr fun here => bound ?_
      rw [same, here, unbound]
    · exact .inl same
  stores {other s} found shut := by
    have apart : store ≠ other := by
      rintro rfl
      simp [found, shut] at loading
    simp only [Heap.bind, Array.getElem?_modify, if_neg apart, found]
  environments names := names

/-- Whatever a script does to the heap, names keep their values and sealed stores their
bindings. -/
theorem secures_access {α : Type} (access : Access α) (heap : Heap) :
    heap.Secures (access.run heap).2 := by
  cases write : globalWrite? access heap with
  | none => exact (spares_access write).secures
  | some target =>
    unfold globalWrite? at write
    split at write
    · rename_i t key value
      split at write
      · rename_i store names
        cases write
        unfold Access.run
        dsimp only
        split
        · exact .refl heap
        -- Only a name that is not bound yet is accepted, and only while its store is open.
        rename_i accepted
        have loading : (heap.stores[store]?).any (·.isSealed) = false := by
          cases shut : (heap.stores[store]?).any (·.isSealed) with
          | false => rfl
          | true => simp [writeError?, names, shut] at accepted
        have free : heap.definitionError? store key value = none := by
          simpa [writeError?, names, loading] using accepted
        obtain ⟨⟨name, rfl, -⟩, unbound, kind⟩ := definitionError?_eq_none_iff.mp free
        have written : heap.write t (.text name) value = heap.define store name value := by
          simp [Heap.write, names]
        rw [written]
        obtain ⟨callee, rfl⟩ | ⟨u, rfl⟩ := kind
        · exact secures_bind unbound loading _
        · have spares := (heap.freeze_view u).1
          have unbound' : (heap.freeze u).2.bound store (.text name) = .nil :=
            (spares.bound_eq _ _).trans unbound
          have loading' : ((heap.freeze u).2.stores[store]?).any (·.isSealed) = false := by
            rw [spares.stores, loading]
          exact spares.secures.trans (secures_bind unbound' loading' _)
      · cases write
    · cases write

theorem secures_sealStore (heap : Heap) (store : StoreId) : heap.Secures (heap.sealStore store) where
  names {other key} _ := by
    simp only [bound, sealStore, Array.getElem?_modify]
    by_cases same : store = other
    · subst same
      cases heap.stores[store]? with
      | none => simp
      | some s => cases key <;> simp
    · simp [same]
  stores {other s} found shut := by
    simp only [sealStore, Array.getElem?_modify, found]
    split
    · cases s
      cases shut
      rfl
    · rfl
  environments names := names

end EntityScripting.Script.Heap
