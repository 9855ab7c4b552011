import EntityScripting.Proofs.Game.Trace
import EntityScripting.Proofs.Script.Namespace

/-!
# The global names of a level

While its script runs, a level is given names one at a time, each once; when it has been loaded its
names are what they are for good. `global_names` says so of every write and of every engine that a
loaded level leads to.
-/

namespace EntityScripting.Engine

open Script Text Heap

variable {limits : Limits}

theorem secures_prepare (heap : Heap) (api : TableId) (level : String) (code : FunctionBody) :
    heap.Secures (prepare heap api level code).2.2 where
  names {store key} bound := by
    have old : store ≠ heap.stores.size := by
      rintro rfl
      refine bound ?_
      simp [Heap.bound]
    simp only [Heap.bound, prepare, newStore, newTable, newCell, newClosure, Array.getElem?_push,
      if_neg old]
  stores {store s} found _ := by
    have old : store ≠ heap.stores.size := Nat.ne_of_lt (Array.getElem?_eq_some_iff.mp found).1
    simp only [prepare, newStore, newTable, newCell, newClosure, Array.getElem?_push, if_neg old,
      found]
  environments {t store} names := by
    have old : t ≠ heap.tables.size := Nat.ne_of_lt (lt_size_of_table? names)
    exact (table?_newTable (heap.newStore (initialGlobals api)).2 _ t).trans
      ((if_neg old).trans names)

theorem lasts_secures (heap : Heap) : HeapLasts heap.Secures where
  access access _ secures := secures.trans (secures_access access _)
  prepare api level code secures := secures.trans (secures_prepare _ api level code)
  sealStore store secures := secures.trans (secures_sealStore _ store)

/-- The names that a level begins with. -/
theorem bound_prepare (heap : Heap) (api : TableId) (level : String) (code : FunctionBody)
    {name : Bytes} {value : Value} (given : (initialGlobals api).bindings.get? name = some value) :
    (prepare heap api level code).2.2.bound (prepare heap api level code).1 (.text name) = value ∧
      value ≠ .nil := by
  constructor
  · simp only [bound, prepare, newStore, newTable, newCell, newClosure, Array.getElem?_push_size,
      given, Option.getD_some]
  · rcases List.mem_cons.mp (SortedMap.mem_of_get?_ofList given) with same | builtin
    · cases same
      simp
    · obtain ⟨f, -, same⟩ := List.mem_map.mp builtin
      cases same
      simp [Value.builtin]

/-- The environment of a level is there from the beginning. -/
theorem table?_prepare (heap : Heap) (api : TableId) (level : String) (code : FunctionBody) :
    (prepare heap api level code).2.2.table? heap.tables.size =
      some (.environment (prepare heap api level code).1) :=
  (table?_newTable (heap.newStore (initialGlobals api)).2 _ _).trans (if_pos rfl)

/-- A level that is loaded has had its script run to the end, and then its names sealed. -/
theorem loaded_of_loadSource {level source : String} {engine loaded : Engine}
    (done : loadSource limits level source engine = some (.ok (), loaded)) :
    ∃ code, Program.read? (utf8 source) = some code ∧
      loaded.state.level = some ⟨level, (prepare engine.heap engine.state.api level code).1⟩ ∧
      ∃ last, (prepare engine.heap engine.state.api level code).2.2.Secures last ∧
        loaded.heap = last.sealStore (prepare engine.heap engine.state.api level code).1 := by
  simp only [loadSource] at done
  split at done
  · cases done
  rename_i code read
  split at done
  · cases done
  · cases done
  rename_i globals after ran
  cases done
  refine ⟨code, read, ?_⟩
  obtain ⟨g, heap⟩ := engine
  simp only [runLevel, update] at ran
  split at ran
  · cases ran
  · rename_i ended
    cases ran
    refine ⟨rfl, _, ?_, rfl⟩
    exact Routine.runWith_keeps (kept_perform_heap (lasts_secures _).access limits.nesting)
      limits.turns (Secures.refl _) ended
  · cases ran

structure Settled (loaded now : Heap) (t : TableId) (store : StoreId) : Prop where
  names : ∀ key, now.bound store key = loaded.bound store key
  refuses : ∀ key value, (Access.set t key value).run now = (.error (.refused .readOnly), now)

theorem settled_of_secures {loaded now : Heap} {t : TableId} {store : StoreId} {s : GlobalStore}
    (names : loaded.table? t = some (.environment store)) (held : loaded.stores[store]? = some s)
    (shut : s.isSealed = true) (secures : loaded.Secures now) : Settled loaded now t store where
  names key := by
    have held' := secures.stores held shut
    simp only [bound, held, held']
  refuses key value :=
    set_sealed (secures.environments names) (secures.stores held shut) shut key value

/-- A level that has been loaded has the names it began with, and its environment is sealed. -/
theorem sealed_of_loadSource {level source : String} {engine loaded : Engine}
    (done : loadSource limits level source engine = some (.ok (), loaded)) :
    ∃ store s, loaded.state.level = some ⟨level, store⟩ ∧
      (∀ name value, (initialGlobals engine.state.api).bindings.get? name = some value →
        loaded.heap.bound store (.text name) = value) ∧
      loaded.heap.table? engine.heap.tables.size = some (.environment store) ∧
      loaded.heap.stores[store]? = some s ∧ s.isSealed = true := by
  obtain ⟨code, -, named, last, begun, shut⟩ := loaded_of_loadSource done
  generalize made : prepare engine.heap engine.state.api level code = prepared at *
  have whole : prepared.2.2.Secures loaded.heap := shut ▸ begun.trans (secures_sealStore ..)
  have initial (name : Bytes) (value : Value)
      (given : (initialGlobals engine.state.api).bindings.get? name = some value) :
      prepared.2.2.bound prepared.1 (.text name) = value ∧ value ≠ .nil :=
    made ▸ bound_prepare engine.heap engine.state.api level code given
  have kept (name : Bytes) (value : Value)
      (given : (initialGlobals engine.state.api).bindings.get? name = some value) :
      loaded.heap.bound prepared.1 (.text name) = value := by
    obtain ⟨here, present⟩ := initial name value given
    rw [whole.names (here ▸ present), here]
  -- The store is there because the name of the engine's own table is bound in it.
  obtain ⟨s, held⟩ : ∃ s, last.stores[prepared.1]? = some s := by
    cases held : last.stores[prepared.1]? with
    | some s => exact ⟨s, rfl⟩
    | none =>
      have given : (initialGlobals engine.state.api).bindings.get? apiName =
          some (.table engine.state.api) :=
        SortedMap.get?_ofList_cons _ (by decide +kernel)
      obtain ⟨here, present⟩ := initial _ _ given
      have there := begun.names (here ▸ present)
      rw [here] at there
      simp [bound, held] at there
  refine ⟨prepared.1, { s with isSealed := true }, named, kept, ?_, ?_, rfl⟩
  · exact whole.environments (made ▸ table?_prepare ..)
  · simp only [shut, sealStore, Array.getElem?_modify, if_true, held, Option.map_some]

/-- A global write is a write to the environment of a level. While the level is loading it is
accepted if and only if its key is a string other than `script` that is not bound yet and its value
is a function or a table; it binds that one name, and if it is refused the heap is as it was. No
other access changes what a name stands for, and no run of a script takes a name away or binds it to
something else. A level that has been loaded has the names it began with; whatever is done with the
engine from then on, each name stands for the same, bound or not, wherever a script finds itself,
and every global write is refused as one to a thing that is only to be read. -/
theorem global_names (limits : Limits) :
    (∀ (heap : Heap) t store s key value, heap.table? t = some (.environment store) →
      heap.stores[store]? = some s → s.isSealed = false →
      (((Access.set t key value).run heap).1 = .ok () ↔ heap.Definable store key value) ∧
      (heap.Definable store key value →
        heap.Defines ((Access.set t key value).run heap).2 store key value) ∧
      (¬ heap.Definable store key value → ((Access.set t key value).run heap).2 = heap)) ∧
    (∀ (heap : Heap) {α : Type} (access : Access α), globalWrite? access heap = none →
      ∀ store key, (access.run heap).2.bound store key = heap.bound store key) ∧
    (∀ depth steps routine frames (engine : Engine),
      (∀ happening ∈ Routine.trace limits.turns (perform (useWithin limits depth))
          (inside (useTrace limits depth)) steps routine frames engine,
        engine.heap.Secures happening.world.heap) ∧
      ∀ outcome last, Routine.runWith limits.turns (perform (useWithin limits depth)) steps routine
          frames engine = some (outcome, last) → engine.heap.Secures last.heap) ∧
    ∀ level source engine loaded, loadSource limits level source engine = some (.ok (), loaded) →
      ∃ store, loaded.state.level = some ⟨level, store⟩ ∧
        loaded.heap.table? engine.heap.tables.size = some (.environment store) ∧
        (∀ name value, (initialGlobals engine.state.api).bindings.get? name = some value →
          loaded.heap.bound store (.text name) = value) ∧
        ∀ later, loaded.Leads limits later →
          Settled loaded.heap later.heap engine.heap.tables.size store ∧
          ∀ command, ∀ happening ∈ commandTrace limits later command,
            Settled loaded.heap happening.world.heap engine.heap.tables.size store := by
  refine ⟨?write, ?other, ?run, ?level⟩
  case write =>
    intro heap t store s key value names held loading
    obtain ⟨accepted, refused⟩ := set_environment names held loading key value
    refine ⟨⟨fun done => ?_, fun definable => (accepted definable).1⟩,
      fun definable => (accepted definable).2, fun undefinable => ?_⟩
    · by_contra undefinable
      obtain ⟨error, same⟩ := refused undefinable
      rw [same] at done
      cases done
    · obtain ⟨error, same⟩ := refused undefinable
      rw [same]
  case other =>
    intro heap α access other store key
    exact (spares_access other).bound_eq store key
  case run =>
    intro depth steps routine frames engine
    have kept : Routine.Kept (perform (useWithin limits depth)) fun now : Engine =>
        engine.heap.Secures now.heap := kept_perform_heap (lasts_secures engine.heap).access depth
    refine ⟨Routine.runWith_meets kept ?_ limits.turns (.refl _), fun outcome last ran => ?_⟩
    · intro α request now secures
      exact meets_inside (fun _ _ => meets_useTrace (lasts_secures engine.heap).access depth) request
        secures
    · exact Routine.runWith_keeps kept limits.turns (Secures.refl _) ran
  case level =>
    intro level source engine loaded done
    obtain ⟨store, s, named, initial, names, held, shut⟩ := sealed_of_loadSource done
    have settled {now : Heap} (secures : loaded.heap.Secures now) :
        Settled loaded.heap now engine.heap.tables.size store :=
      settled_of_secures names held shut secures
    refine ⟨store, named, names, initial, fun later leads => ?_⟩
    have secures := heap_leads (lasts_secures loaded.heap) (.refl _) leads
    refine ⟨settled secures, fun command happening member => settled ?_⟩
    exact meets_commandTrace (lasts_secures loaded.heap) secures command happening member

/-- A level that gives `print` another name. -/
def renamed : Option (Except LoadError Unit × Engine) :=
  loadSource ⟨60, 60, 2⟩ "base1" "say = print" (Engine.new {} 1)

theorem global_names_renamed :
    ((Access.set 0 (.ofString "say") (.builtin (.base .print))).run
      { tables := #[.environment 0], stores := #[{}] }).1 = .ok () ∧
    (∃ outcome last, Routine.runWith 1 (perform (useWithin ⟨1, 1, 1⟩ 0)) 1 (.done []) []
        (Engine.new {} 1) = some (outcome, last) ∧ (Engine.new {} 1).heap.Secures last.heap) ∧
    ∃ loaded store, renamed = some (.ok (), loaded) ∧ loaded.state.level = some ⟨"base1", store⟩ ∧
      Settled loaded.heap loaded.heap (Engine.new {} 1).heap.tables.size store := by
  obtain ⟨write, -, run, -⟩ := global_names ⟨1, 1, 1⟩
  obtain ⟨-, -, -, level⟩ := global_names ⟨60, 60, 2⟩
  refine ⟨?_, ?_, ?_⟩
  · refine (write _ 0 0 {} _ _ rfl rfl rfl).1.mpr ⟨⟨_, rfl, by decide +kernel⟩, rfl, .inl ⟨_, rfl⟩⟩
  · exact ⟨_, _, rfl, (run 0 1 (.done []) [] (Engine.new {} 1)).2 _ _ rfl⟩
  · have loads : (renamed.map fun result => result.1.toOption) = some (some ()) := by
      decide +kernel
    obtain ⟨⟨outcome, loaded⟩, done, fine⟩ := Option.map_eq_some_iff.mp loads
    cases outcome with
    | error e => cases fine
    | ok =>
      obtain ⟨store, named, -, -, settled⟩ := level _ _ _ loaded done
      exact ⟨loaded, store, done, named, (settled loaded .refl).1⟩

end EntityScripting.Engine
