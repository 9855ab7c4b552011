import EntityScripting.Proofs.Game.SavedGame
import EntityScripting.Proofs.Variable.Restore

/-!
# Variables that are restored

A map of saved entries is put into a table, or a save takes the place of both tables, if every entry
can be read. Otherwise the engine is told of the first that cannot, and is the same as before
(`restored_whole_or_not`).
-/

namespace EntityScripting

open Script VariableTable

namespace SavedVariables

def Readable (p : Pool) (saved : SavedVariables) : Prop :=
  VariableTable.Readable .level p saved.vars ∧
    VariableTable.Readable .persistent p saved.persistent

/-- Whether an error is the first fault of a save; what lasts for a level only comes first. -/
def FirstFault (p : Pool) (saved : SavedVariables) (e : CodecError) : Prop :=
  VariableTable.FirstFault .level p saved.vars e ∨
    VariableTable.Readable .level p saved.vars ∧
      VariableTable.FirstFault .persistent p saved.persistent e

end SavedVariables

namespace Game

variable {g g' : Game} {saved : SavedVariables} {e : CodecError}

theorem load_eq_error_iff (vars : saved.vars.Sorted) (persistent : saved.persistent.Sorted) :
    g.load saved = .error e ↔ saved.FirstFault g.pool e := by
  unfold SavedVariables.FirstFault load
  rw [← decode_eq_error_iff vars, ← decode_eq_error_iff persistent, ← exists_decode_iff vars]
  simp [Except.bind_eq_error_iff, pure, Except.pure]

theorem exists_load_iff (vars : saved.vars.Sorted) (persistent : saved.persistent.Sorted) :
    (∃ g', g.load saved = .ok g') ↔ saved.Readable g.pool := by
  unfold SavedVariables.Readable
  rw [← exists_decode_iff vars, ← exists_decode_iff persistent]
  constructor
  · rintro ⟨g', loaded⟩
    obtain ⟨level, lasting, readVars, readPersistent, -⟩ := load_eq_ok loaded
    exact ⟨⟨level, readVars⟩, ⟨lasting, readPersistent⟩⟩
  · rintro ⟨⟨level, readVars⟩, ⟨lasting, readPersistent⟩⟩
    exact ⟨{ g with vars := level, persistent := lasting }, by
      simp [load, readVars, readPersistent, bind, Except.bind, pure, Except.pure]⟩

structure Loads (g : Game) (saved : SavedVariables) (g' : Game) : Prop where
  vars : Absorbs g.pool saved.vars { kind := .level } g'.vars
  persistent : Absorbs g.pool saved.persistent { kind := .persistent } g'.persistent
  rest : g' = { g with vars := g'.vars, persistent := g'.persistent }

theorem loads_of_load (vars : saved.vars.Sorted) (persistent : saved.persistent.Sorted)
    (loaded : g.load saved = .ok g') : g.Loads saved g' := by
  obtain ⟨level, lasting, readVars, readPersistent, rfl⟩ := load_eq_ok loaded
  exact ⟨absorbs_of_decode vars readVars, absorbs_of_decode persistent readPersistent, rfl⟩

theorem restore_eq_error_iff {kind : VariableKind} {entries : SortedMap String String} :
    g.restore kind entries = .error e ↔ (g.table kind).restore g.pool entries = .error e := by
  exact Except.map_eq_error_iff

theorem exists_restore_iff {kind : VariableKind} {entries : SortedMap String String} :
    (∃ g', g.restore kind entries = .ok g') ↔
      ∃ t, (g.table kind).restore g.pool entries = .ok t := by
  simp only [Except.exists_ok_iff, restore, ne_eq, Except.map_eq_error_iff]

structure Restores (g : Game) (kind : VariableKind) (entries : SortedMap String String)
    (g' : Game) : Prop where
  table : Absorbs g.pool entries (g.table kind) (g'.table kind)
  rest : g' = g.withTable kind (g'.table kind)

theorem restores_of_restore {kind : VariableKind} {entries : SortedMap String String}
    (sorted : entries.Sorted) (restored : g.restore kind entries = .ok g') :
    g.Restores kind entries g' := by
  obtain ⟨table, read, rfl⟩ := Except.map_eq_ok_iff.mp restored
  have same : (g.withTable kind table).table kind = table := by cases kind <;> rfl
  exact ⟨same.symm ▸ absorbs_of_restore sorted read, by rw [same]⟩

end Game

namespace Engine

theorem settle_of_exists_iff {ε : Type} {g : Game} {result : Except ε Game} {readable : Prop}
    {good : Game → Prop} (accepts : (∃ g', result = .ok g') ↔ readable)
    (made : ∀ g', result = .ok g' → good g') :
    (readable → good (settle g result)) ∧ (¬ readable → settle g result = g) := by
  rw [← accepts]
  cases result with
  | ok g' => exact ⟨fun _ => made g' rfl, fun refused => absurd ⟨g', rfl⟩ refused⟩
  | error e => exact ⟨nofun, fun _ => rfl⟩

/-- Saved entries are put into a table all together or not at all, whatever the table and the pool
are. They are refused exactly if one of them does not decode or is of a type that the kind of the
table does not take, and the error is that of the first such entry; an entry that is put into a table
is bound to its value, and every other name is as it was. It is the same for a whole save, where the
entries that last for a level come first, but that both tables have nothing then but the entries of
the save. An engine that refuses either is the same as before. -/
theorem restored_whole_or_not (limits : Limits) (engine : Engine) (entries : SortedMap String String)
    (saved : SavedVariables) (sorted : entries.Sorted) (vars : saved.vars.Sorted)
    (persistent : saved.persistent.Sorted) :
    (∀ (t : VariableTable) (p : Pool),
      ((∃ t', t.restore p entries = .ok t') ↔ VariableTable.Readable t.kind p entries) ∧
      (∀ e, t.restore p entries = .error e ↔ VariableTable.FirstFault t.kind p entries e) ∧
      ∀ t', t.restore p entries = .ok t' → Absorbs p entries t t') ∧
    (∀ kind,
      (∀ e, engine.state.restore kind entries = .error e ↔
        VariableTable.FirstFault (engine.state.table kind).kind engine.state.pool entries e) ∧
      ∃ g, engine.obey limits (.restore kind entries) = some ⟨g, engine.heap⟩ ∧
        (VariableTable.Readable (engine.state.table kind).kind engine.state.pool entries →
          engine.state.Restores kind entries g) ∧
        (¬ VariableTable.Readable (engine.state.table kind).kind engine.state.pool entries →
          g = engine.state)) ∧
    (∀ e, engine.state.load saved = .error e ↔ saved.FirstFault engine.state.pool e) ∧
    ∃ g, engine.obey limits (.load saved) = some ⟨g, engine.heap⟩ ∧
      (saved.Readable engine.state.pool → engine.state.Loads saved g) ∧
      (¬ saved.Readable engine.state.pool → g = engine.state) := by
  refine ⟨fun t p => ⟨exists_restore_iff sorted, fun e => restore_eq_error_iff sorted,
      fun t' => absorbs_of_restore sorted⟩, fun kind => ⟨fun e => ?_, ?restored⟩,
    fun e => Game.load_eq_error_iff vars persistent, ?loaded⟩
  · rw [Game.restore_eq_error_iff, restore_eq_error_iff sorted]
  case restored =>
    refine ⟨settle engine.state (engine.state.restore kind entries), rfl, ?_⟩
    refine settle_of_exists_iff ?_ fun g => Game.restores_of_restore sorted
    rw [Game.exists_restore_iff, exists_restore_iff sorted]
  case loaded =>
    exact ⟨settle engine.state (engine.state.load saved), rfl,
      settle_of_exists_iff (Game.exists_load_iff vars persistent)
        fun g => Game.loads_of_load vars persistent⟩

/-- A variable is restored; a save is refused, since what lasts cannot be a vector. -/
theorem restored_whole_or_not_vector :
    (∃ g, doorEngine.obey ⟨1, 1, 1⟩ (.restore .level (.ofList [("door", "string:open")])) =
        some ⟨g, doorEngine.heap⟩ ∧ (g.table .level).get? "door" = some (.text "open")) ∧
    doorEngine.state.load ⟨.ofList [("door", "number:1")], .ofList [("spot", "vector:1,2,3")]⟩ =
      .error (.disallowed "spot" (.variableType .persistent)) ∧
    doorEngine.obey ⟨1, 1, 1⟩
        (.load ⟨.ofList [("door", "number:1")], .ofList [("spot", "vector:1,2,3")]⟩) =
      some doorEngine := by
  obtain ⟨-, restores, refused, g', loaded, -, same⟩ := restored_whole_or_not ⟨1, 1, 1⟩ doorEngine
    (.ofList [("door", "string:open")])
    ⟨.ofList [("door", "number:1")], .ofList [("spot", "vector:1,2,3")]⟩
    (SortedMap.sorted_ofList _) (SortedMap.sorted_ofList _) (SortedMap.sorted_ofList _)
  obtain ⟨-, g, restored, table, -⟩ := restores .level
  -- In either map there is one name at most.
  have only {key saved name text : String}
      (held : (SortedMap.ofList [(key, saved)]).get? name = some text) :
      name = key ∧ text = saved := by
    have member := (SortedMap.sorted_ofList [(key, saved)]).get?_eq_some_iff.mp held
    exact Prod.mk.inj (List.mem_singleton.mp member)
  have readDoor : ScriptValue.decode "door" doorEngine.state.pool "string:open" =
      .ok (.text "open") := rfl
  have readOne : ScriptValue.decode "door" doorEngine.state.pool "number:1" =
      .ok (.integer 1) := by decide +kernel
  have readSpot : fault? .persistent doorEngine.state.pool ("spot", "vector:1,2,3") =
      some (.disallowed "spot" (.variableType .persistent)) := by decide +kernel
  refine ⟨⟨g, restored, ?_⟩, ?_, ?_⟩
  · have loads := table fun name text held => by
      obtain ⟨rfl, rfl⟩ := only held
      exact ⟨_, readDoor, rfl⟩
    obtain ⟨value, read, -, bound⟩ := loads.table.read "door" "string:open" rfl
    rw [bound, Except.ok.inj (read.symm.trans readDoor)]
  · refine (refused _).mpr (.inr ⟨fun name text held => ?_, "spot", "vector:1,2,3", rfl, readSpot, ?_⟩)
    · obtain ⟨rfl, rfl⟩ := only held
      exact ⟨_, readOne, rfl⟩
    · intro name less text held
      exact absurd less (by simp [(only held).1])
  · rw [loaded, same fun readable => ?_]
    obtain ⟨value, read, allowed⟩ := readable.2 "spot" "vector:1,2,3" rfl
    rw [fault?_eq_none_iff.mpr ⟨value, read, allowed⟩] at readSpot
    cases readSpot

end Engine

end EntityScripting
