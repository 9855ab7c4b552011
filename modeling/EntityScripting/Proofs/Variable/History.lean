import EntityScripting.Proofs.Variable.Table

/-!
# Histories of variables

What has been done to the variables, in order: writes to one name, and the ends of all names of a
kind. A name has the value of the last change that concerns it (`latest`).
-/

namespace EntityScripting

/-- A change of the variables of a kind; a write of no value deletes the name. -/
inductive Change where
  | write (kind : VariableKind) (name : String) (value : Option ScriptValue)
  | clear (kind : VariableKind)

namespace Change

def kind : Change → VariableKind
  | .write kind .. | .clear kind => kind

def concerns (kind : VariableKind) (name : String) : Change → Bool
  | .write other word _ => other = kind ∧ word = name
  | .clear other => other = kind

theorem concerns_of_kind_ne {kind : VariableKind} {change : Change} (apart : change.kind ≠ kind)
    (name : String) : change.concerns kind name = false := by
  cases change with
  | write other word value =>
    have apart : other ≠ kind := apart
    simp [concerns, apart]
  | clear other =>
    have apart : other ≠ kind := apart
    simp [concerns, apart]

def outcome : Change → Option ScriptValue
  | .write _ _ value => value
  | .clear _ => none

def writes (kind : VariableKind) (table : VariableTable) : List Change :=
  table.entries.entries.map fun (name, value) => .write kind name (some value)

end Change

/-- The value of a name after some changes: what the last one that concerns it says, or what it was
before if none does. -/
def latest (kind : VariableKind) (name : String) (before : Option ScriptValue)
    (changes : List Change) : Option ScriptValue :=
  match changes.reverse.find? (·.concerns kind name) with
  | some change => change.outcome
  | none => before

variable {kind : VariableKind} {name : String} {before : Option ScriptValue}

theorem latest_append (first second : List Change) :
    latest kind name before (first ++ second) =
      latest kind name (latest kind name before first) second := by
  unfold latest
  rw [List.reverse_append, List.find?_append]
  cases second.reverse.find? (·.concerns kind name) <;> rfl

theorem latest_singleton (change : Change) : latest kind name before [change] =
    if change.concerns kind name then change.outcome else before := by
  simp only [latest, List.reverse_singleton, List.find?_singleton]
  cases change.concerns kind name <;> rfl

theorem latest_cons (change : Change) (changes : List Change) :
    latest kind name before (change :: changes) =
      latest kind name (if change.concerns kind name then change.outcome else before) changes := by
  rw [← latest_singleton, ← latest_append, List.singleton_append]

/-- Changes of another kind, or of other names, do not show. -/
theorem latest_of_not_concerns {changes : List Change}
    (apart : ∀ change ∈ changes, change.concerns kind name = false) :
    latest kind name before changes = before := by
  have none : changes.reverse.find? (·.concerns kind name) = none := by
    refine List.find?_eq_none.mpr fun change member => ?_
    simp [apart change (List.mem_reverse.mp member)]
  simp only [latest, none]

namespace VariableTable

variable {t t' : VariableTable}

theorem get?_set {key : String} {value : Option ScriptValue} (written : t.set key value = .ok t')
    (name : String) (kind : VariableKind) :
    t'.get? name = latest kind name (t.get? name) [.write kind key value] := by
  have same : (Change.write kind key value).concerns kind name = decide (name = key) := by
    simp [Change.concerns, eq_comm]
  rw [latest_singleton, same]
  cases value with
  | none => simpa [Change.outcome] using get?_set_none written name
  | some value => simpa [Change.outcome] using get?_set_some written name

theorem get?_absorb (t other : VariableTable) (name : String) (kind : VariableKind) :
    (t.absorb other).get? name = latest kind name (t.get? name) (Change.writes kind other) := by
  obtain ⟨_, entries⟩ := other
  simp only [absorb, get?, SortedMap.union, Change.writes]
  generalize t.entries = map
  obtain ⟨entries⟩ := entries
  induction entries generalizing map with
  | nil => rfl
  | cons entry rest ih =>
    obtain ⟨key, value⟩ := entry
    rw [List.foldl_cons, List.map_cons, latest_cons, ih, SortedMap.get?_insert]
    simp [Change.concerns, Change.outcome, eq_comm]

/-- A table whose names are distinct is what its own entries make of nothing. -/
theorem get?_eq_latest (sorted : t.entries.Sorted) (name : String) (kind : VariableKind) :
    t.get? name = latest kind name none (Change.writes kind t) := by
  obtain ⟨_, entries⟩ := t
  obtain ⟨entries⟩ := entries
  have distinct : entries.Pairwise fun a b => a.1 ≠ b.1 := List.Pairwise.imp (fun less => less.ne) sorted
  simp only [get?, SortedMap.get?, Change.writes]
  clear sorted
  induction entries with
  | nil => rfl
  | cons entry rest ih =>
    obtain ⟨key, value⟩ := entry
    obtain ⟨others, distinct⟩ := List.pairwise_cons.mp distinct
    rw [List.map_cons, latest_cons, SortedMap.lookup]
    by_cases same : name = key
    · subst same
      rw [if_pos rfl, latest_of_not_concerns]
      · simp [Change.concerns, Change.outcome]
      · intro change member
        obtain ⟨⟨other, value'⟩, held, rfl⟩ := List.mem_map.mp member
        have apart := others _ held
        simpa [Change.concerns] using Ne.symm apart
    · rw [if_neg same, ih distinct]
      simp [Change.concerns, Ne.symm same]

end VariableTable

end EntityScripting
