import EntityScripting.Game.Primitive
import Mathlib.Data.List.Nodup

/-!
# Reading and writing the keys of an entity

Keys are told apart by their names. A value of the kind of a key can be written to it, and then it is
read at that key and nothing else is new (`exists_set?`).
-/

namespace EntityScripting

namespace Field

theorem names_distinct : (all.map name).Nodup := by decide

theorem name_injective {field other : Field} (same : field.name = other.name) : field = other :=
  List.inj_on_of_nodup_map names_distinct (mem_all field) (mem_all other) same

theorem ofName?_eq_some_iff {name : String} {field : Field} :
    ofName? name = some field ↔ field.name = name := by
  unfold ofName?
  constructor
  · intro found
    simpa using List.find?_some found
  · rintro rfl
    cases found : all.find? fun other => decide (other.name = field.name) with
    | none => exact absurd (List.find?_eq_none.mp found field (mem_all field)) (by simp)
    | some other =>
      have same : other.name = field.name := by simpa using List.find?_some found
      rw [name_injective same]

theorem named_eq_ok_iff {name : String} {field : Field} :
    named name = .ok field ↔ field.name = name := by
  rw [← ofName?_eq_some_iff, named]
  cases ofName? name <;> simp

theorem named_eq_error_iff {name : String} {e : ScriptError} :
    named name = .error e ↔ e = .unknownField name ∧ ∀ field : Field, field.name ≠ name := by
  have unknown : ofName? name = none ↔ ∀ field : Field, field.name ≠ name := by
    simp only [Option.eq_none_iff_forall_ne_some, ne_eq, ofName?_eq_some_iff]
  rw [← unknown, named]
  cases ofName? name <;> simp [eq_comm]

end Field

namespace Fields

variable {field : Field} {value : FieldValue}

/-- A value of the kind of a key is not lost when it is written. -/
theorem exists_set? (fields : Fields) (fits : value.kind = field.kind) :
    ∃ fields', fields.set? field value = some fields' ∧
      ∀ other, fields'.get other = if other = field then value else fields.get other := by
  -- A write to a key of one kind leaves the keys of the other kinds alone.
  cases field with
  | text key =>
    cases value <;> cases fits
    refine ⟨_, rfl, fun other => ?_⟩
    cases other with
    | text other => simp [get, text_setText, apply_ite FieldValue.text]
    | _ => cases key <;> rfl
  | vector key =>
    cases value <;> cases fits
    refine ⟨_, rfl, fun other => ?_⟩
    cases other with
    | vector other => simp [get, vector_setVector, apply_ite FieldValue.vector]
    | _ => cases key <;> rfl
  | float key =>
    cases value <;> cases fits
    refine ⟨_, rfl, fun other => ?_⟩
    cases other with
    | float other => simp [get, float_setFloat, apply_ite FieldValue.float]
    | _ => cases key <;> rfl
  | integer key =>
    cases value <;> cases fits
    refine ⟨_, rfl, fun other => ?_⟩
    cases other with
    | integer other => simp [get, integer_setInteger, apply_ite FieldValue.integer]
    | _ => cases key <;> rfl

end Fields

end EntityScripting
