import EntityScripting.Game.MapEntity
import EntityScripting.Proofs.Number.Exact

/-!
# Values for keys

What a key of each kind takes from a script (`FieldKind.Takes`) and from a map (`FieldKind.Reads`), and
what it holds then. Whatever else is given for a key is refused.
-/

namespace EntityScripting

open Number Script

/-- Whether a key of a kind takes a value of a script, and what it holds then. -/
inductive FieldKind.Takes : FieldKind → Value → FieldValue → Prop
  | noText : Takes .text .nil (.text none)
  | text (s : Text.Bytes) : Takes .text (.text s) (.text (some (Text.lossy s)))
  | integerText (n : Int64) : Takes .text (.integer n) (.text (some (intText n.toInt)))
  | numberText (x : Double) : Takes .text (.number x) (.text (some x.storedText))
  | integerFloat (n : Int64) : Takes .float (.integer n) (.float (Single.ofInt n.toInt))
  | float (x : Double) : Takes .float (.number x) (.float (Single.ofDouble x))
  | integer (n : Int64) (k : Int32) : k.toInt = n.toInt → Takes .integer (.integer n) (.integer k)
  /-- A float that is an integer; the least integer of 32 bits has to be given as an integer. -/
  | whole (x : Double) (k : Int32) : x.exactInt? = some k.toInt → k.toInt ≠ -0x80000000 →
      Takes .integer (.number x) (.integer k)
  | vector (v : Vec3) (identity : Nat) : Takes .vector (.userdata (.vector v) identity) (.vector v)

inductive FieldKind.Reads : FieldKind → Json → FieldValue → Prop
  | noText : Reads .text .null (.text none)
  | text (s : String) : Reads .text (.string s) (.text (some s))
  | numberText (n : JsonNumber) : Reads .text (.number n) (.text (some n.text))
  | float (value : Json) (x : Double) : value.toDouble? = some x →
      Reads .float value (.float (Single.ofDouble x))
  | integer (value : Json) (x : Double) (k : Int32) : value.toDouble? = some x →
      x.exactInt? = some k.toInt → k.toInt ≠ -0x80000000 → Reads .integer value (.integer k)
  | vector (value : Json) (v : Vec3) : value.toVector? = some v → Reads .vector value (.vector v)

def FieldKind.noun : FieldKind → String
  | .text => "string"
  | .vector => "vector"
  | .float => "number"
  | .integer => "integer"

namespace FieldValue

variable {field : Field}

theorem kind_of_takes {kind : FieldKind} {v : Value} {value : FieldValue}
    (takes : kind.Takes v value) : value.kind = kind := by
  cases takes <;> rfl

theorem ofDatum_eq_ok_iff {v : Value} {value : FieldValue} :
    ofDatum field v.datum = .ok value ↔ field.kind.Takes v value := by
  unfold ofDatum
  generalize field.kind = kind
  constructor
  · intro converted
    cases kind with
    | text =>
      cases v with
      | nil | text | integer | number =>
        cases converted
        constructor
      | userdata data => cases data <;> cases converted
      | _ => cases converted
    | float =>
      cases v with
      | integer | number =>
        cases converted
        constructor
      | userdata data => cases data <;> cases converted
      | _ => cases converted
    | integer =>
      cases v with
      | integer n =>
        simp only [Value.datum] at converted
        split at converted
        · rename_i k fits
          cases converted
          exact .integer n k ((int32OfInt?_eq_some_iff _ _).mp fits)
        · cases converted
      | number x =>
        simp only [Value.datum] at converted
        split at converted
        · rename_i k fits
          cases converted
          obtain ⟨m, exact, fits⟩ := Option.bind_eq_some_iff.mp fits
          obtain ⟨rfl, balanced⟩ := (balancedInt32?_eq_some_iff _ _).mp fits
          exact .whole x k exact balanced
        · cases converted
      | userdata data => cases data <;> cases converted
      | _ => cases converted
    | vector =>
      cases v with
      | userdata data identity =>
        cases data with
        | vector v =>
          cases converted
          constructor
        | _ => cases converted
      | _ => cases converted
  · intro takes
    cases takes with
    | integer n k same => simp [Value.datum, (int32OfInt?_eq_some_iff _ _).mpr same]
    | whole x k exact balanced =>
      simp [Value.datum, exact, (balancedInt32?_eq_some_iff _ k).mpr ⟨rfl, balanced⟩]
    | _ => rfl

theorem kind_of_reads {kind : FieldKind} {value : Json} {held : FieldValue}
    (reads : kind.Reads value held) : held.kind = kind := by
  cases reads <;> rfl

theorem ofJson_eq_ok_iff {value : Json} {held : FieldValue} :
    ofJson field value = .ok held ↔ field.kind.Reads value held := by
  unfold ofJson
  generalize field.kind = kind
  constructor
  · intro converted
    cases kind with
    | text =>
      cases value with
      | null | string | number =>
        cases converted
        constructor
      | _ => cases converted
    | float =>
      simp only at converted
      split at converted
      · rename_i x read
        cases converted
        exact .float value x read
      · cases converted
    | integer =>
      simp only at converted
      split at converted
      · rename_i k fits
        cases converted
        obtain ⟨m, exact, fits⟩ := Option.bind_eq_some_iff.mp fits
        obtain ⟨x, read, exact⟩ := Option.bind_eq_some_iff.mp exact
        obtain ⟨rfl, balanced⟩ := (balancedInt32?_eq_some_iff _ _).mp fits
        exact .integer value x k read exact balanced
      · cases converted
    | vector =>
      simp only at converted
      split at converted
      · rename_i v read
        cases converted
        exact .vector value v read
      · cases converted
  · intro reads
    cases reads with
    | float value x read | vector value v read => simp [read]
    | integer value x k read exact balanced =>
      simp [read, exact, (balancedInt32?_eq_some_iff _ k).mpr ⟨rfl, balanced⟩]
    | _ => rfl

theorem ofJson_eq_error_iff {value : Json} {e : ScriptError} :
    ofJson field value = .error e ↔
      e = .fieldType field field.kind.noun value.kindName ∧ ∀ held, ¬ field.kind.Reads value held := by
  have refusal {e : ScriptError} (refused : ofJson field value = .error e) :
      e = .fieldType field field.kind.noun value.kindName := by
    unfold ofJson at refused
    cases kind : field.kind with
    | text =>
      rw [kind] at refused
      cases value <;> cases refused <;> rfl
    | _ =>
      simp only [kind] at refused
      split at refused <;> cases refused
      rfl
  simp only [← ofJson_eq_ok_iff]
  cases converted : ofJson field value with
  | ok held => simp
  | error e' => simp [refusal converted, eq_comm]

end FieldValue

end EntityScripting
