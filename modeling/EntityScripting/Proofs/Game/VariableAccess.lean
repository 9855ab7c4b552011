import EntityScripting.Proofs.Game.Variables
import EntityScripting.Proofs.Script.Ending
import EntityScripting.Proofs.Text.Utf8

/-!
# What a script reads after a write

A script names its variables by byte strings, the tables that hold them by texts. So a write is read
at every key that is read as the same text, and nowhere else (`write_then_read`); keys that are texts
are all told apart. `ill_formed_keys_collide` has two keys that are not.
-/

namespace EntityScripting

open Number Script Text

namespace Script

/-- A value without the number that tells one of the engine's values from the others. -/
def Value.contents : Value → Value
  | .userdata data _ => .userdata data 0
  | v => v

/-- What a table of variables gives back for a value: ill-formed parts of a text are replaced. -/
def Value.settled : Value → Value
  | .text s => .text (utf8 (lossy s))
  | v => v.contents

def Value.ofStored : Option ScriptValue → Value
  | none => .nil
  | some (.integer n) => .integer n
  | some (.number x) => .number x
  | some (.boolean b) => .boolean b
  | some (.text s) => .ofString s
  | some (.entity h) => .userdata (.entity h) 0
  | some (.vector v) => .userdata (.vector v) 0

def Value.isStorable (kind : VariableKind) : Value → Bool
  | .nil | .boolean _ | .integer _ | .number _ | .text _ => true
  | .userdata (.entity _) _ | .userdata (.vector _) _ => kind = .level
  | _ => false

/-- Only an ill-formed text is not given back as it was. -/
theorem Value.settled_eq_contents_iff {v : Value} :
    v.settled = v.contents ↔ ∀ s, v = .text s → ∃ t, s = utf8 t := by
  cases v with
  | text s =>
    simp only [settled, contents, Value.text.injEq, utf8_lossy_iff]
    exact ⟨fun text _ same => same ▸ text, fun text => text s rfl⟩
  | _ => simp [settled]

/-- What the engine makes of a value for a table: what a script then gets for it, or an error. -/
theorem Value.forVariable_datum (kind : VariableKind) (v : Value) :
    v.isStorable kind = true ∧ (∃ stored, v.datum.forVariable kind = .ok stored ∧
      Value.ofStored stored = v.settled) ∨
    v.isStorable kind = false ∧ v.datum.forVariable kind = .error (.variableType kind) := by
  cases v with
  | nil | boolean | integer | number | text => exact .inl ⟨rfl, _, rfl, rfl⟩
  | table | function => exact .inr ⟨rfl, rfl⟩
  | userdata data =>
    cases data with
    | entity | vector =>
      cases kind with
      | level => exact .inl ⟨rfl, _, rfl, rfl⟩
      | persistent => exact .inr ⟨rfl, rfl⟩
    | variableTable | fault => exact .inr ⟨rfl, rfl⟩

end Script

namespace Engine

section

variable (limits : Limits) (usage : Usage) (place : Place) (identity : Nat)

def readVariable (kind : VariableKind) (key : Bytes) (engine : Engine) :
    Option (Routine.Outcome × Engine) :=
  (Activity.routine do
    return [← Value.index place (.userdata (.variableTable kind) identity) (.text key)]).run
      limits (perform usage) engine

def writeVariable (kind : VariableKind) (key : Bytes) (v : Value) (engine : Engine) :
    Option (Routine.Outcome × Engine) :=
  (Activity.routine do
    Value.setIndex place (.userdata (.variableTable kind) identity) (.text key) v
    return []).run limits (perform usage) engine

def valueAt (kind : VariableKind) (key : Bytes) (engine : Engine) : Option Value :=
  match readVariable limits usage place identity kind key engine with
  | some (.ok [v], _) => some v.contents
  | _ => none

end

section

variable {limits : Limits} (usage : Usage) (place : Place) (identity : Nat) {kind : VariableKind}
  (key : Bytes) {engine : Engine}

theorem valueAt_eq (steps : 3 ≤ limits.steps) :
    valueAt limits usage place identity kind key engine =
      some (.ofStored ((engine.state.table kind).get? (lossy key))) := by
  obtain ⟨more, enough⟩ : ∃ more, limits.steps = more + 3 := ⟨limits.steps - 3, by omega⟩
  have answered {stored : Option ScriptValue}
      (found : (engine.state.table kind).get? (lossy key) = stored) :
      perform usage (.variable kind (lossy key)) engine = some (stored, engine) := by
    simp only [perform, found]
  unfold valueAt
  cases found : (engine.state.table kind).get? (lossy key) with
  | none =>
    have ran : readVariable limits usage place identity kind key engine = some (.ok [.nil], engine) :=
      run_answered enough (answered found)
    rw [ran]
    rfl
  | some v =>
    have ran : readVariable limits usage place identity kind key engine =
        (Value.ofScriptValue v fun v => .done [v]).runWith limits.turns (perform usage) (more + 2) []
          engine :=
      run_answered enough (answered found)
    rw [ran]
    cases v <;> rfl

theorem allows_of_forVariable {d : Datum} {stored : Option ScriptValue}
    (taken : d.forVariable kind = .ok stored) : stored.all kind.allows = true := by
  unfold Datum.forVariable at taken
  split at taken
  · cases taken
    rfl
  · split at taken
    · rename_i allowed
      cases taken
      exact allowed
    · cases taken
  · cases taken

/-- A write that is taken ends well, and the game has it. -/
theorem writeVariable_of_taken (steps : 3 ≤ limits.steps) (fit : (engine.state.table kind).Fit kind)
    {v : Value} {stored : Option ScriptValue} (taken : v.datum.forVariable kind = .ok stored) :
    ∃ g, engine.state.setVariable kind (lossy key) stored = .ok g ∧
      writeVariable limits usage place identity kind key v engine =
        some (.ok [], ⟨g, engine.heap⟩) := by
  have accepted := (isOk_setVariable_iff fit (lossy key) stored).mpr (allows_of_forVariable taken)
  cases written : engine.state.setVariable kind (lossy key) stored with
  | error e =>
    rw [written] at accepted
    cases accepted
  | ok g =>
    have assigned : Game.assignVariable kind (lossy key) v.datum engine.state = (.ok (), g) := by
      simp only [Game.assignVariable, taken, written]
    have granted : perform usage (.setVariable kind (lossy key) v.datum) engine =
        some (.ok (), ⟨g, engine.heap⟩) := by
      simp only [perform, assigned]
    exact ⟨g, rfl, run_granted (by omega) granted⟩

/-- A write that is not taken raises an error, and the game is as it was. -/
theorem writeVariable_of_refused (steps : 3 ≤ limits.steps) {v : Value} {e : ScriptError}
    (refused : v.datum.forVariable kind = .error e) :
    ∃ heap, writeVariable limits usage place identity kind key v engine =
      some (.error (.userdata (.fault (.refused e)) engine.heap.nextIdentity),
        ⟨engine.state, heap⟩) := by
  have assigned : Game.assignVariable kind (lossy key) v.datum engine.state =
      (.error e, engine.state) := by
    simp only [Game.assignVariable, refused]
  have asked : perform usage (.setVariable kind (lossy key) v.datum) engine =
      some (.error e, engine) := by
    simp only [perform, assigned]
  exact ⟨_, run_asking steps asked⟩

theorem get?_of_setVariable {g g' : Game} {name : String} {stored : Option ScriptValue}
    (written : g.setVariable kind name stored = .ok g') (kind' : VariableKind) (name' : String) :
    (g'.table kind').get? name' =
      if kind' = kind ∧ name' = name then stored else (g.table kind').get? name' := by
  rw [(Game.replays_setVariable written).values, latest_singleton]
  simp only [Change.concerns, Change.outcome, decide_eq_true_eq, eq_comm (a := kind'),
    eq_comm (a := name')]

end

/-- What a script reads after it has written a value to a variable, whatever the tables hold. Every key
is read as some value. A value of a type that the kind takes is given back at every key that is read as
the same text, and all other variables, of either kind, are as they were; a value of another type
raises the error of the kind and leaves all of them as they were. Keys that are texts are read as the
same text only if they are equal, and a value is given back as it was unless it is an ill-formed text. -/
theorem write_then_read {limits : Limits} (steps : 3 ≤ limits.steps) (usage : Usage)
    {engine : Engine} (fit : ∀ kind, (engine.state.table kind).Fit kind) (place : Place)
    (identity : Nat) (kind : VariableKind) (key : Bytes) (v : Value) :
    (∀ kind' key', ∃ read, valueAt limits usage place identity kind' key' engine = some read) ∧
    (v.isStorable kind = true →
      ∃ next, writeVariable limits usage place identity kind key v engine = some (.ok [], next) ∧
        ∀ kind' key', valueAt limits usage place identity kind' key' next =
          if kind' = kind ∧ lossy key' = lossy key then some v.settled
          else valueAt limits usage place identity kind' key' engine) ∧
    (v.isStorable kind = false →
      ∃ fault next, writeVariable limits usage place identity kind key v engine =
          some (.error (.userdata (.fault (.refused (.variableType kind))) fault), next) ∧
        ∀ kind' key', valueAt limits usage place identity kind' key' next =
          valueAt limits usage place identity kind' key' engine) ∧
    (∀ name name', lossy (utf8 name') = lossy (utf8 name) ↔ utf8 name' = utf8 name) ∧
    (v.settled = v.contents ↔ ∀ s, v = .text s → ∃ t, s = utf8 t) := by
  refine ⟨fun kind' key' => ⟨_, valueAt_eq _ _ _ _ steps⟩, fun storable => ?taken,
    fun unfit => ?refused, fun name name' => ?keys, Value.settled_eq_contents_iff⟩
  case taken =>
    obtain ⟨-, stored, taken, settled⟩ | ⟨unfit, -⟩ := v.forVariable_datum kind
    · obtain ⟨g, written, ran⟩ := writeVariable_of_taken usage place identity key steps (fit kind) taken
      refine ⟨_, ran, fun kind' key' => ?_⟩
      rw [valueAt_eq _ _ _ _ steps, valueAt_eq _ _ _ _ steps, get?_of_setVariable written]
      split
      · rw [settled]
      · rfl
    · rw [storable] at unfit
      cases unfit
  case refused =>
    obtain ⟨storable, -⟩ | ⟨-, refused⟩ := v.forVariable_datum kind
    · rw [storable] at unfit
      cases unfit
    · obtain ⟨heap, ran⟩ := writeVariable_of_refused usage place identity key steps refused
      refine ⟨_, _, ran, fun kind' key' => ?_⟩
      rw [valueAt_eq _ _ _ _ steps, valueAt_eq _ _ _ _ steps]
  case keys => rw [lossy_utf8, lossy_utf8, utf8_inj]

/-- An ill-formed text is written to a variable of the level. -/
theorem write_then_read_door :
    (∀ kind, ((Engine.new {} 1).state.table kind).Fit kind) ∧
    ∃ next, writeVariable ⟨3, 0, 0⟩ (useWithin ⟨3, 0, 0⟩ 0) none 0 .level (utf8 "door") (.text [0xFF])
        (Engine.new {} 1) = some (.ok [], next) ∧
      valueAt ⟨3, 0, 0⟩ (useWithin ⟨3, 0, 0⟩ 0) none 0 .level (utf8 "door") next =
        some (.ofString "\uFFFD") ∧
      valueAt ⟨3, 0, 0⟩ (useWithin ⟨3, 0, 0⟩ 0) none 0 .persistent (utf8 "door") next =
        valueAt ⟨3, 0, 0⟩ (useWithin ⟨3, 0, 0⟩ 0) none 0 .persistent (utf8 "door")
          (Engine.new {} 1) := by
  have fresh : Reachable ⟨3, 0, 0⟩ (Engine.new {} 1) := .new {} 1
  have fit := fresh.sound.tables
  obtain ⟨-, taken, -⟩ := write_then_read (show 3 ≤ (⟨3, 0, 0⟩ : Limits).steps by decide)
    (useWithin ⟨3, 0, 0⟩ 0) fit none 0 .level (utf8 "door") (.text [0xFF])
  obtain ⟨next, written, reads⟩ := taken rfl
  refine ⟨fit, next, written, ?_, ?_⟩
  · rw [reads, if_pos ⟨rfl, rfl⟩]
    rfl
  · rw [reads, if_neg (by simp)]

/-- A write can change what is read at another key, if the keys are no texts. -/
theorem ill_formed_keys_collide :
    ¬ ∀ (limits : Limits) (usage : Usage) (engine next : Engine) (place : Place) (identity : Nat)
        (kind : VariableKind) (key key' : Bytes) (v : Value),
      3 ≤ limits.steps → Reachable limits engine → v.isStorable kind = true →
      writeVariable limits usage place identity kind key v engine = some (.ok [], next) →
      key' ≠ key →
      valueAt limits usage place identity kind key' next =
        valueAt limits usage place identity kind key' engine := by
  intro always
  have fresh : Reachable ⟨3, 0, 0⟩ (Engine.new {} 1) := .new {} 1
  obtain ⟨g, stored, written⟩ := writeVariable_of_taken (useWithin ⟨3, 0, 0⟩ 0) none 0 [0xFE]
    (show 3 ≤ (⟨3, 0, 0⟩ : Limits).steps by decide) (fresh.sound.tables .level)
    (show (Value.integer 2).datum.forVariable .level = .ok (some (.integer 2)) from rfl)
  have same := always _ _ _ _ none 0 .level [0xFE] [0xFF] (.integer 2) (by decide) fresh rfl written
    (by decide)
  have text : lossy [0xFF] = lossy [0xFE] := rfl
  rw [valueAt_eq _ _ _ _ (by decide), valueAt_eq _ _ _ _ (by decide),
    get?_of_setVariable stored, if_pos ⟨rfl, text⟩] at same
  cases same

end Engine

end EntityScripting
