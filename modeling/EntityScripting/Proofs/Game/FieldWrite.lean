import EntityScripting.Proofs.Entity.Conversion
import EntityScripting.Proofs.Entity.Field
import EntityScripting.Proofs.Game.SavedGame
import EntityScripting.Proofs.Game.StaleHandle
import EntityScripting.Proofs.Text.Utf8

/-!
# What a script writes to an entity

A key takes a value that has a form in the kind of the key (`FieldKind.Takes`). A write of such a value
to a key that scripts may write changes this key of this entity and nothing else, and any other write
changes nothing at all (`set_writes_one_key`).
-/

namespace EntityScripting

open Number Script

namespace FieldValue

def shown (identity : Nat) : FieldValue → Value
  | .text none => .nil
  | .text (some s) => .ofString s
  | .float x => .number x.toDouble
  | .integer n => .integer (Int64.ofInt n.toInt)
  | .vector v => .userdata (.vector v) identity

end FieldValue

namespace Game

/-- Whether a value can be written to a key by its name: the key is one that scripts may write, the
handle names an entity, and the value has a form in the kind of the key. -/
structure Assigns (g : Game) (h : Handle) (name : String) (v : Value) (field : Field)
    (value : FieldValue) : Prop where
  named : field.name = name
  writable : field.isWritable = true
  live : h.isValid g.pool = true
  takes : field.kind.Takes v value

structure Writes (g : Game) (h : Handle) (field : Field) (value : FieldValue) (g' : Game) : Prop where
  entity : ∃ e fields, h.entity? g.pool = some e ∧
    h.entity? g'.pool = some (e.withBody { e.toBody with fields }) ∧
    ∀ other, fields.get other = if other = field then value else e.fields.get other
  beside : Pool.Beside h.slot g.pool g'.pool
  rest : g' = { g with pool := g'.pool, texts := (g.internValue value).texts }

variable {g g' : Game} {h : Handle} {name : String} {v : Value} {field : Field} {value : FieldValue}

theorem isValid_iff : h.isValid g.pool = true ↔ ∃ e, h.entity? g.pool = some e := by
  rw [Handle.isValid, Handle.resolve, Option.isSome_map, Option.isSome_iff_exists]

/-- What counts for a key is found out first, then the entity, and last the value. -/
theorem assignment_of_named {d : Datum} (named : Field.named name = .ok field) :
    g.assignment h name d =
      if field.isWritable then
        g.entity h >>= fun _ => (FieldValue.ofDatum field d).map fun value => (field, value)
      else .error .readOnly := by
  unfold assignment
  rw [named]
  change (if (!field.isWritable) = true then _ else _) = _
  cases field.isWritable with
  | false => rfl
  | true => cases g.entity h <;> rfl

theorem assignment_eq_ok_iff :
    g.assignment h name v.datum = .ok (field, value) ↔ g.Assigns h name v field value := by
  constructor
  · intro assigned
    obtain ⟨key, named, -⟩ := Except.bind_eq_ok_iff.mp assigned
    rw [assignment_of_named named] at assigned
    split at assigned
    · rename_i writable
      obtain ⟨e, there, assigned⟩ := Except.bind_eq_ok_iff.mp assigned
      obtain ⟨held, converted, same⟩ := Except.map_eq_ok_iff.mp assigned
      cases same
      exact ⟨Field.named_eq_ok_iff.mp named, writable, isValid_iff.mpr ⟨e, entity?_of_entity there⟩,
        FieldValue.ofDatum_eq_ok_iff.mp converted⟩
    · cases assigned
  · rintro ⟨named, writable, live, takes⟩
    obtain ⟨e, found⟩ := isValid_iff.mp live
    have there : g.entity h = .ok e := by rw [entity, found]
    rw [assignment_of_named (Field.named_eq_ok_iff.mpr named), if_pos writable, there]
    exact congrArg (Except.map _) (FieldValue.ofDatum_eq_ok_iff.mpr takes)

/-- Only the shared texts are other ones when those of a value are among them. -/
theorem internValue_eq (g : Game) (value : FieldValue) :
    g.internValue value = { g with texts := (g.internValue value).texts } := by
  cases value with
  | text s => cases s <;> rfl
  | _ => rfl

theorem writes_of_assigns (assigns : g.Assigns h name v field value) :
    ∃ g', setField h name v.datum g = (.ok (), g') ∧ g.Writes h field value g' := by
  obtain ⟨e, found⟩ := isValid_iff.mp assigns.live
  obtain ⟨held, live⟩ := Option.filter_eq_some_iff.mp found
  obtain ⟨fields, written, reads⟩ :=
    Fields.exists_set? e.fields (FieldValue.kind_of_takes assigns.takes)
  let write (fields : Fields) : Fields := (fields.set? field value).getD fields
  have writes : write e.fields = fields := by simp only [write, written, Option.getD_some]
  refine ⟨{ g with
    pool := g.pool.modifyFields h.slot write
    texts := (g.internValue value).texts }, ?_, ?_, .modifyFields .., rfl⟩
  · rw [setField, assignment_eq_ok_iff.mpr assigns]
    dsimp only
    rw [internValue_eq g value]
    rfl
  · refine ⟨e, fields, found, ?_, reads⟩
    rw [Handle.entity?, Pool.entity?_modifyFields held, writes]
    exact Option.filter_eq_some_iff.mpr ⟨rfl, live⟩

theorem setField_of_unfit (unfit : ∀ field value, ¬ g.Assigns h name v field value) :
    ∃ e, setField h name v.datum g = (.error e, g) := by
  unfold setField
  cases assigned : g.assignment h name v.datum with
  | error e => exact ⟨e, rfl⟩
  | ok pair => exact absurd (assignment_eq_ok_iff.mp assigned) (unfit pair.1 pair.2)

end Game

namespace Engine

variable {g : Game} {h : Handle} (heap : Heap) (usage : Usage) {limits : Limits} {key v : Value}
  {name : String} {field : Field} {value : FieldValue}

/-- A script that reads a key of an entity gets its value. -/
theorem callBuiltin_get (enough : 3 ≤ limits.steps) (identity : Nat) (more : List Value)
    (trace : Trace) (converted : Conversion.text key = .ok field.name) {e : Entity}
    (found : h.entity? g.pool = some e) :
    ∃ heap', callBuiltin limits usage (.entity .get) (.userdata (.entity h) identity :: key :: more)
        trace ⟨g, heap⟩ =
      some (.ok [(e.fields.get field).shown heap.nextIdentity], ⟨g, heap'⟩) := by
  obtain ⟨rest, steps⟩ : ∃ rest, limits.steps = rest + 3 := ⟨limits.steps - 3, by omega⟩
  have there : g.entity h = .ok e := by rw [Game.entity, found]
  have answered : perform usage (.get h field.name) ⟨g, heap⟩ =
      some (.ok (e.fields.get field), ⟨g, heap⟩) := by
    simp only [perform, Game.getField, Field.named_eq_ok_iff.mpr rfl, there]
    rfl
  have asks : callBuiltin limits usage (.entity .get)
      (.userdata (.entity h) identity :: key :: more) trace ⟨g, heap⟩ =
        (EntityMethod.ofFieldValue (e.fields.get field) fun v => .done [v]).runWith limits.turns
          (perform usage) (rest + 2) [] ⟨g, heap⟩ :=
    (congrArg (fun routine : Routine => routine.run limits (perform usage) ⟨g, heap⟩)
      (congrFun (takeOf_of_ok converted) _)).trans (run_answered steps answered)
  rw [asks]
  cases e.fields.get field with
  | text s => cases s <;> exact ⟨heap, rfl⟩
  | vector v => exact ⟨_, rfl⟩
  | float x => exact ⟨heap, rfl⟩
  | integer n => exact ⟨heap, rfl⟩

/-- A script that writes a value to a key that takes it does so. -/
theorem callBuiltin_set_of_assigns (enough : 3 ≤ limits.steps) (identity : Nat) (more : List Value)
    (trace : Trace) (converted : Conversion.text key = .ok name)
    (assigns : g.Assigns h name v field value) :
    ∃ g', callBuiltin limits usage (.entity .set)
        (.userdata (.entity h) identity :: key :: v :: more) trace ⟨g, heap⟩ =
          some (.ok [], ⟨g', heap⟩) ∧ g.Writes h field value g' := by
  obtain ⟨g', written, writes⟩ := Game.writes_of_assigns assigns
  have granted : perform usage (.set h name v.datum) ⟨g, heap⟩ = some (.ok (), ⟨g', heap⟩) := by
    simp only [perform, written]
  exact ⟨g', (congrArg (fun routine : Routine => routine.run limits (perform usage) ⟨g, heap⟩)
    (congrFun (takeOf_of_ok converted) _)).trans (run_granted (by omega) granted), writes⟩

/-- A script that writes what cannot be written is told of an error, and the game is as it was. -/
theorem callBuiltin_set_of_unfit (enough : 3 ≤ limits.steps) (identity : Nat) (more : List Value)
    (trace : Trace)
    (unfit : ∀ name field value, Conversion.text key = .ok name →
      ¬ g.Assigns h name v field value) :
    ∃ error heap', callBuiltin limits usage (.entity .set)
      (.userdata (.entity h) identity :: key :: v :: more) trace ⟨g, heap⟩ =
        some (.error error, ⟨g, heap'⟩) := by
  cases converted : Conversion.text key with
  | error reason => exact run_takeOf_of_error (by omega) converted _
  | ok name =>
    obtain ⟨e, refused⟩ := Game.setField_of_unfit fun field value => unfit name field value converted
    have asked : perform usage (.set h name v.datum) ⟨g, heap⟩ = some (.error e, ⟨g, heap⟩) := by
      simp only [perform, refused]
    exact ⟨_, _, run_of_refusal _ enough asked ⟨_, congrFun (takeOf_of_ok converted) _⟩⟩

/-- Whatever the game is like: a script that writes a value to a key of an entity writes it if the key
is one that scripts may write, the handle names an entity, and the value has a form in the kind of the
key. Then the key holds this form, a script that reads the key gets it, and all other keys of the entity
and all other entities are as they were. In every other case an error is raised, and the game is as it
was, the shared texts with it. -/
theorem set_writes_one_key (g : Game) (h : Handle) (heap : Heap) (usage : Usage) {limits : Limits}
    (enough : 3 ≤ limits.steps) (identity : Nat) (key v : Value) (more : List Value)
    (trace : Trace) :
    (∀ name field value, Conversion.text key = .ok name → g.Assigns h name v field value →
      ∃ g', callBuiltin limits usage (.entity .set)
          (.userdata (.entity h) identity :: key :: v :: more) trace ⟨g, heap⟩ =
            some (.ok [], ⟨g', heap⟩) ∧
        g.Writes h field value g' ∧
        ∃ heap', callBuiltin limits usage (.entity .get) [.userdata (.entity h) identity, key] trace
          ⟨g', heap⟩ = some (.ok [value.shown heap.nextIdentity], ⟨g', heap'⟩)) ∧
    ((∀ name field value, Conversion.text key = .ok name → ¬ g.Assigns h name v field value) →
      ∃ error heap', callBuiltin limits usage (.entity .set)
        (.userdata (.entity h) identity :: key :: v :: more) trace ⟨g, heap⟩ =
          some (.error error, ⟨g, heap'⟩)) := by
  refine ⟨fun name field value converted assigns => ?_,
    callBuiltin_set_of_unfit heap usage enough identity more trace⟩
  obtain ⟨g', written, writes⟩ :=
    callBuiltin_set_of_assigns heap usage enough identity more trace converted assigns
  obtain ⟨e, fields, -, found, reads⟩ := writes.entity
  have got := callBuiltin_get heap usage enough identity [] trace
    (converted.trans (congrArg _ assigns.named.symm)) found
  rw [show (e.withBody { e.toBody with fields }).fields = fields from rfl, reads field,
    if_pos rfl] at got
  exact ⟨g', written, writes, got⟩

/-- A message is written; the health, which scripts cannot write, is not. -/
theorem set_writes_one_key_door :
    (∃ g' heap', callBuiltin ⟨3, 0, 0⟩ (useWithin ⟨3, 0, 0⟩ 0) (.entity .set)
        [.userdata (.entity ⟨2, 0⟩) 0, .ofString "message", .ofString "open"] [] doorEngine =
          some (.ok [], ⟨g', doorEngine.heap⟩) ∧
      callBuiltin ⟨3, 0, 0⟩ (useWithin ⟨3, 0, 0⟩ 0) (.entity .get)
        [.userdata (.entity ⟨2, 0⟩) 0, .ofString "message"] [] ⟨g', doorEngine.heap⟩ =
          some (.ok [.ofString "open"], ⟨g', heap'⟩)) ∧
    ∃ error heap', callBuiltin ⟨3, 0, 0⟩ (useWithin ⟨3, 0, 0⟩ 0) (.entity .set)
      [.userdata (.entity ⟨2, 0⟩) 0, .ofString "health", .integer 5] [] doorEngine =
        some (.error error, ⟨doorEngine.state, heap'⟩) := by
  have enough : 3 ≤ (⟨3, 0, 0⟩ : Limits).steps := by decide
  refine ⟨?message, ?health⟩
  case message =>
    have assigns : doorEngine.state.Assigns ⟨2, 0⟩ "message" (.ofString "open") (.text .message)
        (.text (some (Text.lossy (Text.utf8 "open")))) := ⟨rfl, rfl, by decide, .text _⟩
    obtain ⟨g', written, -, heap', got⟩ := (set_writes_one_key doorEngine.state ⟨2, 0⟩
      doorEngine.heap (useWithin ⟨3, 0, 0⟩ 0) enough 0 (.ofString "message") (.ofString "open") []
        []).1 _ _ _ (by decide +kernel) assigns
    rw [Text.lossy_utf8] at got
    exact ⟨g', heap', written, got⟩
  case health =>
    refine (set_writes_one_key doorEngine.state ⟨2, 0⟩ doorEngine.heap (useWithin ⟨3, 0, 0⟩ 0) enough
      0 (.ofString "health") (.integer 5) [] []).2 fun name field value converted assigns => ?_
    have read : Conversion.text (.ofString "health") = .ok "health" := by decide +kernel
    obtain rfl : "health" = name := Except.ok.inj (read.symm.trans converted)
    obtain rfl : field = .integer .health := Field.name_injective assigns.named
    cases assigns.writable

end Engine

end EntityScripting
