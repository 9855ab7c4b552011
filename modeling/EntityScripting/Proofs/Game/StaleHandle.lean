import EntityScripting.Proofs.Game.Method
import EntityScripting.Proofs.Pool.Handle

/-!
# Methods of entities that are gone

Every method of an entity finds out first whether its handle is still good, so a call on an entity
that is gone raises an error and has no effect at all (`stale_methods_inert`). Only what is wrong
with a key is found out before.
-/

namespace EntityScripting

open Number Script

namespace Game

variable {g : Game} {h : Handle}

theorem entity_of_stale (gone : h.resolve g.pool = none) : g.entity h = .error .staleEntity := by
  have missing : h.entity? g.pool = none := Option.map_eq_none_iff.mp gone
  unfold entity
  rw [missing]

def keyRefusal (writes : Bool) (name : String) : ScriptError :=
  match Field.named name with
  | .error e => e
  | .ok field => if writes && !field.isWritable then .readOnly else .staleEntity

theorem getField_of_stale (gone : h.resolve g.pool = none) (name : String) :
    g.getField h name = .error (keyRefusal false name) := by
  unfold getField keyRefusal
  rw [entity_of_stale gone]
  cases Field.named name <;> rfl

theorem setField_of_stale (gone : h.resolve g.pool = none) (name : String) (d : Datum) :
    setField h name d g = (.error (keyRefusal true name), g) := by
  have refused : g.assignment h name d = .error (keyRefusal true name) := by
    unfold assignment keyRefusal
    rw [entity_of_stale gone]
    cases Field.named name with
    | error e => rfl
    | ok field =>
      show (if (!field.isWritable) = true then _ else _) =
        Except.error (if (true && !field.isWritable) = true then _ else _)
      cases field.isWritable <;> rfl
  rw [setField, refused]

end Game

namespace Engine

variable {g : Game} {h : Handle} {limits : Limits} {usage : Usage}

/-- Whether the arguments after the entity are of types that a method takes. -/
def Accepts (call : Invocation) : EntityMethod → Prop
  | .get | .set | .give => ∃ text, Conversion.text (call.arg 2) = .ok text
  | .trigger | .kill => ∃ delay, Conversion.optional .single (call.arg 2) = .ok delay
  | .message => (∃ text, Conversion.text (call.arg 2) = .ok text) ∧
    ∃ delay, Conversion.optional .single (call.arg 3) = .ok delay
  | .player | .monster | .damageable | .valid => True

def staleError (call : Invocation) : EntityMethod → ScriptError
  | .get => Game.keyRefusal false ((Conversion.text (call.arg 2)).toOption.getD "")
  | .set => Game.keyRefusal true ((Conversion.text (call.arg 2)).toOption.getD "")
  | _ => .staleEntity

/-- A method whose request is refused raises the error of the refusal, and has done no more. -/
theorem run_of_refusal {α : Type} {routine : Routine} (request : Request (Except ScriptError α))
    {e : ScriptError} {heap : Heap} (enough : 3 ≤ limits.steps)
    (refused : perform usage request ⟨g, heap⟩ = some (.error e, ⟨g, heap⟩))
    (asks : ∃ next, routine = .ask request fun answer => Activity.orRefuse answer next) :
    routine.run limits (perform usage) ⟨g, heap⟩ =
      some (.error (.userdata (.fault (.refused e)) heap.nextIdentity),
        ⟨g, { heap with nextIdentity := heap.nextIdentity + 1 }⟩) := by
  obtain ⟨next, rfl⟩ := asks
  exact run_asking enough refused

theorem run_of_stale (gone : h.resolve g.pool = none) (enough : 3 ≤ limits.steps) {m : EntityMethod}
    (other : m ≠ .valid) {name : String} {identity : Nat} {rest : List Value} {trace : Trace}
    (accepts : Accepts ⟨name, .userdata (.entity h) identity :: rest, trace⟩ m) (heap : Heap) :
    (m.run ⟨name, .userdata (.entity h) identity :: rest, trace⟩).routine.run limits
        (perform usage) ⟨g, heap⟩ =
      some (.error (.userdata (.fault (.refused
          (staleError ⟨name, .userdata (.entity h) identity :: rest, trace⟩ m))) heap.nextIdentity),
        ⟨g, { heap with nextIdentity := heap.nextIdentity + 1 }⟩) := by
  have stale := Game.entity_of_stale gone
  have flag (f : EntityFlag) : perform usage (.flag h f) ⟨g, heap⟩ =
      some (.error .staleEntity, ⟨g, heap⟩) := by
    simp only [perform, Game.flag, stale, Except.map]
  cases m with
  | get =>
    obtain ⟨key, converted⟩ := accepts
    rw [staleError, converted]
    refine run_of_refusal (.get h key) enough ?_ ⟨_, congrFun (takeOf_of_ok converted) _⟩
    simp only [perform, Game.getField_of_stale gone]
    rfl
  | set =>
    obtain ⟨key, converted⟩ := accepts
    rw [staleError, converted]
    refine run_of_refusal (.set h key _) enough ?_ ⟨_, congrFun (takeOf_of_ok converted) _⟩
    simp only [perform, Game.setField_of_stale gone]
    rfl
  | trigger =>
    obtain ⟨delay, converted⟩ := accepts
    refine run_of_refusal (.trigger h (delay.getD {})) enough ?_
      ⟨_, congrFun (takeOf_of_ok converted) _⟩
    simp only [perform, Game.trigger, stale, staleError]
  | kill =>
    obtain ⟨delay, converted⟩ := accepts
    refine run_of_refusal (.kill h (delay.getD {})) enough ?_
      ⟨_, congrFun (takeOf_of_ok converted) _⟩
    simp only [perform, Game.kill, stale, staleError]
  | message =>
    obtain ⟨⟨text, converted⟩, delay, converted'⟩ := accepts
    refine run_of_refusal (.message h text (delay.getD {})) enough ?_
      ⟨_, (congrFun (takeOf_of_ok converted) _).trans (congrFun (takeOf_of_ok converted') _)⟩
    simp only [perform, Game.message, stale, staleError]
  | give =>
    obtain ⟨item, converted⟩ := accepts
    refine run_of_refusal (.give h item) enough ?_ ⟨_, congrFun (takeOf_of_ok converted) _⟩
    simp only [perform, Game.give, stale, staleError]
  | player => exact run_of_refusal (.flag h .player) enough (flag .player) ⟨_, rfl⟩
  | monster => exact run_of_refusal (.flag h .monster) enough (flag .monster) ⟨_, rfl⟩
  | damageable => exact run_of_refusal (.flag h .damageable) enough (flag .damageable) ⟨_, rfl⟩
  | valid => exact absurd rfl other

/-- Whatever the game is like, and whatever a use of an entity would do: a method that is called on an
entity that is gone, with arguments of the right types, raises the error that the entity is gone, or
one about the key that `get` and `set` look at first. The game is the same as before, and of the heap
all but the number that the error is known by. Only `valid` gives an answer, and nothing is put off
for an entity that is gone. -/
theorem stale_methods_inert {g : Game} {h : Handle} (gone : h.resolve g.pool = none)
    (heap : Heap) (usage : Usage) {limits : Limits} (enough : 3 ≤ limits.steps) (identity : Nat)
    (rest : List Value) (trace : Trace) :
    (∀ m, m ≠ .valid → Accepts ⟨m.name, .userdata (.entity h) identity :: rest, trace⟩ m →
      callBuiltin limits usage (.entity m) (.userdata (.entity h) identity :: rest) trace
          ⟨g, heap⟩ =
        some (.error (.userdata (.fault (.refused
            (staleError ⟨m.name, .userdata (.entity h) identity :: rest, trace⟩ m)))
              heap.nextIdentity),
          ⟨g, { heap with nextIdentity := heap.nextIdentity + 1 }⟩)) ∧
    callBuiltin limits usage (.entity .valid) (.userdata (.entity h) identity :: rest) trace
        ⟨g, heap⟩ = some (.ok [.boolean false], ⟨g, heap⟩) ∧
    ∀ delay think text, Game.postpone h delay think g = (.error .staleEntity, g) ∧
      Game.postponeMessage h delay text g = (.error .staleEntity, g) := by
  have stale := Game.entity_of_stale gone
  have helper (delay : Single) (think : Think) :
      Game.postpone h delay think g = (.error .staleEntity, g) := by
    simp only [Game.postpone, stale]
  refine ⟨fun m other accepts => run_of_stale gone enough other accepts heap, ?valid,
    fun delay think text => ⟨helper delay think, ?message⟩⟩
  case valid =>
    obtain ⟨more, steps⟩ : ∃ more, limits.steps = more + 3 := ⟨limits.steps - 3, by omega⟩
    have invalid : perform usage (.isValid h) ⟨g, heap⟩ = some (false, ⟨g, heap⟩) := by
      simp only [perform, Handle.isValid, gone, Option.isSome_none]
    have asks : (Builtin.run (.entity .valid) (.userdata (.entity h) identity :: rest)
        trace).routine = .ask (.isValid h) fun b => .done [.boolean b] := rfl
    simp only [callBuiltin, asks, Routine.run, steps, Routine.runWith, invalid]
  case message =>
    simp only [Game.postponeMessage, helper]

/-- A handle of an entity that was never there. -/
theorem stale_methods_inert_absent :
    callBuiltin ⟨3, 3, 3⟩ (fun _ _ => none) (.entity .kill)
        [.userdata (.entity ⟨7, 0⟩) 0] [] ⟨Game.new {} 0 1, {}⟩ =
      some (.error (.userdata (.fault (.refused .staleEntity)) 2),
        ⟨Game.new {} 0 1, { nextIdentity := 3 }⟩) := by
  have gone : (⟨7, 0⟩ : Handle).resolve (Game.new {} 0 1).pool = none := by decide
  have enough : 3 ≤ (⟨3, 3, 3⟩ : Limits).steps := by decide
  obtain ⟨inert, -⟩ := stale_methods_inert gone {} (fun _ _ => none) enough 0 [] []
  exact inert .kill (by decide) ⟨none, rfl⟩

end Engine

end EntityScripting
