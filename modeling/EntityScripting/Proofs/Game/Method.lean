import EntityScripting.Proofs.Game.Entry
import EntityScripting.Proofs.Script.Ending

/-!
# Calls of the engine's functions

What a script has when it calls a function of the engine: the arguments are converted first, and then
there is one request. `pool_of_method_error` says that a method which raises an error has left the
pool as it was.
-/

namespace EntityScripting.Engine

open Number Script

def callBuiltin (limits : Limits) (usage : Usage) (b : Builtin) (args : List Value) (trace : Trace)
    (engine : Engine) : Option (Routine.Outcome × Engine) :=
  (b.run args trace).routine.run limits (perform usage) engine

theorem good_of_call {limits : Limits} {usage : Usage} {b : Builtin} {args : List Value}
    {trace : Trace} {g : Game} {heap : Heap} {good : Routine.Outcome → Game → Prop}
    (ends : Routine.Ends (perform usage) good g (b.run args trace).routine)
    {outcome : Routine.Outcome} {last : Engine}
    (called : callBuiltin limits usage b args trace ⟨g, heap⟩ = some (outcome, last)) :
    good outcome last.state :=
  ends _ _ _ _ _ called

def Spares (g : Game) (outcome : Routine.Outcome) (last : Game) : Prop :=
  ∀ error, outcome = .error error → last.pool = g.pool

variable {g : Game} {usage : Usage}

theorem spares_same (outcome : Routine.Outcome) : Spares g outcome g := fun _ _ => rfl

theorem spares_ok (values : List Value) (last : Game) : Spares g (.ok values) last :=
  fun _ raised => by cases raised

/-- A request that leaves the pool as it was if it is refused is all that counts in a call. -/
theorem ends_asking {α : Type} {request : Request (Except ScriptError α)} {next : α → Routine}
    (refused : ∀ heap e last, perform usage request ⟨g, heap⟩ = some (.error e, last) →
      last.state.pool = g.pool)
    (rest : ∀ heap a last, perform usage request ⟨g, heap⟩ = some (.ok a, last) →
      Routine.Ends (perform usage) (Spares g) last.state (next a)) :
    Routine.Ends (perform usage) (Spares g) g
      (.ask request fun answer => Activity.orRefuse answer next) := by
  refine .ask fun heap answer last performed => .orRefuse ?_ ?_
  · rintro a rfl
    exact rest heap a last performed
  · rintro e identity rfl _ -
    exact refused heap e last performed

theorem ends_done (values : List Value) (last : Game) :
    Routine.Ends (perform usage) (Spares g) last (.done values) := .done (spares_ok values last)

theorem ends_trigger {h : Handle} {delay : Single} {next : Unit → Routine}
    (rest : ∀ last, Routine.Ends (perform usage) (Spares g) last (next ())) :
    Routine.Ends (perform usage) (Spares g) g
      (.ask (.trigger h delay) fun answer => Activity.orRefuse answer next) := by
  refine ends_asking (fun heap e last performed => ?_) fun _ _ last _ => rest last.state
  simp only [perform] at performed
  rcases Game.trigger_cases h delay g with ⟨-, same⟩ | ⟨posted, -⟩ | ⟨event, now⟩
  · generalize Game.trigger h delay g = result at same performed
    obtain ⟨_ | _ | event, g'⟩ := result
    · cases performed
      exact same
    · cases performed
    · dsimp only at performed
      split at performed <;> cases performed
  · generalize Game.trigger h delay g = result at posted performed
    obtain ⟨outcome, g'⟩ := result
    cases posted
    cases performed
  · -- What is used at once may change the pool, but the script is told of no error then.
    rw [now] at performed
    dsimp only at performed
    split at performed <;> cases performed

/-- The same for what is not used at once: it is refused and leaves the pool as it was, or granted. -/
theorem ends_primitive {α : Type} {request : Request (Except ScriptError α)} {next : α → Routine}
    {result : Except ScriptError α × Game} (settled : g.Refuses result ∨ ∃ a, result.1 = .ok a)
    (performs : ∀ heap, perform usage request ⟨g, heap⟩ = some (result.1, ⟨result.2, heap⟩))
    (rest : ∀ a last, Routine.Ends (perform usage) (Spares g) last (next a)) :
    Routine.Ends (perform usage) (Spares g) g
      (.ask request fun answer => Activity.orRefuse answer next) := by
  refine ends_asking (fun heap e last performed => ?_) fun _ a last _ => rest a last.state
  rw [performs] at performed
  obtain ⟨refused, rfl⟩ := Prod.mk.inj (Option.some.inj performed)
  rcases settled with ⟨-, same⟩ | ⟨a, granted⟩
  · exact same
  · rw [granted] at refused
    cases refused

theorem settled_read {α : Type} (answer : Except ScriptError α) :
    g.Refuses (answer, g) ∨ ∃ a, answer = .ok a := by
  cases answer with
  | error e => exact .inl (Game.refuses e rfl)
  | ok a => exact .inr ⟨a, rfl⟩

theorem settled_setField (h : Handle) (name : String) (d : Datum) :
    g.Refuses (Game.setField h name d g) ∨ ∃ a, (Game.setField h name d g).1 = .ok a := by
  unfold Game.setField
  split
  · exact .inl (Game.refuses _ rfl)
  · exact .inr ⟨(), rfl⟩

theorem settled_kill (h : Handle) (delay : Single) :
    g.Refuses (Game.kill h delay g) ∨ ∃ a, (Game.kill h delay g).1 = .ok a := by
  rcases Game.kill_cases h delay g with refused | ⟨later, -⟩ | ⟨-, -, now⟩
  · exact .inl refused
  · exact .inr ⟨(), later⟩
  · exact .inr ⟨(), by rw [now]⟩

theorem ends_method (m : EntityMethod) (call : Invocation) :
    Routine.Ends (perform usage) (Spares g) g (m.run call).routine := by
  have raised (error : Value) : Spares g (.error error) g := spares_same _
  have flag (h : Handle) (f : EntityFlag) : Routine.Ends (perform usage) (Spares g) g
      (.ask (.flag h f) fun answer => Activity.orRefuse answer fun b => .done [.boolean b]) :=
    ends_primitive (settled_read (g.flag h f)) (fun _ => rfl) fun _ last => ends_done _ last
  refine .receiver raised fun data identity others h args accepted => ?_
  cases m with
  | get =>
    refine .takeOf raised fun name _ =>
      ends_primitive (settled_read (g.getField h name)) (fun _ => rfl) fun value last => ?_
    match value with
    | .text none | .text (some _) | .float _ | .integer _ => exact ends_done _ last
    | .vector v => exact .wrap fun _ => ends_done _ last
  | set =>
    exact .takeOf raised fun name _ =>
      ends_primitive (settled_setField h name _) (fun _ => rfl) fun _ last => ends_done _ last
  | trigger => exact .takeOf raised fun delay _ => ends_trigger fun last => ends_done _ last
  | kill =>
    exact .takeOf raised fun delay _ =>
      ends_primitive (settled_kill h (delay.getD {})) (fun _ => rfl) fun _ last => ends_done _ last
  | message =>
    refine .takeOf raised fun text _ => .takeOf raised fun delay _ =>
      ends_primitive ?_ (fun _ => rfl) fun _ last => ends_done _ last
    exact (Game.message_cases h text (delay.getD {}) g).imp_right fun shown => ⟨(), shown.1⟩
  | give =>
    refine .takeOf raised fun name _ =>
      ends_primitive ?_ (fun _ => rfl) fun _ last => ends_done _ last
    refine (Game.give_cases h name g).imp_right ?_
    rintro ⟨item, id, p, f, -, -, -, -, offered, -⟩
    exact ⟨_, offered⟩
  | player => exact flag h .player
  | monster => exact flag h .monster
  | damageable => exact flag h .damageable
  | valid => exact .ask fun _ _ last _ => ends_done _ last.state

/-- A method that raises an error has left the pool as it was. -/
theorem pool_of_method_error {limits : Limits} {m : EntityMethod} {args : List Value} {trace : Trace}
    {heap : Heap} {error : Value} {last : Engine}
    (called : callBuiltin limits usage (.entity m) args trace ⟨g, heap⟩ =
      some (.error error, last)) : last.state.pool = g.pool :=
  good_of_call (ends_method m _) called error rfl

end EntityScripting.Engine
