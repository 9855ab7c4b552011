import EntityScripting.Proofs.Game.Session

/-!
# The context of level functions

All scripts share one trigger stack, and ask it who they run for. `trigger_context` says that no
script can tell: each function is answered as if it had been handed its own frame, however many uses
lie inside it and however they end, and no frame stays behind.
-/

namespace EntityScripting

open Number Script

def TriggerFrame.of (g : Game) (event : UseEvent) : TriggerFrame :=
  ⟨g.pool.wrap event.target, event.activator.map g.pool.wrap⟩

def Game.entering (g : Game) (frame : TriggerFrame) : Game :=
  { g with triggers := g.triggers.push frame }

namespace Engine

/-- Answers as `perform` does, except that the context is a frame that is given. -/
def performAs (frame : TriggerFrame) (usage : Usage) {α : Type} (request : Request α)
    (engine : Engine) : Option (α × Engine) :=
  match request with
  | .context => some ((some frame.self, frame.activator), engine)
  | request => perform usage request engine

/-- Calls a level function that is handed its frame. The stack is put back as it was, with no record
of it. -/
def callOwn (limits : Limits) (usage : Usage) (callee : Callee) (label name : String) :
    Usage := fun event engine =>
  let ⟨g, heap⟩ := engine
  let frame := TriggerFrame.of g event
  let routine := callRoutine callee frame.self (event.other.map g.pool.wrap) frame.activator
  match routine.run limits (performAs frame usage) ⟨g.entering frame, heap⟩ with
  | none => none
  | some (.ok _, ⟨last, heap⟩) => some ⟨{ last with triggers := g.triggers }, heap⟩
  | some (.error e, ⟨last, heap⟩) =>
    let last := last.note .warn
      s!"{label} error calling function {name}: {(e.causeWith last.describe).message}"
    some ⟨{ last with triggers := g.triggers }, heap⟩

theorem context_entering (g : Game) (frame : TriggerFrame) :
    (g.entering frame).context = (some frame.self, frame.activator) := by
  cases frame
  rfl

/-- While the stack is the one that a function began with, it answers with the function's frame. -/
theorem performAs_eq {g : Game} {frame : TriggerFrame} (usage : Usage) {α : Type}
    (request : Request α) {engine : Engine} (kept : (g.entering frame).Keeps engine.state) :
    perform usage request engine = performAs frame usage request engine := by
  cases request with
  | context =>
    obtain ⟨now, heap⟩ := engine
    have top : now.triggers = (g.entering frame).triggers := kept.triggers
    have same : now.context = (g.entering frame).context := by
      simp only [Game.context, top]
    simp only [perform, performAs, same, context_entering]
  | _ => rfl

theorem run_entering {usage : Usage} (uses : UsageKeeps usage) (limits : Limits)
    (routine : Routine) (g : Game) (frame : TriggerFrame) (heap : Heap) :
    routine.run limits (perform usage) ⟨g.entering frame, heap⟩ =
      routine.run limits (performAs frame usage) ⟨g.entering frame, heap⟩ :=
  Routine.runWith_congr (kept_perform uses (g.entering frame))
    (fun request _ kept => performAs_eq usage request kept) limits.turns limits.steps routine []
    (.refl _)

/-- The frame that a function began with is on top when the function ends. -/
theorem pop_entering {usage : Usage} (uses : UsageKeeps usage) {limits : Limits}
    {routine : Routine} {g : Game} {frame : TriggerFrame} {heap : Heap} {last : Engine}
    {outcome : Routine.Outcome}
    (ran : routine.run limits (perform usage) ⟨g.entering frame, heap⟩ = some (outcome, last)) :
    last.state.triggers.pop g.triggers.depth = ⟨g.triggers, []⟩ := by
  have top : last.state.triggers = g.triggers.push frame := (run_keeps uses ran).triggers
  rw [top, TriggerStack.pop_push]

theorem callScript_eq_callOwn {usage : Usage} (uses : UsageKeeps usage) (limits : Limits)
    (callee : Callee) (label name : String) :
    callScript limits usage callee label name = callOwn limits usage callee label name := by
  funext event ⟨g, heap⟩
  have same := run_entering uses limits
    (callRoutine callee (g.pool.wrap event.target) (event.other.map g.pool.wrap)
      (event.activator.map g.pool.wrap)) g (.of g event) heap
  unfold callScript callOwn
  dsimp only [Game.entering, TriggerFrame.of] at same ⊢
  rw [← same]
  split
  · rename_i none
    rw [none]
  · rename_i outcome last heap' ran
    rw [ran]
    have popped := pop_entering uses ran
    cases outcome with
    | ok values => simp only [popped, Array.appendList_nil]
    | error e => simp only [Game.note, popped, Array.appendList_nil]

/-- For every depth of uses inside one another: a use leaves the stack as it was; a level function
is called as if it were handed its own frame, with nothing said about the stack; its frame is on top
when it ends, by an error or not; and between the commands of a session there is no frame at all. -/
theorem trigger_context (limits : Limits) :
    (∀ depth event engine next, useWithin limits depth event engine = some next →
      next.state.triggers = engine.state.triggers) ∧
    (∀ depth callee label name, callScript limits (useWithin limits depth) callee label name =
      callOwn limits (useWithin limits depth) callee label name) ∧
    (∀ depth (g : Game) frame heap routine outcome last,
      Routine.run limits (perform (useWithin limits depth)) routine ⟨g.entering frame, heap⟩ =
        some (outcome, last) →
      last.state.triggers.pop g.triggers.depth = ⟨g.triggers, []⟩) ∧
    ∀ engine, Reachable limits engine → engine.state.triggers = {} := by
  refine ⟨fun depth event engine next used => ?balance, fun depth callee label name => ?own,
    fun depth g frame heap routine outcome last ran => ?top, fun engine reachable => ?idle⟩
  case balance => exact (useWithin_keeps limits depth used).triggers
  case own => exact callScript_eq_callOwn (useWithin_keeps limits depth) limits callee label name
  case top => exact pop_entering (useWithin_keeps limits depth) ran
  case idle => exact reachable.triggers

/-- A relay in slot 2, the script entity that it uses, and a function that asks for its context. -/
def relayedScript : Engine where
  state :=
    { config := {}
      pool := ((Pool.new {}).grow.grow.modifyBody 2 fun body =>
        { body with use := some .relay, fields := { target := some "door" } }).modifyBody 3 fun body =>
          { body with
            use := some .script
            fields := { targetname := some "door", scriptFunction := some "open" } }
      level := some ⟨"base1", 0⟩
      api := 0 }
  heap :=
    { stores := #[{ bindings := .ofList [(Text.utf8 "open", .builtin (.engine .context))] }] }

theorem trigger_context_relayed :
    (∃ next, useWithin ⟨20, 20, 2⟩ 2 ⟨2, none, some 1⟩ relayedScript = some next ∧
      next.state.triggers = relayedScript.state.triggers) ∧
    (∃ outcome last, Routine.run ⟨20, 20, 2⟩ (perform (useWithin ⟨20, 20, 2⟩ 1))
        (callRoutine (.builtin (.engine .context)) ⟨3, 0⟩ none none)
        ⟨relayedScript.state.entering ⟨⟨3, 0⟩, none⟩, relayedScript.heap⟩ = some (outcome, last) ∧
      last.state.triggers.pop 0 = ⟨{}, []⟩) ∧
    Reachable ⟨20, 20, 2⟩ (Engine.new {} 1) ∧ (Engine.new {} 1).state.triggers = {} := by
  obtain ⟨balance, -, top, idle⟩ := trigger_context ⟨20, 20, 2⟩
  refine ⟨?_, ?_, .new {} 1, idle _ (.new {} 1)⟩
  · obtain ⟨next, used⟩ := Option.isSome_iff_exists.mp
      (show (useWithin ⟨20, 20, 2⟩ 2 ⟨2, none, some 1⟩ relayedScript).isSome by decide +kernel)
    exact ⟨next, used, balance _ _ _ _ used⟩
  · obtain ⟨⟨outcome, last⟩, ran⟩ := Option.isSome_iff_exists.mp
      (show (Routine.run ⟨20, 20, 2⟩ (perform (useWithin ⟨20, 20, 2⟩ 1))
        (callRoutine (.builtin (.engine .context)) ⟨3, 0⟩ none none)
        ⟨relayedScript.state.entering ⟨⟨3, 0⟩, none⟩, relayedScript.heap⟩).isSome by
          decide +kernel)
    exact ⟨outcome, last, ran, top _ _ _ _ _ _ _ ran⟩

end Engine

end EntityScripting
