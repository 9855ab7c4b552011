import EntityScripting.Entity.Basic

/-!
# The trigger stack

One frame for each script function that is running: the entity it runs for and the one that set it
off. Both are handles, since either may be freed meanwhile. `pop_push` says that popping the index
that a push gave restores the stack without a record.
-/

namespace EntityScripting

/-- The entities of a running script function. -/
structure TriggerFrame where
  self : Handle
  activator : Option Handle := none
deriving DecidableEq, Repr, Inhabited

/-- The frames, the innermost first. -/
structure TriggerStack where
  frames : List TriggerFrame := []
deriving DecidableEq, Repr, Inhabited

namespace TriggerStack

def depth (s : TriggerStack) : Nat := s.frames.length

def current? (s : TriggerStack) : Option TriggerFrame := s.frames.head?

/-- The stack with one more frame; its index is the depth before. -/
def push (s : TriggerStack) (frame : TriggerFrame) : TriggerStack := ⟨frame :: s.frames⟩

/-- Drops the frame of an index and all above it, with a record if it is not the innermost one. -/
def pop (s : TriggerStack) (index : Nat) : Logged TriggerStack :=
  let rest : TriggerStack := ⟨s.frames.drop (s.depth - index)⟩
  if index + 1 = s.depth then pure rest
  else .note .warn s!"trigger frame {index} popped at depth {s.depth}; unwinding" rest

theorem pop_push (s : TriggerStack) (frame : TriggerFrame) :
    (s.push frame).pop s.depth = ⟨s, []⟩ := by
  simp [push, pop, depth, pure]

end TriggerStack

end EntityScripting
