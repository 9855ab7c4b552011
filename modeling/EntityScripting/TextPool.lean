/-!
# Interned texts

Equal texts share one allocation until the pool is reset. The copies are kept in the order of their
texts, where halving finds one or the place where it belongs. An allocation is known by its number,
and no number is given twice, so texts held from before a reset stay apart from those after it.
-/

namespace EntityScripting

/-- A text and the allocation that holds it. -/
structure Interned where
  text : String
  allocation : Nat
deriving DecidableEq, Repr, Inhabited

/-- The shared copies in the order of their texts, and the next allocation. -/
structure TextPool where
  entries : List Interned := []
  next : Nat := 0
deriving DecidableEq, Repr, Inhabited

namespace TextPool

/-- What a search ends at: the copy of the text, or how many copies come before its place. -/
inductive Place where
  | copy (entry : Interned)
  | slot (before : Nat)
deriving DecidableEq, Repr, Inhabited

/-- The same place behind more copies. -/
def Place.behind (more : Nat) : Place → Place
  | .copy entry => .copy entry
  | .slot before => .slot (more + before)

/-- Looks for a text by the middle copy, then in the half in front of it or behind it. -/
@[semireducible] def seek (text : String) (entries : List Interned) : Place :=
  let half := entries.length / 2
  match upper : entries.drop half with
  | [] => .slot 0
  | middle :: rest =>
    if text = middle.text then .copy middle
    else if text < middle.text then seek text (entries.take half)
    else (seek text rest).behind (half + 1)
termination_by entries.length
decreasing_by
  all_goals
    have counted := congrArg List.length upper
    simp only [List.length_drop, List.length_cons] at counted
  · rw [List.length_take]
    omega
  · omega

/-- The shared copy of a text, made if there is none yet. -/
def intern (s : TextPool) (text : String) : Interned × TextPool :=
  match seek text s.entries with
  | .copy entry => (entry, s)
  | .slot before =>
    let copy := ⟨text, s.next⟩
    (copy, ⟨s.entries.take before ++ copy :: s.entries.drop before, s.next + 1⟩)

/-- A text that is absent stays absent. -/
def intern? (s : TextPool) : Option String → Option Interned × TextPool
  | none => (none, s)
  | some text => let (copy, s) := s.intern text; (some copy, s)

/-- Forgets which texts are shared. -/
def reset (s : TextPool) : TextPool := { s with entries := [] }

def size (s : TextPool) : Nat := s.entries.length

end TextPool

end EntityScripting
