import EntityScripting.Script.Grammar

/-!
# Well-formed programs

What the grammar leaves open: a constant is never assigned, a break stands in a loop, and the
further arguments are named only in a function that takes them. `Program.read?` accepts exactly the
well-formed programs.
-/

namespace EntityScripting.Script

open Text

/-- What surrounds a part of a program. -/
structure Surroundings where
  /-- The local variables, the innermost first, each with whether it may be assigned. -/
  names : List (Name × Bool) := []
  inLoop : Bool := false
  isVararg : Bool := true

namespace Surroundings

def declare (s : Surroundings) (names : List (Name × Bool)) : Surroundings :=
  { s with names := names.reverse ++ s.names }

/-- Whether a name may be assigned; a global one always may. -/
def isAssignable (s : Surroundings) (x : Name) : Bool :=
  match s.names.find? fun entry => entry.1 == x with
  | some (_, assignable) => assignable
  | none => true

def looping (s : Surroundings) : Surroundings := { s with inLoop := true }

/-- The surroundings of the body of a function. -/
def function (s : Surroundings) (params : List Name) (isVararg : Bool) : Surroundings :=
  { (s.declare (params.map (·, true))) with inLoop := false, isVararg }

end Surroundings

/-- The local variables that a statement leaves to the rest of its block. -/
def Statement.declared : Statement → List (Name × Bool)
  | .declare names _ _ => names.map fun (x, a) => (x, a == .variable)
  | .declareFunction x _ _ _ => [(x, true)]
  | _ => []

/-- The surroundings at the end of a block. -/
def Surroundings.after (s : Surroundings) (body : List Statement) : Surroundings :=
  body.foldl (fun s statement => s.declare statement.declared) s

mutual

def Expr.wellFormed (s : Surroundings) : Expr → Bool
  | .varargs => s.isVararg
  | .index object key _ => object.wellFormed s && key.wellFormed s
  | .call callee args _ => callee.wellFormed s && exprsWellFormed s args
  | .method object _ args _ _ => object.wellFormed s && exprsWellFormed s args
  | .function params isVararg body => bodyWellFormed (s.function params isVararg) body
  | .unary _ operand _ => operand.wellFormed s
  | .binary _ left right _ => left.wellFormed s && right.wellFormed s
  | .and left right => left.wellFormed s && right.wellFormed s
  | .or left right => left.wellFormed s && right.wellFormed s
  | .paren inner => inner.wellFormed s
  | .table fields => fieldsWellFormed s fields
  | _ => true

def exprsWellFormed (s : Surroundings) : List Expr → Bool
  | [] => true
  | e :: rest => e.wellFormed s && exprsWellFormed s rest

def TableField.wellFormed (s : Surroundings) : TableField → Bool
  | .item value => value.wellFormed s
  | .entry key value _ => key.wellFormed s && value.wellFormed s

def fieldsWellFormed (s : Surroundings) : List TableField → Bool
  | [] => true
  | field :: rest => field.wellFormed s && fieldsWellFormed s rest

def Statement.wellFormed (s : Surroundings) : Statement → Bool
  | .call e => e.wellFormed s
  | .declare names values _ =>
    exprsWellFormed s values && decide ((names.filter fun x => x.2 == .toClose).length ≤ 1)
  | .declareFunction x params isVararg body =>
    bodyWellFormed ((s.declare [(x, true)]).function params isVararg) body
  | .assign targets values _ => targetsWellFormed s targets && exprsWellFormed s values
  | .block body => bodyWellFormed s body
  | .whileLoop condition body => condition.wellFormed s && bodyWellFormed s.looping body
  | .repeatLoop body condition =>
    bodyWellFormed s.looping body && condition.wellFormed (s.after body)
  | .branch condition positive negative =>
    condition.wellFormed s && bodyWellFormed s positive && bodyWellFormed s negative
  | .countLoop x start limit step body _ =>
    start.wellFormed s && limit.wellFormed s && (match step with
      | some step => step.wellFormed s
      | none => true)
    && bodyWellFormed (s.looping.declare [(x, true)]) body
  | .eachLoop names values body _ =>
    exprsWellFormed s values && bodyWellFormed (s.looping.declare (names.map (·, true))) body
  | .ret values => exprsWellFormed s values
  | .leave => s.inLoop

def targetsWellFormed (s : Surroundings) : List Expr → Bool
  | [] => true
  | .name x _ :: rest => s.isAssignable x && targetsWellFormed s rest
  | e :: rest => e.wellFormed s && targetsWellFormed s rest

def bodyWellFormed (s : Surroundings) : List Statement → Bool
  | [] => true
  | statement :: rest =>
    statement.wellFormed s && bodyWellFormed (s.declare statement.declared) rest

end

/-- The program of a script: its statements, if they are well-formed. -/
def Program.read? (source : Bytes) : Option FunctionBody := do
  let body ← Grammar.program (← Lexeme.scan? source)
  if bodyWellFormed {} body then some { params := [], isVararg := true, body } else none

end EntityScripting.Script
