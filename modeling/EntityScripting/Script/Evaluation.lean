import EntityScripting.Script.Operation
import EntityScripting.Script.Range

/-!
# Evaluation

What the expressions and statements of a program do, by recursion on the program. A call of a
function is a step of its own that the routine leaves to whoever runs it, and loops are given a
number of turns, so evaluation itself always ends.
-/

namespace EntityScripting.Script

open Number Text Activity

/-! ### Scopes -/

namespace Scope

def binding? (scope : Scope) (name : Name) : Option Binding :=
  scope.bindings.find? fun binding => binding.name = name

/-- The scope with one more variable. -/
def declare (scope : Scope) (name : Name) (value : Value) : Activity Scope := do
  let cell ← access (.newCell value)
  return { scope with bindings := ⟨name, cell, scope.depth⟩ :: scope.bindings }

/-- The scope with variables for these names; the values that are missing are nil. -/
def declareAll (scope : Scope) : List Name → List Value → Activity Scope
  | [], _ => pure scope
  | name :: names, values => do
    (← scope.declare name (values.headD .nil)).declareAll names values.tail

def site (scope : Scope) (line : Nat) : Site := ⟨scope.chunk, line⟩

/-- Where the functions are called that are called from this line. -/
def traceAt (scope : Scope) (line : Nat) : Trace := some (scope.site line) :: scope.trace

/-- The trace of a call that takes the place of the running function, as calls of scripts do. -/
def tailTraceAt (scope : Scope) (line : Nat) : Value → Trace
  | .function (.closure _) => scope.trace
  | _ => scope.traceAt line

/-- The name of the variable that holds the global names. -/
def environmentName : Name := utf8 "_ENV"

/-- The table of the global names. -/
def environment (scope : Scope) : Activity Value :=
  match scope.binding? environmentName with
  | some binding => access (.cell binding.cell)
  | none => pure .nil

/-- The value of a name: of the variable, if there is one, and otherwise of the global name. -/
def read (scope : Scope) (name : Name) (line : Nat) : Activity Value :=
  match scope.binding? name with
  | some binding => access (.cell binding.cell)
  | none => do (← scope.environment).index (some (scope.site line)) (.text name)

/-- The cell of an expression that is a variable of the running function. -/
def localCell? (scope : Scope) : Expr → Option CellId
  | .name x _ => (scope.binding? x).bind fun binding =>
    if binding.depth = scope.depth then some binding.cell else none
  | .paren e => scope.localCell? e
  | _ => none

end Scope

/-- The first of some values, nil if there is none. -/
def first (values : Activity (List Value)) : Activity Value := return (← values).headD .nil

/-- An operand that is read late if it is a variable, and computed at once if not. -/
def operand (cell : Option CellId) (compute : Activity (List Value)) : Activity Operand :=
  match cell with
  | some cell => pure (.cell cell)
  | none => return .value (← first compute)

/-- Some values from a list, filled up with nil. -/
def adjusted (count : Nat) (values : List Value) : List Value :=
  values.take count ++ List.replicate (count - values.length) .nil

/-! ### Expressions -/

mutual

/-- The values of an expression: any number for a call or for the further arguments, else one. -/
def evaluate (scope : Scope) : Expr → Activity (List Value)
  | .nil => pure [.nil]
  | .boolean b => pure [.boolean b]
  | .integer n => pure [.integer n]
  | .number x => pure [.number x]
  | .text s => pure [.text s]
  | .varargs => pure scope.varargs
  | .name x line => return [← scope.read x line]
  | .index object key line => do
    let object ← operand (scope.localCell? object) (evaluate scope object)
    let key ← first (evaluate scope key)
    return [← (← object.read).index (some (scope.site line)) key]
  | .call callee args line => do
    let callee ← first (evaluate scope callee)
    let args ← evaluateAll scope args
    call callee args (scope.traceAt line)
  | .method object name args nameLine line => do
    let object ← first (evaluate scope object)
    let callee ← object.index (some (scope.site nameLine)) (.text name)
    let args ← evaluateAll scope args
    call callee (object :: args) (scope.traceAt line)
  | .function params isVararg body =>
    return [.function (.closure (← access (.newClosure ⟨⟨params, isVararg, body⟩, scope⟩)))]
  | .unary op e line => return [← (← first (evaluate scope e)).unary (some (scope.site line)) op]
  | .binary op left right line => do
    let cell := if op = .concat then none else scope.localCell? left
    let left ← operand cell (evaluate scope left)
    let right ← first (evaluate scope right)
    return [← (← left.read).binary (some (scope.site line)) op right]
  | .and left right => do
    let v ← first (evaluate scope left)
    if v.isTrue then return [← first (evaluate scope right)] else return [v]
  | .or left right => do
    let v ← first (evaluate scope left)
    if v.isTrue then return [v] else return [← first (evaluate scope right)]
  | .paren e => return [← first (evaluate scope e)]
  | .table fields => return [.table (← access (.newTable (← evaluateFields scope fields {} [])))]

/-- The values of a list of expressions: one of each but the last, and all of the last. -/
def evaluateAll (scope : Scope) : List Expr → Activity (List Value)
  | [] => pure []
  | [e] => evaluate scope e
  | e :: rest => do
    let v ← first (evaluate scope e)
    return v :: (← evaluateAll scope rest)

/-- The entries of a new table; the items, given last first, are put in when all are known. -/
def evaluateFields (scope : Scope) : List TableField → Entries → List Value → Activity Entries
  | [], entries, items => pure (entries.withItems items.reverse)
  | [.item e], entries, items => do
    return entries.withItems (items.reverse ++ (← evaluate scope e))
  | .item e :: rest, entries, items => do
    let v ← first (evaluate scope e)
    evaluateFields scope rest entries (v :: items)
  | .entry key value line :: rest, entries, items => do
    let key ← operand (scope.localCell? key) (evaluate scope key)
    let v ← first (evaluate scope value)
    match ← key.read with
    | .nil => fail (some (scope.site line)) "table index is nil"
    | key =>
      if key.isNaN then fail (some (scope.site line)) "table index is NaN"
      else evaluateFields scope rest (entries.set key.key v) items

end

/-- The values of what a function returns; a call there takes the place of the function. -/
def evaluateReturn (scope : Scope) : List Expr → Activity (List Value)
  | [.call callee args line] => do
    let callee ← first (evaluate scope callee)
    let args ← evaluateAll scope args
    call callee args (scope.tailTraceAt line callee)
  | [.method object name args nameLine line] => do
    let object ← first (evaluate scope object)
    let callee ← object.index (some (scope.site nameLine)) (.text name)
    let args ← evaluateAll scope args
    call callee (object :: args) (scope.tailTraceAt line callee)
  | values => evaluateAll scope values

/-- The step of a counting loop, one if none is given. -/
def evaluateStep (scope : Scope) : Option Expr → Activity Value
  | some step => first (evaluate scope step)
  | none => pure (.integer 1)

/-! ### Assignments -/

/-- What an assignment writes to. -/
inductive Target where
  | variable (cell : CellId)
  | member (object key : Operand)

namespace Target

/-- The target of an expression, its parts evaluated. -/
def ofExpr (scope : Scope) : Expr → Activity Target
  | .name x _ =>
    match scope.binding? x with
    | some binding => pure (.variable binding.cell)
    | none => return .member (.value (← scope.environment)) (.value (.text x))
  | .index object key _ => do
    let object ← operand (scope.localCell? object) (evaluate scope object)
    return .member object (← operand (scope.localCell? key) (evaluate scope key))
  | _ => pure (.member (.value .nil) (.value .nil))

/-- The target with its operands read. -/
def read : Target → Activity Target
  | .variable cell => pure (.variable cell)
  | .member object key => return .member (.value (← object.read)) (.value (← key.read))

def write (place : Place) (value : Value) : Target → Activity Unit
  | .variable cell => access (.setCell cell value)
  | .member object key => do (← object.read).setIndex place (← key.read) value

end Target

/-- Writes values to targets, to the last one first. -/
def writeAll (place : Place) : List Target → List Value → Activity Unit
  | target :: targets, v :: values => do
    writeAll place targets values
    target.write place v
  | _, _ => pure ()

/-! ### Statements -/

/-- How a statement ends: the next one follows, the loop is left, or the function returns. -/
inductive Flow where
  | next
  | leave
  | ret (values : List Value)

/-- What comes after a block or a loop, unless the function returns or an outer loop is left. -/
def Flow.andThen (flow : Flow) (rest : Activity Flow) : Activity Flow :=
  match flow with
  | .next => rest
  | flow => pure flow

/-- A turn of a loop as a step of its repetition. -/
def Flow.asTurn {σ : Type} (state : σ) : Flow → σ ⊕ Flow
  | .next => .inl state
  | .leave => .inr .next
  | .ret values => .inr (.ret values)

/-- The scope with the variables of a declaration. A variable that is to be closed must hold nil or
false, since no value of a script can be closed. -/
def declareLocals (scope : Scope) (place : Place) :
    List (Name × Attribute) → List Value → Activity Scope
  | [], _ => pure scope
  | (name, kind) :: names, values => do
    let v := values.headD .nil
    if kind = .toClose ∧ v.isTrue then
      fail place ("variable '" ++ lossy name ++ "' got a non-closable value")
    else declareLocals (← scope.declare name v) place names values.tail

mutual

/-- Runs a statement and, unless it ends the block, what comes after it in the scope that it
leaves. -/
def execute (turns : Nat) (scope : Scope) : Statement → (Scope → Activity Flow) → Activity Flow
  | .call e, after => do
    discard (evaluate scope e)
    after scope
  | .declare names values line, after => do
    let values ← evaluateAll scope values
    after (← declareLocals scope (some (scope.site line)) names values)
  | .declareFunction name params isVararg body, after => do
    let cell ← access (.newCell .nil)
    let scope := { scope with bindings := ⟨name, cell, scope.depth⟩ :: scope.bindings }
    let closure ← access (.newClosure ⟨⟨params, isVararg, body⟩, scope⟩)
    access (.setCell cell (.function (.closure closure)))
    after scope
  | .assign targets values line, after => do
    let targets ← targets.mapM (Target.ofExpr scope)
    let values ← evaluateAll scope values
    let targets ← targets.mapM Target.read
    writeAll (some (scope.site line)) targets (adjusted targets.length values)
    after scope
  | .block body, after => do
    (← executeAll turns scope body fun _ => pure .next).andThen (after scope)
  | .whileLoop condition body, after => do
    let flow ← repeatUntil (fun () => do
      if (← first (evaluate scope condition)).isTrue then
        return (← executeAll turns scope body fun _ => pure .next).asTurn ()
      else return .inr .next) turns ()
    flow.andThen (after scope)
  | .repeatLoop body condition, after => do
    let flow ← repeatUntil (fun () => do
      let flow ← executeAll turns scope body fun inner => do
        if (← first (evaluate inner condition)).isTrue then return .leave else return .next
      return flow.asTurn ()) turns ()
    flow.andThen (after scope)
  | .branch condition positive negative, after => do
    let flow ←
      if (← first (evaluate scope condition)).isTrue then
        executeAll turns scope positive fun _ => pure .next
      else executeAll turns scope negative fun _ => pure .next
    flow.andThen (after scope)
  | .countLoop name start limit step body line, after => do
    let start ← first (evaluate scope start)
    let limit ← first (evaluate scope limit)
    let step ← evaluateStep scope step
    match Range.ofValues start limit step with
    | .error e => fail (some (scope.site line)) e.message
    | .ok range =>
      let flow ← repeatUntil (fun range => do
        match range.next? with
        | none => return .inr .next
        | some (v, range) =>
          let inner ← scope.declare name v
          return (← executeAll turns inner body fun _ => pure .next).asTurn range) turns range
      flow.andThen (after scope)
  | .eachLoop names values body line, after => do
    let values := adjusted 4 (← evaluateAll scope values)
    let callee := values.getD 0 .nil
    let state := values.getD 1 .nil
    if (values.getD 3 .nil).isTrue then
      fail (some (scope.site line)) "variable '(for state)' got a non-closable value"
    else
      let flow ← repeatUntil (fun control => do
        let values ← call callee [state, control] (scope.traceAt line)
        match values.headD .nil with
        | .nil => return .inr .next
        | control =>
          let inner ← scope.declareAll names values
          return (← executeAll turns inner body fun _ => pure .next).asTurn control)
        turns (values.getD 2 .nil)
      flow.andThen (after scope)
  | .ret values, _ => return .ret (← evaluateReturn scope values)
  | .leave, _ => pure .leave

/-- Runs statements one after another, and then what comes in the scope that they leave. -/
def executeAll (turns : Nat) (scope : Scope) :
    List Statement → (Scope → Activity Flow) → Activity Flow
  | [], after => after scope
  | statement :: rest, after =>
    execute turns scope statement fun scope => executeAll turns scope rest after

end

/-- Runs a function on its arguments. -/
def Closure.enter (turns : Nat) (closure : Closure) (args : List Value) (trace : Trace) :
    Activity (List Value) := do
  let params := closure.code.params
  let scope := { closure.scope with
    depth := closure.scope.depth + 1
    varargs := if closure.code.isVararg then args.drop params.length else []
    trace }
  let scope ← scope.declareAll params args
  match ← executeAll turns scope closure.code.body fun _ => pure .next with
  | .ret values => return values
  | _ => return []

end EntityScripting.Script
