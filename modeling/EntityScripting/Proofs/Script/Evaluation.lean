import EntityScripting.Proofs.Script.Library
import EntityScripting.Proofs.Script.Trace

/-!
# Evaluation is grounded

The expressions and statements of a program name no tables. What they evaluate to, they were given
in a variable, read from a table, got from a call or made; so a function that is called with what is
there uses nothing else, and neither does a whole run (`Routine.trace_grounded`).
-/

namespace EntityScripting.Script

open Number Text Activity

variable {size later : Nat} {place : Place} {turns : Nat} {scope : Scope}

/-! ### Scopes -/

namespace Scope

def Below (size : Nat) (scope : Scope) : Prop := AllBelow size scope.varargs

theorem Below.mono (below : scope.Below size) (grown : size ≤ later) : scope.Below later :=
  AllBelow.mono below grown

theorem grounded_declare (below : scope.Below size) (name : Name) {v : Value}
    (value : v.Below size) : (scope.declare name v).Grounded size Below :=
  .bind (.access value) fun _ _ grown _ => .pure (below.mono grown)

theorem grounded_declareAll (below : scope.Below size) (names : List Name) {values : List Value}
    (given : AllBelow size values) : (scope.declareAll names values).Grounded size Below := by
  induction names generalizing scope values size with
  | nil => exact .pure below
  | cons name names ih =>
    refine .bind (grounded_declare below name given.headD) fun scope _ grown below => ?_
    exact ih below ((given.mono grown).of_subset (List.tail_subset _))

theorem grounded_environment (scope : Scope) : scope.environment.Grounded size Value.Below := by
  unfold environment
  split
  · exact .access trivial
  · exact .pure trivial

theorem grounded_read (scope : Scope) (name : Name) (line : Nat) :
    (scope.read name line).Grounded size Value.Below := by
  unfold read
  split
  · exact .access trivial
  · exact .bind scope.grounded_environment fun _ _ _ below => Value.grounded_index below trivial

end Scope

theorem grounded_first {values : Activity (List Value)} (grounded : values.Grounded size AllBelow) :
    (Script.first values).Grounded size Value.Below :=
  .bind grounded fun _ _ _ below => .pure below.headD

def Operand.Below (size : Nat) : Operand → Prop
  | .value v => v.Below size
  | .cell _ => True

theorem Operand.Below.mono {o : Operand} (below : o.Below size) (grown : size ≤ later) :
    o.Below later := by
  cases o with
  | value v => exact Value.Below.mono below grown
  | cell => trivial

theorem Operand.grounded_read {o : Operand} (below : o.Below size) :
    o.read.Grounded size Value.Below := by
  cases o with
  | value v => exact .pure below
  | cell => exact .access trivial

theorem grounded_operand (cell : Option CellId) {compute : Activity (List Value)}
    (grounded : compute.Grounded size AllBelow) :
    (operand cell compute).Grounded size Operand.Below := by
  cases cell with
  | some => exact .pure trivial
  | none => exact .bind (grounded_first grounded) fun _ _ _ below => .pure below

theorem allBelow_adjusted {values : List Value} (below : AllBelow size values) (count : Nat) :
    AllBelow size (adjusted count values) := by
  refine .append (below.of_subset (List.take_subset ..)) fun value member => ?_
  rw [List.eq_of_mem_replicate member]
  trivial

/-! ### Expressions -/

-- The recursion is on the program, as evaluation itself is. Every part is evaluated in the heap
-- that the parts before it left, so what is held already is carried over to it.
mutual

theorem grounded_evaluate {size : Nat} {scope : Scope} (below : scope.Below size) (e : Expr) :
    (evaluate scope e).Grounded size AllBelow := by
  match e with
  | .nil | .boolean _ | .integer _ | .number _ | .text _ => exact grounded_one trivial
  | .varargs => exact .pure below
  | .name x line => exact grounded_single (scope.grounded_read x line)
  | .index object key line =>
    refine .bind (grounded_operand _ (grounded_evaluate below object)) fun object _ grown held => ?_
    have below := below.mono grown
    refine .bind (grounded_first (grounded_evaluate below key)) fun key _ grown given => ?_
    refine .bind (Operand.grounded_read (held.mono grown)) fun object _ grown held => ?_
    exact grounded_single (Value.grounded_index held (given.mono grown))
  | .call callee args line =>
    refine .bind (grounded_first (grounded_evaluate below callee)) fun callee _ grown _ => ?_
    exact .bind (grounded_evaluateAll (below.mono grown) args) fun _ _ _ given => .call given
  | .method object name args nameLine line =>
    refine .bind (grounded_first (grounded_evaluate below object)) fun object _ grown held => ?_
    have below := below.mono grown
    refine .bind (Value.grounded_index held trivial) fun callee _ grown _ => ?_
    have held := held.mono grown
    exact .bind (grounded_evaluateAll (below.mono grown) args) fun _ _ grown given =>
      .call (.cons (held.mono grown) given)
  | .function params isVararg body =>
    exact .bind (.access trivial) fun _ _ _ _ => grounded_one trivial
  | .unary op e line =>
    exact .bind (grounded_first (grounded_evaluate below e)) fun _ _ _ given =>
      grounded_single (Value.grounded_unary given op)
  | .binary op left right line =>
    refine .bind (grounded_operand _ (grounded_evaluate below left)) fun left _ grown held => ?_
    have below := below.mono grown
    refine .bind (grounded_first (grounded_evaluate below right)) fun right _ grown _ => ?_
    refine .bind (Operand.grounded_read (held.mono grown)) fun left _ _ _ => ?_
    exact grounded_single (Value.grounded_binary op)
  | .and left right =>
    refine .bind (grounded_first (grounded_evaluate below left)) fun v _ grown given => ?_
    have below := below.mono grown
    exact .ite (fun _ => grounded_single (grounded_first (grounded_evaluate below right))) fun _ =>
      grounded_one given
  | .or left right =>
    refine .bind (grounded_first (grounded_evaluate below left)) fun v _ grown given => ?_
    have below := below.mono grown
    exact .ite (fun _ => grounded_one given) fun _ =>
      grounded_single (grounded_first (grounded_evaluate below right))
  | .paren e => exact grounded_single (grounded_first (grounded_evaluate below e))
  | .table fields =>
    have fields := grounded_evaluateFields below fields Entries.grounded_empty .nil
    refine .bind fields fun _ _ _ given => ?_
    exact .bind (.access given) fun _ _ _ made => grounded_one made

theorem grounded_evaluateAll {size : Nat} {scope : Scope} (below : scope.Below size)
    (list : List Expr) : (evaluateAll scope list).Grounded size AllBelow := by
  match list with
  | [] => exact .pure .nil
  | [e] => exact grounded_evaluate below e
  | e :: next :: rest =>
    refine .bind (grounded_first (grounded_evaluate below e)) fun v _ grown given => ?_
    exact .bind (grounded_evaluateAll (below.mono grown) (next :: rest)) fun _ _ grown others =>
      .pure (.cons (given.mono grown) others)

theorem grounded_evaluateFields {size : Nat} {scope : Scope} (below : scope.Below size)
    (fields : List TableField) {entries : Entries} {items : List Value}
    (made : entries.Grounded size) (listed : AllBelow size items) :
    (evaluateFields scope fields entries items).Grounded size Entries.Grounded := by
  -- The items wait last first, and go into the table when the last field has been evaluated.
  have reversed : AllBelow size items.reverse :=
    listed.of_subset (List.reverse_subset.mpr fun _ => id)
  match fields with
  | [] => exact .pure (made.withItems reversed)
  | [.item e] =>
    exact .bind (grounded_evaluate below e) fun _ _ grown given =>
      .pure ((made.mono grown).withItems ((reversed.mono grown).append given))
  | .item e :: field :: rest =>
    refine .bind (grounded_first (grounded_evaluate below e)) fun v _ grown given => ?_
    exact grounded_evaluateFields (below.mono grown) (field :: rest) (made.mono grown)
      (.cons given (listed.mono grown))
  | .entry key value line :: rest =>
    refine .bind (grounded_operand _ (grounded_evaluate below key)) fun key _ grown held => ?_
    have below := below.mono grown
    have made := made.mono grown
    have listed := listed.mono grown
    refine .bind (grounded_first (grounded_evaluate below value)) fun v _ grown given => ?_
    have below := below.mono grown
    have made := made.mono grown
    have listed := listed.mono grown
    refine .bind (Operand.grounded_read (held.mono grown)) fun key _ grown keyBelow => ?_
    split
    · exact .fail
    · refine .ite (fun _ => .fail) fun _ => ?_
      exact grounded_evaluateFields (below.mono grown) rest
        ((made.mono grown).set keyBelow.key (given.mono grown)) (listed.mono grown)

end

theorem grounded_evaluateReturn (below : scope.Below size) (values : List Expr) :
    (evaluateReturn scope values).Grounded size AllBelow := by
  unfold evaluateReturn
  split
  · refine .bind (grounded_first (grounded_evaluate below _)) fun callee _ grown _ => ?_
    exact .bind (grounded_evaluateAll (below.mono grown) _) fun _ _ _ given => .call given
  · refine .bind (grounded_first (grounded_evaluate below _)) fun object _ grown held => ?_
    have below := below.mono grown
    refine .bind (Value.grounded_index held trivial) fun callee _ grown _ => ?_
    have held := held.mono grown
    exact .bind (grounded_evaluateAll (below.mono grown) _) fun _ _ grown given =>
      .call (.cons (held.mono grown) given)
  · exact grounded_evaluateAll below values

theorem grounded_evaluateStep (below : scope.Below size) (step : Option Expr) :
    (evaluateStep scope step).Grounded size Plain := by
  cases step with
  | some step => exact .plain (grounded_first (grounded_evaluate below step))
  | none => exact .pure trivial

/-! ### Assignments -/

namespace Target

def Below (size : Nat) : Target → Prop
  | .variable _ => True
  | .member object key => object.Below size ∧ key.Below size

theorem Below.mono {target : Target} (below : target.Below size) (grown : size ≤ later) :
    target.Below later := by
  cases target with
  | «variable» => trivial
  | member object key => exact ⟨below.1.mono grown, below.2.mono grown⟩

theorem grounded_ofExpr (below : scope.Below size) (e : Expr) :
    (ofExpr scope e).Grounded size Below := by
  unfold ofExpr
  split
  · split
    · exact .pure trivial
    · exact .bind scope.grounded_environment fun _ _ _ below => .pure ⟨below, trivial⟩
  · refine .bind (grounded_operand _ (grounded_evaluate below _)) fun object _ grown held => ?_
    have below := below.mono grown
    refine .bind (grounded_operand _ (grounded_evaluate below _)) fun key _ grown given => ?_
    exact .pure ⟨held.mono grown, given⟩
  · exact .pure ⟨trivial, trivial⟩

theorem grounded_read {target : Target} (below : target.Below size) :
    target.read.Grounded size Below := by
  cases target with
  | «variable» => exact .pure trivial
  | member object key =>
    refine .bind (Operand.grounded_read below.1) fun object _ grown held => ?_
    exact .bind (Operand.grounded_read (below.2.mono grown)) fun key _ grown given =>
      .pure ⟨held.mono grown, given⟩

theorem grounded_write {target : Target} (below : target.Below size) {v : Value}
    (value : v.Below size) : (target.write place v).Grounded size Plain := by
  cases target with
  | «variable» => exact .plain (.access value)
  | member object key =>
    refine .bind (Operand.grounded_read below.1) fun object _ grown held => ?_
    refine .bind (Operand.grounded_read (below.2.mono grown)) fun key _ grown' given => ?_
    exact Value.grounded_setIndex (held.mono grown') given (value.mono (grown.trans grown'))

end Target

theorem grounded_writeAll {targets : List Target} {values : List Value}
    (below : ∀ target ∈ targets, target.Below size) (given : AllBelow size values) :
    (writeAll place targets values).Grounded size Plain := by
  induction targets generalizing values with
  | nil => exact .pure trivial
  | cons target targets ih =>
    cases values with
    | nil => exact .pure trivial
    | cons v values =>
      have others := given.of_subset (List.subset_cons_self v values)
      refine .bind (ih (fun target member => below target (List.mem_cons_of_mem _ member)) others)
        fun _ _ grown _ => ?_
      exact Target.grounded_write ((below target List.mem_cons_self).mono grown)
        ((given v List.mem_cons_self).mono grown)

/-! ### Statements -/

def Flow.Below (size : Nat) : Flow → Prop
  | .ret values => AllBelow size values
  | _ => True

theorem Flow.grounded_andThen {flow : Flow} {rest : Activity Flow} (below : flow.Below size)
    (grounded : rest.Grounded size Below) : (flow.andThen rest).Grounded size Below := by
  cases flow with
  | next => exact grounded
  | leave | ret => exact .pure below

/-- A turn of a loop leaves what it goes on with, or ends the loop. -/
theorem Flow.asTurn_below {σ : Type} {Inv : Nat → σ → Prop} {state : σ} (holds : Inv size state)
    {flow : Flow} (below : flow.Below size) :
    Sum.elim (Inv size) (Below size) (flow.asTurn state) := by
  cases flow with
  | next => exact holds
  | leave => trivial
  | ret => exact below

theorem grounded_declareLocals (below : scope.Below size) (names : List (Name × Attribute))
    {values : List Value} (given : AllBelow size values) :
    (declareLocals scope place names values).Grounded size Scope.Below := by
  induction names generalizing scope values size with
  | nil => exact .pure below
  | cons entry names ih =>
    obtain ⟨name, kind⟩ := entry
    refine .ite (fun _ => .fail) fun _ => ?_
    refine .bind (Scope.grounded_declare below name given.headD) fun scope _ grown below => ?_
    exact ih below ((given.mono grown).of_subset (List.tail_subset _))

/-- Whether what comes after a statement is grounded in every scope that the statement can leave. -/
def GroundedAfter (size : Nat) (after : Scope → Activity Flow) : Prop :=
  ∀ later scope, size ≤ later → scope.Below later → (after scope).Grounded later Flow.Below

theorem GroundedAfter.mono {after : Scope → Activity Flow} (grounded : GroundedAfter size after)
    (grown : size ≤ later) : GroundedAfter later after :=
  fun last scope grown' => grounded last scope (grown.trans grown')

theorem groundedAfter_nothing : GroundedAfter size fun _ => pure .next :=
  fun _ _ _ _ => .pure trivial

theorem Range.below_next? {range rest : Range} {v : Value} (next : range.next? = some (v, rest)) :
    v.Below size := by
  unfold Range.next? at next
  split at next <;> cases next <;> trivial

mutual

theorem grounded_execute {size turns : Nat} {scope : Scope} (below : scope.Below size)
    (statement : Statement) {after : Scope → Activity Flow} (grounded : GroundedAfter size after) :
    (execute turns scope statement after).Grounded size Flow.Below := by
  match statement with
  | .call e =>
    exact .bind (.discard (grounded_evaluate below e)) fun _ _ grown _ =>
      grounded _ _ grown (below.mono grown)
  | .declare names values line =>
    refine .bind (grounded_evaluateAll below values) fun values _ grown given => ?_
    refine .bind (grounded_declareLocals (below.mono grown) names given)
      fun scope _ grown' below => ?_
    exact grounded _ _ (grown.trans grown') below
  | .declareFunction name params isVararg body =>
    refine .bind (.access trivial) fun cell _ grown _ => ?_
    refine .bind (.access trivial) fun closure _ grown' _ => ?_
    refine .bind (.access trivial) fun _ _ further _ => ?_
    have grown := (grown.trans grown').trans further
    exact grounded _ _ grown (Scope.Below.mono below grown)
  | .assign targets values line =>
    have mono (target : Target) (later last : Nat) (grown : later ≤ last)
        (below : target.Below later) : target.Below last := below.mono grown
    have made (e : Expr) (later : Nat) (grown : size ≤ later) :=
      Target.grounded_ofExpr (below.mono grown) e
    refine .bind (.mapM mono targets fun e _ => made e) fun targets _ grown held => ?_
    refine .bind (grounded_evaluateAll (below.mono grown) values) fun values _ grown' given => ?_
    have read (target : Target) (member : target ∈ targets) (later : Nat) (grown : _ ≤ later) :=
      Target.grounded_read ((held target member).mono (grown'.trans grown))
    refine .bind (.mapM mono targets read) fun targets _ further held => ?_
    have written := allBelow_adjusted (given.mono further) targets.length
    refine .bind (grounded_writeAll held written) fun _ _ furthest _ => ?_
    have grown := ((grown.trans grown').trans further).trans furthest
    exact grounded _ _ grown (below.mono grown)
  | .block body =>
    refine .bind (grounded_executeAll below body groundedAfter_nothing) fun flow _ grown given => ?_
    exact Flow.grounded_andThen given (grounded _ _ grown (below.mono grown))
  | .whileLoop condition body =>
    refine .bind (.repeatUntil Plain ?_ turns trivial) fun flow _ grown given =>
      Flow.grounded_andThen given (grounded _ _ grown (below.mono grown))
    rintro ⟨⟩ later grown -
    have below := below.mono grown
    refine .bind (grounded_first (grounded_evaluate below condition)) fun _ _ grown _ =>
      .ite (fun _ => ?_) fun _ => .pure trivial
    exact .bind (grounded_executeAll (below.mono grown) body groundedAfter_nothing)
      fun _ _ _ given => .pure (Flow.asTurn_below trivial given)
  | .repeatLoop body condition =>
    refine .bind (.repeatUntil Plain ?_ turns trivial) fun flow _ grown given =>
      Flow.grounded_andThen given (grounded _ _ grown (below.mono grown))
    rintro ⟨⟩ later grown -
    refine .bind (grounded_executeAll (below.mono grown) body ?_) fun _ _ _ given =>
      .pure (Flow.asTurn_below trivial given)
    -- The condition stands in the scope that the body leaves.
    intro later inner _ below
    exact .bind (grounded_first (grounded_evaluate below condition)) fun _ _ _ _ =>
      .ite (fun _ => .pure trivial) fun _ => .pure trivial
  | .branch condition positive negative =>
    refine .bind (grounded_first (grounded_evaluate below condition)) fun _ later grown _ => ?_
    have below := below.mono grown
    have chosen (body : List Statement)
        (flows : (executeAll turns scope body fun _ => pure .next).Grounded later Flow.Below) :
        (do (← executeAll turns scope body fun _ => pure .next).andThen (after scope) :
          Activity Flow).Grounded later Flow.Below :=
      .bind flows fun _ _ grown' given =>
        Flow.grounded_andThen given (grounded _ _ (grown.trans grown') (below.mono grown'))
    exact .ite (fun _ => chosen positive (grounded_executeAll below positive groundedAfter_nothing))
      fun _ => chosen negative (grounded_executeAll below negative groundedAfter_nothing)
  | .countLoop name start limit step body line =>
    refine .bind (grounded_first (grounded_evaluate below start)) fun start _ grown _ => ?_
    refine .bind (grounded_first (grounded_evaluate (below.mono grown) limit))
      fun limit _ grown' _ => ?_
    have grown := grown.trans grown'
    refine .bind (grounded_evaluateStep (below.mono grown) step) fun step _ grown' _ => ?_
    have grown := grown.trans grown'
    split
    · exact .fail
    refine .bind (.repeatUntil Plain ?_ turns trivial) fun flow _ grown' given =>
      have grown := grown.trans grown'
      Flow.grounded_andThen given (grounded _ _ grown (below.mono grown))
    intro range later grown' _
    have below := below.mono (grown.trans grown')
    split
    · exact .pure trivial
    · rename_i next
      refine .bind (Scope.grounded_declare below name (Range.below_next? next))
        fun _ _ _ below => ?_
      exact .bind (grounded_executeAll below body groundedAfter_nothing) fun _ _ _ flows =>
        .pure (Flow.asTurn_below trivial flows)
  | .eachLoop names values body line =>
    refine .bind (grounded_evaluateAll below values) fun values _ grown given => ?_
    have given := allBelow_adjusted given 4
    refine .ite (fun _ => .fail) fun _ => ?_
    refine .bind (.repeatUntil Value.Below ?_ turns (given.getD 2)) fun flow _ grown' given =>
      have grown := grown.trans grown'
      Flow.grounded_andThen given (grounded _ _ grown (below.mono grown))
    intro control later grown' held
    have state := (given.getD 1).mono grown'
    refine .bind (.call (.cons state (.cons held .nil))) fun values _ further given => ?_
    have below := below.mono ((grown.trans grown').trans further)
    split
    · exact .pure trivial
    · refine .bind (Scope.grounded_declareAll below names given) fun inner _ grown below => ?_
      refine .bind (grounded_executeAll below body groundedAfter_nothing) fun _ _ grown' flows => ?_
      exact .pure (Flow.asTurn_below (given.headD.mono (grown.trans grown')) flows)
  | .ret values => exact .bind (grounded_evaluateReturn below values) fun _ _ _ given => .pure given
  | .leave => exact .pure trivial

theorem grounded_executeAll {size turns : Nat} {scope : Scope} (below : scope.Below size)
    (statements : List Statement) {after : Scope → Activity Flow}
    (grounded : GroundedAfter size after) :
    (executeAll turns scope statements after).Grounded size Flow.Below := by
  match statements with
  | [] => exact grounded _ _ (Nat.le_refl _) below
  | statement :: rest =>
    exact grounded_execute below statement fun later scope grown below =>
      grounded_executeAll below rest (grounded.mono grown)

end

/-! ### Calls -/

theorem Activity.Grounded.routine {x : Activity (List Value)}
    (grounded : x.Grounded size AllBelow) : x.routine.Grounded size :=
  grounded .done fun _ _ _ below => below

theorem Closure.grounded_enter (closure : Closure) {args : List Value} (below : AllBelow size args)
    (trace : Trace) : (closure.enter turns args trace).Grounded size AllBelow := by
  have entered : Scope.Below size { closure.scope with
      depth := closure.scope.depth + 1
      varargs := if closure.code.isVararg then args.drop closure.code.params.length else []
      trace } := by
    unfold Scope.Below
    split
    · exact below.of_subset (List.drop_subset ..)
    · exact .nil
  refine .bind (Scope.grounded_declareAll entered _ below) fun scope _ _ inner => ?_
  refine .bind (grounded_executeAll inner closure.code.body groundedAfter_nothing)
    fun flow _ _ flows => ?_
  split
  · exact .pure flows
  · exact .pure .nil

/-- A call with what is there is grounded, whatever is called. -/
theorem Value.grounded_invoke (callee : Value) {args : List Value} (below : AllBelow size args)
    (trace : Trace) : (callee.invoke turns args trace).Grounded size := by
  unfold invoke
  split
  · rename_i f
    have reads : (Access.closure f).Grounded size := trivial
    refine Grounded.routine (.bind (.access reads) fun found _ grown _ => ?_)
    split
    · exact Closure.grounded_enter _ (below.mono grown) trace
    · exact .pure .nil
  · exact (Builtin.grounded_run _ below trace).routine
  · rename_i cursor
    have reads : (Access.advance cursor).Grounded size := trivial
    exact (grounded_single (.access reads)).routine
  · exact Grounded.routine .fail

namespace Routine

def Frame.Grounded (size : Nat) : Frame → Prop
  | .next rest =>
    ∀ values later, size ≤ later → AllBelow later values → (rest values).Grounded later
  | .guard rest =>
    ∀ outcome later, size ≤ later → Outcome.Below later outcome → (rest outcome).Grounded later

theorem Frame.Grounded.mono {frame : Frame} (grounded : Frame.Grounded size frame)
    (grown : size ≤ later) : Frame.Grounded later frame := by
  cases frame with
  | next => exact fun values last grown' => grounded values last (grown.trans grown')
  | guard => exact fun outcome last grown' => grounded outcome last (grown.trans grown')

end Routine

/-- Whether what is done is done on an intact heap and with what is there. -/
def Happening.Grounded {σ : Type} : Happening σ → Prop
  | .access a world => world.heap.Intact ∧ a.Grounded world.heap.tables.size
  | .ask _ world => world.heap.Intact

namespace Routine

/-- What is kept while grounded routines run: the heap stays intact, and no table is lost. -/
structure Grounds {σ : Type} (perform : Performer σ) (Good : World σ → Prop) : Prop where
  intact : ∀ {world : World σ}, Good world → world.heap.Intact
  access : ∀ {α : Type} (access : Access α) {world : World σ}, Good world →
    access.Grounded world.heap.tables.size → Good ⟨world.state, (access.run world.heap).2⟩
  ask : ∀ {α : Type} (request : Request α) {world next : World σ} {answer : α}, Good world →
    perform request world = some (answer, next) →
    Good next ∧ world.heap.tables.size ≤ next.heap.tables.size

/-- All that a grounded routine does is done on intact heaps and with what is there. -/
theorem trace_grounded {σ : Type} {perform : Performer σ} {inside : Inside σ}
    {Good : World σ → Prop} (grounds : Grounds perform Good)
    (within : ∀ {α : Type} (request : Request α) {world : World σ}, Good world →
      ∀ happening ∈ inside request world, happening.Grounded)
    {steps : Nat} {routine : Routine} {frames : List Frame} {world : World σ} (good : Good world)
    (grounded : routine.Grounded world.heap.tables.size)
    (waiting : ∀ frame ∈ frames, Frame.Grounded world.heap.tables.size frame) :
    ∀ happening ∈ trace turns perform inside steps routine frames world, happening.Grounded := by
  -- The calls under way wait while the heap grows, and go on in whatever it has grown to.
  induction steps generalizing routine frames world with
  | zero => exact fun _ member => nomatch member
  | succ steps ih =>
    match routine, frames with
    | .done _, [] | .raise _, [] | .exhausted, _ => exact fun _ member => nomatch member
    | .done values, .next rest :: frames =>
      obtain ⟨top, below⟩ := List.forall_mem_cons.mp waiting
      exact ih good (top values _ (Nat.le_refl _) grounded) below
    | .done values, .guard rest :: frames =>
      obtain ⟨top, below⟩ := List.forall_mem_cons.mp waiting
      exact ih good (top (.ok values) _ (Nat.le_refl _) grounded) below
    | .raise _, .next _ :: frames =>
      exact ih good grounded (List.forall_mem_cons.mp waiting).2
    | .raise error, .guard rest :: frames =>
      obtain ⟨top, below⟩ := List.forall_mem_cons.mp waiting
      exact ih good (top (.error error) _ (Nat.le_refl _) grounded) below
    | .access a rest, frames =>
      obtain ⟨made, goesOn⟩ := grounded
      obtain ⟨-, grown, given⟩ := (grounds.intact good).access a made
      intro happening member
      rcases List.mem_cons.mp member with rfl | later
      · exact ⟨grounds.intact good, made⟩
      · exact ih (grounds.access a good made) (goesOn _ _ grown given)
          (fun frame waits => (waiting frame waits).mono grown) _ later
    | .ask request rest, frames =>
      intro happening member
      rcases List.mem_cons.mp member with rfl | member
      · exact grounds.intact good
      rcases List.mem_append.mp member with inner | later
      · exact within request good _ inner
      · split at later
        · rename_i answer next answered
          obtain ⟨good, grown⟩ := grounds.ask request good answered
          exact ih good (grounded answer _ grown)
            (fun frame waits => (waiting frame waits).mono grown) _ later
        · cases later
    | .call callee args place rest, frames =>
      obtain ⟨below, goesOn⟩ := grounded
      exact ih good (callee.grounded_invoke below place)
        (List.forall_mem_cons.mpr ⟨goesOn, waiting⟩)
    | .guard callee args place rest, frames =>
      obtain ⟨below, goesOn⟩ := grounded
      exact ih good (callee.grounded_invoke below place)
        (List.forall_mem_cons.mpr ⟨goesOn, waiting⟩)
    | .pause rest, frames => exact ih good grounded waiting

end Routine

end EntityScripting.Script
