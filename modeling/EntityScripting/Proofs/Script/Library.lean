import EntityScripting.Proofs.Script.Grounding
import EntityScripting.Script.Execution

/-!
# The library is grounded

No operation on values and no built-in function names a table but those that it is given, reads or
makes.
-/

namespace EntityScripting.Script

open Number Text

variable {α : Type} {size later : Nat} {place : Place} {v w : Value} {Gives : Nat → α → Prop}

/-! ### Operations -/

namespace Value

theorem grounded_ofScriptValue (value : ScriptValue) :
    (ofScriptValue value).Grounded size Below := by
  cases value with
  | entity | vector => exact .wrap
  | _ => exact .pure trivial

theorem grounded_ofHandle? (h : Option Handle) : (ofHandle? h).Grounded size Below := by
  cases h with
  | some => exact .wrap
  | none => exact .pure trivial

theorem grounded_toText (v : Value) : (toText v).Grounded size Plain := by
  unfold toText
  split
  · exact .bind .ask fun _ _ _ _ => .pure trivial
  · exact .pure trivial

theorem grounded_toCause (error : Value) : (toCause error).Grounded size Plain := by
  unfold toCause
  split
  · exact .bind .ask fun _ _ _ _ => .pure trivial
  · exact .pure trivial

theorem below_memberOf {β : Type} (all : List β) (name : β → String) (make : β → Builtin)
    (key : Bytes) : (memberOf all name make key).Below size := by
  unfold memberOf
  split <;> trivial

theorem grounded_index (object : v.Below size) (key : w.Below size) :
    (index place v w).Grounded size Below := by
  unfold index
  split
  · exact .access ⟨object, key⟩
  · exact .pure (below_memberOf ..)
  · exact .pure trivial
  · exact .pure (below_memberOf ..)
  · exact .pure trivial
  · exact .pure (below_memberOf ..)
  · exact .pure trivial
  · refine .bind .ask fun found _ _ _ => ?_
    cases found with
    | some value => exact grounded_ofScriptValue value
    | none => exact .pure trivial
  · exact .pure trivial
  · exact .fail

theorem grounded_setIndex {value : Value} (object : v.Below size) (key : w.Below size)
    (below : value.Below size) : (setIndex place v w value).Grounded size Plain := by
  unfold setIndex
  split
  · refine .bind (.access ⟨object, key, below⟩) fun result _ _ _ => ?_
    match result with
    | .ok () => exact .pure trivial
    | .error (.refused e) => exact .refuse
    | .error .nilKey | .error .nanKey => exact .fail
  · exact .refuse
  · exact .refuse
  · exact .bind .ask fun _ _ _ _ => .orRefuse
  · exact .refuse
  · exact .fail

theorem grounded_length (below : v.Below size) : (length place v).Grounded size Below := by
  unfold length
  split
  · exact .bind (.access below) fun _ _ _ _ => .pure trivial
  · exact .pure trivial
  · exact .fail

theorem grounded_equals (v w : Value) : (equals v w).Grounded size Plain := by
  unfold equals
  split
  · refine .ite (fun _ => .pure trivial) fun _ => ?_
    split
    · exact .refuse
    · exact .pure trivial
    · exact .pure trivial
    · exact .pure trivial
    · exact .refuse
    · exact .pure trivial
  · exact .pure trivial

theorem grounded_compare {onNumbers : Numeric → Numeric → Bool} {onTexts : Bytes → Bytes → Bool} :
    (compare place onNumbers onTexts v w).Grounded size Plain := by
  unfold compare
  split
  · exact .pure trivial
  · split
    · exact .pure trivial
    · exact .fail

theorem grounded_toVector (v : Value) : (toVector v).Grounded size Plain := .orRefuse

theorem grounded_scaled (v w : Value) : (scaled v w).Grounded size Below := by
  have times (x : Vec3) (w : Value) : (scaled.times x w).Grounded size Below := by
    unfold scaled.times
    split
    · exact .wrap
    · exact .wrap
    · exact .refuse
  unfold scaled
  split
  · exact times _ _
  · exact times _ _
  · exact .refuse

theorem below_value (n : Numeric) : n.value.Below size := by cases n <;> trivial

theorem grounded_arithmetic {op : BinaryOp} : (arithmetic place op v w).Grounded size Below := by
  unfold arithmetic
  split
  · split
    · exact .pure (below_value _)
    · exact .fail
    · exact .pure trivial
  · exact .fail

theorem grounded_concat : (concat place v w).Grounded size Below := by
  unfold concat
  split
  · exact .pure trivial
  · exact .fail
  · exact .fail

theorem grounded_binary (op : BinaryOp) : (binary place op v w).Grounded size Below := by
  have boolean {x : Activity Bool} {f : Bool → Bool} (plain : x.Grounded size Plain) :
      (do return Value.boolean (f (← x)) : Activity Value).Grounded size Below :=
    .bind plain fun _ _ _ _ => .pure trivial
  have vector {f : Vec3 → Vec3 → Vec3} :
      (do Activity.wrap (.vector (f (← toVector v) (← toVector w)))).Grounded size Below :=
    .bind (grounded_toVector v) fun _ _ _ _ => .bind (grounded_toVector w) fun _ _ _ _ => .wrap
  unfold binary
  split
  · exact boolean (f := id) (grounded_equals v w)
  · exact boolean (grounded_equals v w)
  · exact boolean (f := id) grounded_compare
  · exact boolean (f := id) grounded_compare
  · exact boolean (f := id) grounded_compare
  · exact boolean (f := id) grounded_compare
  · exact grounded_concat
  · refine .ite (fun _ => ?_) fun _ => grounded_arithmetic
    split
    · exact vector
    · exact vector
    · exact grounded_scaled v w
    · exact grounded_arithmetic

theorem grounded_unary (below : v.Below size) (op : UnaryOp) :
    (unary place op v).Grounded size Below := by
  unfold unary
  split
  · exact .pure trivial
  · exact grounded_length below
  · split
    · exact .wrap
    · exact .pure (below_value _)
    · exact .fail
  · split
    · exact .fail
    · split
      · exact .pure trivial
      · exact .fail

end Value

/-! ### Arguments -/

namespace Invocation

variable {call : Invocation}

theorem below_arg (args : AllBelow size call.args) (n : Nat) : (call.arg n).Below size :=
  args.getD (n - 1)

theorem grounded_fail {message : String} :
    (call.fail message : Activity α).Grounded size Gives := .fail

theorem grounded_badArgument {n : Nat} {reason : String} :
    (call.badArgument n reason : Activity α).Grounded size Gives := .fail

theorem grounded_unexpected {n : Nat} {expected : String} :
    (call.unexpected n expected : Activity α).Grounded size Gives := .fail

theorem grounded_value (args : AllBelow size call.args) (n : Nat) :
    (call.value n).Grounded size Value.Below :=
  .ite (fun _ => .pure (below_arg args n)) fun _ => grounded_badArgument

theorem grounded_number (n : Nat) : (call.number n).Grounded size Plain := by
  unfold number
  split
  · exact .pure trivial
  · exact grounded_unexpected

theorem grounded_integer (n : Nat) : (call.integer n).Grounded size Plain := by
  refine .bind (grounded_number n) fun a _ _ _ => ?_
  split
  · exact .pure trivial
  · exact grounded_badArgument

theorem grounded_integerOr (n : Nat) (default : Int) :
    (call.integerOr n default).Grounded size Plain :=
  .ite (fun _ => .pure trivial) fun _ => grounded_integer n

theorem grounded_bytes (n : Nat) : (call.bytes n).Grounded size Plain := by
  unfold bytes
  split
  · exact .pure trivial
  · exact grounded_unexpected

theorem grounded_bytesOr (n : Nat) (default : Bytes) :
    (call.bytesOr n default).Grounded size Plain :=
  .ite (fun _ => .pure trivial) fun _ => grounded_bytes n

theorem grounded_table (args : AllBelow size call.args) (n : Nat) :
    (call.table n).Grounded size fun later t => t < later := by
  have below := below_arg args n
  unfold table
  split
  · rename_i is
    rw [is] at below
    exact .pure below
  · exact grounded_unexpected

theorem grounded_take {n : Nat} {convert : Conversion α}
    (converts : ∀ a, convert (call.arg n) = .ok a → Gives size a) :
    (call.take n convert).Grounded size Gives := by
  unfold take
  split
  · rename_i a converted
    exact .pure (converts a converted)
  · exact .refuse

theorem grounded_takePlain {n : Nat} {convert : Conversion α} :
    (call.take n convert).Grounded size Plain :=
  grounded_take fun _ _ => trivial

theorem grounded_takeTable (args : AllBelow size call.args) (n : Nat) :
    (call.take n .table).Grounded size fun later t => t < later := by
  refine grounded_take fun t converted => ?_
  have below := below_arg args n
  unfold Conversion.table at converted
  split at converted
  · rename_i is
    cases converted
    rw [is] at below
    exact below
  · cases converted

theorem grounded_takeOf {owner : String} {n : Nat} {convert : Conversion α} :
    (call.takeOf owner n convert).Grounded size Plain := by
  unfold takeOf
  split
  · exact .pure trivial
  · exact .refuse

theorem grounded_receiver {owner : String} {accept : UserData → Option α} :
    (call.receiver owner accept).Grounded size Plain := by
  unfold receiver
  split
  · exact .refuse
  · split
    · exact .pure trivial
    · exact .refuse
  · exact .refuse

theorem grounded_callScript {callee : Value} {args : List Value} (below : AllBelow size args) :
    (call.callScript callee args).Grounded size AllBelow := by
  refine .bind (.guard below) fun outcome _ _ given => ?_
  cases outcome with
  | ok values => exact .pure given
  | error e => exact .bind (Value.grounded_toCause e) fun _ _ _ _ => .refuse

end Invocation

open Invocation

theorem grounded_raiseAt {trace : Trace} {level : Int} {error : Value} (below : error.Below size) :
    (raiseAt trace level error : Activity α).Grounded size Gives := by
  unfold raiseAt
  split
  · exact .raise trivial
  · exact .raise below

theorem grounded_listOf {values : List Value} (below : AllBelow size values) :
    (listOf values).Grounded size Value.Below := by
  have entries := Entries.grounded_empty.withItems below
  exact .bind (.access entries) fun _ _ _ made => .pure made

theorem grounded_one (below : v.Below size) :
    (pure [v] : Activity (List Value)).Grounded size AllBelow :=
  .pure (.cons below .nil)

theorem grounded_single {x : Activity Value} (grounded : x.Grounded size Value.Below) :
    (do return [← x] : Activity (List Value)).Grounded size AllBelow :=
  .bind grounded fun _ _ _ => grounded_one

/-! ### Base functions -/

namespace BaseFunction

variable {call : Invocation}

theorem grounded_snapshot (kind : VariableKind) : (snapshot kind).Grounded size Value.Below := by
  have pair (entry : String × ScriptValue) (later : Nat) :
      (do return (Value.ofString entry.1, ← Value.ofScriptValue entry.2) :
        Activity (Value × Value)).Grounded later
        fun last entry => entry.1.Below last ∧ entry.2.Below last :=
    .bind (Value.grounded_ofScriptValue _) fun _ _ _ below => .pure ⟨trivial, below⟩
  refine .bind .ask fun entries _ _ _ => ?_
  refine .bind (.mapM ?_ entries fun entry _ later _ => pair entry later) fun values _ _ below => ?_
  · exact fun entry _ _ grown below => ⟨below.1.mono grown, below.2.mono grown⟩
  · exact .bind (.access (Entries.grounded_ofList below)) fun _ _ _ made => .pure made

theorem grounded_pairsOf (args : AllBelow size call.args) :
    (pairsOf call).Grounded size AllBelow := by
  -- What follows the three kinds of state is the same, and stands behind each of them.
  have parts {later : Nat} {state : Value} (below : state.Below later) :
      (pure [.builtin (.base .next), state, .nil] :
        Activity (List Value)).Grounded later AllBelow :=
    .pure (.cons trivial (.cons below (.cons trivial .nil)))
  refine .bind (grounded_value args 1) fun v _ _ below => ?_
  dsimp only
  split
  · exact .bind (.access below) fun _ _ _ found => parts found
  · exact .bind (grounded_snapshot _) fun _ _ _ below => parts below
  · exact parts below

theorem grounded_selected (args : AllBelow size call.args) :
    (selected call).Grounded size AllBelow := by
  unfold selected
  split
  · exact grounded_one trivial
  · refine .bind (grounded_integer 1) fun i _ grown _ => ?_
    refine .ite (fun _ => grounded_badArgument) fun _ => ?_
    exact .pure ((args.mono grown).of_subset (List.drop_subset ..))

theorem grounded_converted (args : AllBelow size call.args) :
    (converted call).Grounded size AllBelow := by
  refine .ite (fun _ => .bind (grounded_value args 1) fun v _ _ _ => ?_) fun _ =>
    .bind (grounded_integer 2) fun base _ _ _ => ?_
  · split
    · exact grounded_one (Value.below_value _)
    · exact grounded_one trivial
  · split
    · refine .ite (fun _ => ?_) fun _ => grounded_badArgument
      split
      · exact grounded_one trivial
      · exact grounded_one trivial
    · exact grounded_unexpected

theorem grounded_run (f : BaseFunction) (args : AllBelow size call.args) :
    (f.run call).Grounded size AllBelow := by
  cases f with
  | assert =>
    refine .bind (grounded_value args 1) fun v _ grown _ => ?_
    refine .ite (fun _ => .pure (args.mono grown)) fun _ => grounded_raiseAt ?_
    split
    · exact (below_arg args 2).mono grown
    · trivial
  | error =>
    exact .bind (grounded_integerOr 2 1) fun level _ grown _ =>
      grounded_raiseAt ((below_arg args 1).mono grown)
  | ipairs =>
    exact .bind (grounded_value args 1) fun v _ _ below =>
      .pure (.cons trivial (.cons below (.cons trivial .nil)))
  | next =>
    refine .bind (grounded_table args 1) fun t _ grown allocated => ?_
    refine .bind (.access ⟨allocated, (below_arg args 2).mono grown⟩) fun entry _ _ found => ?_
    match entry with
    | some (key, value) =>
      obtain ⟨first, second⟩ := found key value rfl
      exact .pure (.cons first (.cons second .nil))
    | none => exact grounded_one trivial
  | pairs => exact grounded_pairsOf args
  | pcall =>
    unfold run
    dsimp only
    split
    · exact .raise trivial
    · rename_i callee rest is
      have below : AllBelow size rest := args.of_subset (is ▸ List.subset_cons_self callee rest)
      refine .bind (.guard below) fun outcome _ _ given => ?_
      cases outcome with
      | ok values => exact .pure (.cons trivial given)
      | error e => exact .pure (.cons trivial (.cons given .nil))
  | select => exact grounded_selected args
  | tonumber => exact grounded_converted args
  | tostring =>
    exact .bind (grounded_value args 1) fun v _ _ _ =>
      .bind (Value.grounded_toText v) fun _ _ _ _ => grounded_one trivial
  | type => exact .bind (grounded_value args 1) fun _ _ _ _ => grounded_one trivial
  | print => exact .bind .ask fun _ _ _ _ => .pure .nil

end BaseFunction

theorem grounded_nextPosition {call : Invocation} (args : AllBelow size call.args) :
    (nextPosition call).Grounded size AllBelow := by
  refine .bind (grounded_integer 2) fun i _ grown _ => ?_
  refine .bind (Value.grounded_index ((below_arg args 1).mono grown) trivial) fun v _ _ below => ?_
  split
  · exact grounded_one trivial
  · exact .pure (.cons trivial (.cons below .nil))

/-! ### Functions of the engine -/

namespace EngineFunction

variable {call : Invocation} {list : TableId} {callee : Value}

theorem grounded_visit (count position : Nat) (allocated : list < size) :
    (visit call list callee count position).Grounded size Plain := by
  induction count generalizing size position with
  | zero => exact .pure trivial
  | succ count ih =>
    refine .bind (.access ⟨allocated, trivial⟩) fun item _ grown below => ?_
    refine .bind (.discard (grounded_callScript (.cons below .nil))) fun _ _ grown' _ => ?_
    exact ih _ (Nat.lt_of_lt_of_le allocated (grown.trans grown'))

theorem grounded_keep (count position : Nat) (allocated : list < size) :
    (keep call list callee count position).Grounded size AllBelow := by
  induction count generalizing size position with
  | zero => exact .pure .nil
  | succ count ih =>
    refine .bind (.access ⟨allocated, trivial⟩) fun item _ grown below => ?_
    refine .bind (grounded_callScript (.cons below .nil)) fun verdict _ grown' _ => ?_
    have allocated := Nat.lt_of_lt_of_le allocated (grown.trans grown')
    refine .bind (ih _ allocated) fun rest _ further given => .pure ?_
    split
    · exact .cons (below.mono (grown'.trans further)) given
    · exact given

theorem grounded_run (f : EngineFunction) (args : AllBelow size call.args) :
    (f.run call).Grounded size AllBelow := by
  cases f with
  | vector =>
    exact .bind grounded_takePlain fun _ _ _ _ => .bind grounded_takePlain fun _ _ _ _ =>
      .bind grounded_takePlain fun _ _ _ _ => grounded_single .wrap
  | spawn =>
    have spawned {later : Nat} {classname : String} {origin angles : Vec3} :
        (do return [← Activity.wrap (.entity (← Activity.orRefuse
          (← Activity.ask (.spawn classname origin angles))))]).Grounded later AllBelow :=
      .bind .ask fun _ _ _ _ => .bind .orRefuse fun _ _ _ _ => grounded_single .wrap
    refine .bind grounded_takePlain fun classname _ _ _ => ?_
    refine .bind (Value.grounded_toVector _) fun origin _ _ _ => ?_
    dsimp only
    split
    · exact spawned
    · exact .bind (Value.grounded_toVector _) fun angles _ _ _ => spawned
  | find =>
    refine .bind grounded_takePlain fun value _ _ _ => .bind grounded_takePlain fun key _ _ _ => ?_
    refine .bind .ask fun _ _ _ _ => .bind .orRefuse fun handles _ _ _ => ?_
    refine .bind (.mapM (fun _ _ _ grown below => below.mono grown) _ fun _ _ _ _ => .wrap)
      fun entities _ _ below => ?_
    exact grounded_single (grounded_listOf below)
  | foreach =>
    refine .bind (grounded_takeTable args 1) fun list _ _ allocated => ?_
    refine .bind grounded_takePlain fun callee _ grown _ => ?_
    have allocated := Nat.lt_of_lt_of_le allocated grown
    refine .bind (.access allocated) fun count _ grown _ => ?_
    have allocated := Nat.lt_of_lt_of_le allocated grown
    exact .bind (grounded_visit count 1 allocated) fun _ _ _ _ => .pure .nil
  | filter =>
    refine .bind (grounded_takeTable args 1) fun list _ _ allocated => ?_
    refine .bind grounded_takePlain fun callee _ grown _ => ?_
    have allocated := Nat.lt_of_lt_of_le allocated grown
    refine .bind (.access allocated) fun count _ grown _ => ?_
    have allocated := Nat.lt_of_lt_of_le allocated grown
    refine .bind (grounded_keep count 1 allocated) fun kept _ _ below => ?_
    exact .bind (grounded_listOf below) fun _ _ _ made => .pure (.cons made (.cons trivial .nil))
  | pick =>
    refine .bind (grounded_takeTable args 1) fun list _ _ allocated => ?_
    refine .bind (.access allocated) fun count _ grown _ => ?_
    refine .ite (fun _ => grounded_one trivial) fun _ => ?_
    refine .bind .ask fun position _ grown' _ => grounded_single ?_
    exact .access ⟨Nat.lt_of_lt_of_le allocated (grown.trans grown'), trivial⟩
  | values =>
    exact .bind (grounded_takeTable args 1) fun list _ _ allocated =>
      .bind (.access allocated) fun _ _ _ _ => grounded_one trivial
  | context =>
    refine .bind .ask fun context _ _ _ => ?_
    refine .bind (Value.grounded_ofHandle? context.1) fun self _ _ below => ?_
    exact .bind (Value.grounded_ofHandle? context.2) fun _ _ grown below' =>
      .pure (.cons (below.mono grown) (.cons below' .nil))

end EngineFunction

namespace EntityMethod

variable {call : Invocation}

theorem grounded_ofFieldValue (value : FieldValue) :
    (ofFieldValue value).Grounded size Value.Below := by
  cases value with
  | vector => exact .wrap
  | text s => cases s <;> exact .pure trivial
  | float | integer => exact .pure trivial

theorem grounded_run (f : EntityMethod) : (f.run call).Grounded size AllBelow := by
  have flag {later : Nat} {h : Handle} {flag : EntityFlag} :
      (do return [.boolean (← Activity.orRefuse (← Activity.ask (.flag h flag)))] :
        Activity (List Value)).Grounded later AllBelow :=
    .bind .ask fun _ _ _ _ => .bind .orRefuse fun _ _ _ _ => grounded_one trivial
  have done {later : Nat} {request : Request (Except ScriptError Unit)} :
      (do Activity.orRefuse (← Activity.ask request); return [] :
        Activity (List Value)).Grounded later AllBelow :=
    .bind .ask fun _ _ _ _ => .bind .orRefuse fun _ _ _ _ => .pure .nil
  refine .bind grounded_receiver fun h _ _ _ => ?_
  have delay {later n : Nat} :
      (do return (← call.takeOf "EntityHandle" n (.optional .single)).getD {} :
        Activity Single).Grounded later Plain :=
    .bind grounded_takeOf fun _ _ _ _ => .pure trivial
  cases f with
  | get =>
    refine .bind grounded_takeOf fun _ _ _ _ => .bind .ask fun _ _ _ _ => ?_
    exact .bind .orRefuse fun value _ _ _ => grounded_single (grounded_ofFieldValue value)
  | set => exact .bind grounded_takeOf fun _ _ _ _ => done
  | trigger | kill => exact .bind delay fun _ _ _ _ => done
  | message => exact .bind grounded_takeOf fun _ _ _ _ => .bind delay fun _ _ _ _ => done
  | give =>
    exact .bind grounded_takeOf fun _ _ _ _ => .bind .ask fun _ _ _ _ =>
      .bind .orRefuse fun _ _ _ _ => grounded_one trivial
  | player | monster | damageable => exact flag
  | valid => exact .bind .ask fun _ _ _ _ => grounded_one trivial

end EntityMethod

theorem VectorMethod.grounded_run (f : VectorMethod) {call : Invocation} :
    (f.run call).Grounded size AllBelow := by
  refine .bind grounded_receiver fun v _ _ _ => ?_
  cases f with
  | direction => exact .bind (Value.grounded_toVector _) fun _ _ _ _ => grounded_single .wrap
  | distance => exact .bind (Value.grounded_toVector _) fun _ _ _ _ => grounded_one trivial
  | lerp =>
    exact .bind grounded_takeOf fun _ _ _ _ =>
      .bind (Value.grounded_toVector _) fun _ _ _ _ => grounded_single .wrap
  | values =>
    refine .pure fun value member => ?_
    obtain ⟨x, -, rfl⟩ := List.mem_map.mp member
    trivial

/-! ### Functions on numbers and texts -/

namespace MathFunction

variable {call : Invocation}

theorem grounded_extreme {before : Value → Value → Activity Bool}
    (compares : ∀ v w later, (before v w).Grounded later Plain) {best : Value} {values : List Value}
    (below : best.Below size) (others : AllBelow size values) :
    (extreme before best values).Grounded size Value.Below := by
  induction values generalizing best size with
  | nil => exact .pure below
  | cons v rest ih =>
    have here := others v List.mem_cons_self
    have behind : AllBelow size rest := others.of_subset (List.subset_cons_self v rest)
    refine .bind (compares _ _ _) fun first later grown _ => ?_
    refine ih ?_ (behind.mono grown)
    split
    · exact here.mono grown
    · exact below.mono grown

theorem grounded_remainder : (remainder call).Grounded size Value.Below := by
  unfold remainder
  split
  · exact .ite (fun _ => grounded_badArgument) fun _ => .pure trivial
  · exact .bind (grounded_number 1) fun _ _ _ _ =>
      .bind (grounded_number 2) fun _ _ _ _ => .pure trivial

theorem grounded_logarithm : (logarithm call).Grounded size Value.Below := by
  refine .bind (grounded_number 1) fun x _ _ _ => .ite (fun _ => .pure trivial) fun _ => ?_
  refine .bind (grounded_number 2) fun base _ _ _ => ?_
  exact .ite (fun _ => .pure trivial) fun _ => .ite (fun _ => .pure trivial) fun _ => .pure trivial

theorem grounded_drawnBetween (low high : Int) :
    (drawnBetween call low high).Grounded size Value.Below :=
  .ite (fun _ => .bind .ask fun _ _ _ _ => .pure trivial) fun _ =>
    .ite (fun _ => grounded_badArgument) fun _ => .bind .ask fun _ _ _ _ => .pure trivial

theorem grounded_drawn : (drawn call).Grounded size Value.Below := by
  unfold drawn
  split
  · exact .bind .ask fun _ _ _ _ => .pure trivial
  · exact .bind (grounded_integer 1) fun _ _ _ _ => grounded_drawnBetween _ _
  · exact .bind (grounded_integer 1) fun _ _ _ _ => .bind (grounded_integer 2) fun _ _ _ _ =>
      grounded_drawnBetween _ _
  · exact grounded_fail

theorem grounded_run (f : MathFunction) (args : AllBelow size call.args) :
    (f.run call).Grounded size AllBelow := by
  have plain {g : Float → Float} :
      (do return [.number (onPlatform g (← call.number 1).toDouble)] :
        Activity (List Value)).Grounded size AllBelow :=
    .bind (grounded_number 1) fun _ _ _ _ => grounded_one trivial
  have others : AllBelow size call.args.tail := args.of_subset (List.tail_subset _)
  cases f with
  | abs | ceil | floor =>
    exact .bind (grounded_number 1) fun _ _ _ _ => grounded_one (Value.below_value _)
  | max | min =>
    exact .bind (grounded_value args 1) fun best _ grown below => grounded_single
      (grounded_extreme (fun _ _ _ => Value.grounded_compare) below (others.mono grown))
  | fmod => exact grounded_single grounded_remainder
  | modf =>
    exact .bind (grounded_number 1) fun _ _ _ _ =>
      .pure (.cons (Value.below_value _) (.cons trivial .nil))
  | log => exact grounded_single grounded_logarithm
  | exp | sin | cos | tan | asin | acos => exact plain
  | sqrt | deg | rad => exact .bind (grounded_number 1) fun _ _ _ _ => grounded_one trivial
  | atan =>
    refine .bind (grounded_number 1) fun y _ _ _ => .ite (fun _ => grounded_one trivial) fun _ => ?_
    exact .bind (grounded_number 2) fun _ _ _ _ => grounded_one trivial
  | tointeger =>
    refine .bind (grounded_value args 1) fun v _ _ _ => ?_
    split
    · exact grounded_one trivial
    · exact grounded_one trivial
  | type =>
    refine .bind (grounded_value args 1) fun v _ _ _ => ?_
    split
    · exact grounded_one trivial
    · exact grounded_one trivial
    · exact grounded_one trivial
  | ult =>
    exact .bind (grounded_integer 1) fun _ _ _ _ => .bind (grounded_integer 2) fun _ _ _ _ =>
      grounded_one trivial
  | random => exact grounded_single grounded_drawn
  | randomseed => exact .pure .nil

end MathFunction

namespace TextFunction

variable {call : Invocation}

theorem grounded_ofCodes (count n : Nat) : (ofCodes call count n).Grounded size Plain := by
  induction count generalizing n size with
  | zero => exact .pure trivial
  | succ count ih =>
    exact .bind (grounded_integer n) fun code _ _ _ =>
      .ite (fun _ => .bind (ih (n + 1)) fun _ _ _ _ => .pure trivial) fun _ => grounded_badArgument

theorem grounded_run (f : TextFunction) : (f.run call).Grounded size AllBelow := by
  cases f with
  | byte =>
    refine .bind (grounded_bytes 1) fun s _ _ _ => ?_
    refine .bind (grounded_integerOr 2 1) fun first _ _ _ => ?_
    refine .bind (grounded_integerOr 3 first) fun last _ _ _ => .pure fun value member => ?_
    obtain ⟨b, -, rfl⟩ := List.mem_map.mp member
    trivial
  | char => exact .bind (grounded_ofCodes _ _) fun _ _ _ _ => grounded_one trivial
  | len | lower | reverse | upper =>
    exact .bind (grounded_bytes 1) fun _ _ _ _ => grounded_one trivial
  | rep =>
    exact .bind (grounded_bytes 1) fun _ _ _ _ => .bind (grounded_integer 2) fun _ _ _ _ =>
      .bind (grounded_bytesOr 3 []) fun _ _ _ _ => grounded_one trivial
  | sub =>
    exact .bind (grounded_bytes 1) fun _ _ _ _ => .bind (grounded_integer 2) fun _ _ _ _ =>
      .bind (grounded_integerOr 3 _) fun _ _ _ _ => grounded_one trivial
  | _ => exact grounded_fail

end TextFunction

/-! ### Functions on tables -/

namespace TableFunction

variable {call : Invocation} {t source target : Value}

theorem grounded_size (args : AllBelow size call.args) :
    (TableFunction.size call).Grounded size Plain :=
  .bind (grounded_table args 1) fun _ _ _ allocated =>
    .bind (.access allocated) fun _ _ _ _ => .pure trivial

theorem grounded_item (below : t.Below size) (position : Int) :
    (item t position).Grounded size Value.Below :=
  Value.grounded_index below trivial

theorem grounded_setItem (below : t.Below size) (position : Int) (value : v.Below size) :
    (setItem t position v).Grounded size Plain :=
  Value.grounded_setIndex below trivial value

theorem grounded_setItems (below : t.Below size) (i j : Int) (value : v.Below size)
    (value' : w.Below size) : (setItems t i v j w).Grounded size Plain :=
  .bind (grounded_setItem below i value) fun _ _ grown _ =>
    grounded_setItem (below.mono grown) j (value'.mono grown)

theorem grounded_shiftItems {shift step : Int} (count : Nat) (position : Int)
    (below : source.Below size) (below' : target.Below size) :
    (shiftItems source target shift step count position).Grounded size Plain := by
  induction count generalizing position size with
  | zero => exact .pure trivial
  | succ count ih =>
    refine .bind (grounded_item below position) fun item _ grown given => ?_
    refine .bind (grounded_setItem (below'.mono grown) _ given) fun _ _ grown' _ => ?_
    have grown := grown.trans grown'
    exact ih _ (below.mono grown) (below'.mono grown)

theorem grounded_itemsFrom (count : Nat) (position : Int) (below : t.Below size) :
    (itemsFrom t count position).Grounded size AllBelow := by
  induction count generalizing position size with
  | zero => exact .pure .nil
  | succ count ih =>
    refine .bind (grounded_item below position) fun item _ grown given => ?_
    exact .bind (ih _ (below.mono grown)) fun rest _ grown' others =>
      .pure (.cons (given.mono grown') others)

theorem grounded_textsFrom (count : Nat) (position : Int) (args : AllBelow size call.args) :
    (textsFrom call count position).Grounded size Plain := by
  induction count generalizing position size with
  | zero => exact .pure trivial
  | succ count ih =>
    refine .bind (grounded_item (below_arg args 1) position) fun item _ grown _ => ?_
    split
    · exact .bind (ih _ (args.mono grown)) fun _ _ _ _ => .pure trivial
    · exact grounded_fail

theorem grounded_joined (args : AllBelow size call.args) :
    (joined call).Grounded size Value.Below := by
  refine .bind (grounded_size args) fun last _ grown _ => ?_
  refine .bind (grounded_bytesOr 2 []) fun _ _ grown' _ => ?_
  refine .bind (grounded_integerOr 3 1) fun first _ further _ => ?_
  refine .bind (grounded_integerOr 4 last) fun _ _ furthest _ => ?_
  have grown := ((grown.trans grown').trans further).trans furthest
  exact .bind (grounded_textsFrom _ _ (args.mono grown)) fun _ _ _ _ => .pure trivial

theorem grounded_insertItem (args : AllBelow size call.args) :
    (insertItem call).Grounded size Plain := by
  refine .bind (grounded_size args) fun last _ grown _ => ?_
  have args := args.mono grown
  split
  · rename_i t v is
    rw [is] at args
    exact grounded_setItem (args t (by simp)) _ (args v (by simp))
  · rename_i t _ v is
    refine .bind (grounded_integer 2) fun position _ grown' _ => ?_
    have args := args.mono grown'
    rw [is] at args
    refine .ite (fun _ => ?_) fun _ => grounded_badArgument
    have below := args t (by simp)
    refine .bind (grounded_shiftItems _ _ below below) fun _ _ grown'' _ => ?_
    exact grounded_setItem (below.mono grown'') _ ((args v (by simp)).mono grown'')
  · exact grounded_fail

theorem grounded_removeItem (args : AllBelow size call.args) :
    (removeItem call).Grounded size Value.Below := by
  refine .bind (grounded_size args) fun size _ grown _ => ?_
  refine .bind (grounded_integerOr 2 size) fun position _ grown' _ => ?_
  refine .ite (fun _ => grounded_badArgument) fun _ => ?_
  have below := (below_arg args 1).mono (grown.trans grown')
  refine .bind (grounded_item below position) fun removed _ grown given => ?_
  have below := below.mono grown
  refine .bind (grounded_shiftItems _ _ below below) fun _ _ grown' _ => ?_
  refine .bind (grounded_setItem (below.mono grown') _ trivial) fun _ _ grown'' _ => ?_
  exact .pure (given.mono (grown'.trans grown''))

theorem grounded_unpacked (args : AllBelow size call.args) :
    (unpacked call).Grounded size AllBelow := by
  refine .bind (grounded_integerOr 2 1) fun first _ grown _ => ?_
  have items {later : Nat} (last : Int) (grown : size ≤ later) :
      (if last < first then return []
        else if mostResults ≤ last - first then call.fail "too many results to unpack"
        else itemsFrom (call.arg 1) (last - first + 1).toNat first).Grounded later AllBelow :=
    .ite (fun _ => .pure .nil) fun _ => .ite (fun _ => grounded_fail) fun _ =>
      grounded_itemsFrom _ _ ((below_arg args 1).mono grown)
  refine .ite (fun _ => ?_) fun _ => ?_
  · refine .bind (Value.grounded_length ((below_arg args 1).mono grown)) fun length _ grown' _ => ?_
    have grown := grown.trans grown'
    split
    · exact items _ grown
    · exact items _ grown
  · exact .bind (grounded_integer 3) fun last _ grown' _ => items last (grown.trans grown')

theorem grounded_packed (args : AllBelow size call.args) :
    (packed call).Grounded size Value.Below := by
  have name : (Value.ofString "n").Below size := trivial
  have count : (Value.ofNat call.args.length).Below size := trivial
  have entries := (Entries.grounded_empty.withItems args).set name count
  exact .bind (.access entries) fun _ _ _ made => .pure made

theorem grounded_moveItems (args : AllBelow size call.args) :
    (moveItems call).Grounded size Value.Below := by
  refine .bind (grounded_integer 2) fun first _ grown _ => ?_
  have args := args.mono grown
  refine .bind (grounded_integer 3) fun last _ grown _ => ?_
  have args := args.mono grown
  refine .bind (grounded_integer 4) fun position _ grown _ => ?_
  have args := args.mono grown
  refine .bind (.discard (grounded_table args 1)) fun _ _ grown _ => ?_
  have args := args.mono grown
  refine .bind (.discard (grounded_table args _)) fun _ _ grown _ => ?_
  have args := args.mono grown
  have moved (shift step : Int) (count : Nat) (position : Int) :
      (shiftItems (call.arg 1) (call.arg (if call.lacks 5 then 1 else 5)) shift step count
        position).Grounded _ Plain :=
    grounded_shiftItems count position (below_arg args 1) (below_arg args _)
  refine .ite (fun _ => ?_) fun _ => ?_
  · exact .bind (moved _ _ _ _) fun _ _ grown _ => .pure ((below_arg args _).mono grown)
  · exact .bind (moved _ _ _ _) fun _ _ grown _ => .pure ((below_arg args _).mono grown)

/-! ### Sorting -/

theorem grounded_comesBefore (below : v.Below size) (below' : w.Below size) :
    (comesBefore call v w).Grounded size Plain :=
  .ite (fun _ => Value.grounded_compare) fun _ =>
    .bind (.call (.cons below (.cons below' .nil))) fun _ _ _ _ => .pure trivial

def FoundBelow (size : Nat) (found : Int × Value) : Prop := found.2.Below size

theorem grounded_scanUp {pivot : Value} {limit : Int} (fuel : Nat) (i : Int)
    (args : AllBelow size call.args) (below : pivot.Below size) :
    (scanUp call pivot limit fuel i).Grounded size FoundBelow := by
  induction fuel generalizing i size with
  | zero => exact grounded_fail
  | succ fuel ih =>
    refine .bind (grounded_item (below_arg args 1) _) fun v _ grown given => ?_
    have args := args.mono grown
    have below := below.mono grown
    refine .bind (grounded_comesBefore given below) fun _ _ grown _ => ?_
    refine .ite (fun _ => ?_) fun _ => ?_
    · exact .ite (fun _ => grounded_fail) fun _ => ih _ (args.mono grown) (below.mono grown)
    · exact .pure (given.mono grown)

theorem grounded_scanDown {pivot : Value} {limit : Int} (fuel : Nat) (j : Int)
    (args : AllBelow size call.args) (below : pivot.Below size) :
    (scanDown call pivot limit fuel j).Grounded size FoundBelow := by
  induction fuel generalizing j size with
  | zero => exact grounded_fail
  | succ fuel ih =>
    refine .bind (grounded_item (below_arg args 1) _) fun v _ grown given => ?_
    have args := args.mono grown
    have below := below.mono grown
    refine .bind (grounded_comesBefore below given) fun _ _ grown _ => ?_
    refine .ite (fun _ => ?_) fun _ => ?_
    · exact .ite (fun _ => grounded_fail) fun _ => ih _ (args.mono grown) (below.mono grown)
    · exact .pure (given.mono grown)

theorem grounded_partition {pivot : Value} {last : Int} (fuel : Nat) (i j : Int)
    (args : AllBelow size call.args) (below : pivot.Below size) :
    (partition call pivot last fuel i j).Grounded size Plain := by
  induction fuel generalizing i j size with
  | zero => exact .pure trivial
  | succ fuel ih =>
    refine .bind (grounded_scanUp _ _ args below) fun up _ grown given => ?_
    have args := args.mono grown
    have below := below.mono grown
    refine .bind (grounded_scanDown _ _ args below) fun down _ grown given' => ?_
    have args := args.mono grown
    have below := below.mono grown
    have given := Value.Below.mono given grown
    refine .ite (fun _ => ?_) fun _ => ?_
    · exact .bind (grounded_setItems (below_arg args 1) _ _ given below) fun _ _ _ _ =>
        .pure trivial
    · exact .bind (grounded_setItems (below_arg args 1) _ _ given' given) fun _ _ grown _ =>
        ih _ _ (args.mono grown) (below.mono grown)

theorem grounded_order (args : AllBelow size call.args) (first last : Int) :
    (order call first last).Grounded size Plain := by
  refine .bind (grounded_item (below_arg args 1) _) fun v _ grown given => ?_
  have args := args.mono grown
  refine .bind (grounded_item (below_arg args 1) _) fun w _ grown given' => ?_
  have args := args.mono grown
  have given := given.mono grown
  refine .bind (grounded_comesBefore given' given) fun _ _ grown _ =>
    .ite (fun _ => ?_) fun _ => .pure trivial
  exact grounded_setItems (below_arg (args.mono grown) 1) _ _ (given'.mono grown) (given.mono grown)

theorem grounded_orderMiddle (args : AllBelow size call.args) (first middle last : Int) :
    (orderMiddle call first middle last).Grounded size Plain := by
  refine .bind (grounded_item (below_arg args 1) _) fun v _ grown given => ?_
  have args := args.mono grown
  refine .bind (grounded_item (below_arg args 1) _) fun w _ grown given' => ?_
  have args := args.mono grown
  have given := given.mono grown
  refine .bind (grounded_comesBefore given given') fun _ _ grown _ => ?_
  have args := args.mono grown
  have given := given.mono grown
  refine .ite (fun _ => ?_) fun _ => ?_
  · exact grounded_setItems (below_arg args 1) _ _ (given'.mono grown) given
  refine .bind (grounded_item (below_arg args 1) _) fun w _ grown given' => ?_
  have args := args.mono grown
  have given := given.mono grown
  refine .bind (grounded_comesBefore given' given) fun _ _ grown _ =>
    .ite (fun _ => ?_) fun _ => .pure trivial
  exact grounded_setItems (below_arg (args.mono grown) 1) _ _ (given'.mono grown) (given.mono grown)

theorem grounded_sortBetween (fuel : Nat) (first last : Int) (args : AllBelow size call.args) :
    (sortBetween call fuel first last).Grounded size Plain := by
  induction fuel generalizing first last size with
  | zero => exact .pure trivial
  | succ fuel ih =>
    have both {later : Nat} (args : AllBelow later call.args) (i j k l : Int) :
        (do sortBetween call fuel i j; sortBetween call fuel k l).Grounded later Plain :=
      .bind (ih i j args) fun _ _ grown _ => ih k l (args.mono grown)
    refine .ite (fun _ => .pure trivial) fun _ => ?_
    refine .bind (grounded_order args _ _) fun _ _ grown _ => ?_
    have args := args.mono grown
    refine .ite (fun _ => .pure trivial) fun _ => ?_
    refine .bind (grounded_orderMiddle args _ _ _) fun _ _ grown _ => ?_
    have args := args.mono grown
    refine .ite (fun _ => .pure trivial) fun _ => ?_
    refine .bind (grounded_item (below_arg args 1) _) fun pivot _ grown given => ?_
    have args := args.mono grown
    refine .bind (grounded_item (below_arg args 1) _) fun v _ grown given' => ?_
    have args := args.mono grown
    have given := given.mono grown
    refine .bind (grounded_setItems (below_arg args 1) _ _ given' given) fun _ _ grown _ => ?_
    have args := args.mono grown
    refine .bind (grounded_partition _ _ _ args (given.mono grown)) fun position _ grown _ => ?_
    have args := args.mono grown
    exact .ite (fun _ => both args _ _ _ _) fun _ => both args _ _ _ _

theorem grounded_sortItems (args : AllBelow size call.args) :
    (sortItems call).Grounded size Plain := by
  refine .bind (grounded_size args) fun count _ grown _ => .ite (fun _ => .pure trivial) fun _ => ?_
  split
  · exact grounded_sortBetween _ _ _ (args.mono grown)
  · exact grounded_sortBetween _ _ _ (args.mono grown)
  · exact grounded_unexpected

theorem grounded_run (f : TableFunction) (args : AllBelow size call.args) :
    (f.run call).Grounded size AllBelow := by
  cases f with
  | concat => exact grounded_single (grounded_joined args)
  | insert => exact .bind (grounded_insertItem args) fun _ _ _ _ => .pure .nil
  | pack => exact grounded_single (grounded_packed args)
  | unpack => exact grounded_unpacked args
  | remove => exact grounded_single (grounded_removeItem args)
  | move => exact grounded_single (grounded_moveItems args)
  | sort => exact .bind (grounded_sortItems args) fun _ _ _ _ => .pure .nil

end TableFunction

/-- A built-in function that is given what is there uses nothing else. -/
theorem Builtin.grounded_run (b : Builtin) {args : List Value} (below : AllBelow size args)
    (trace : Trace) : (b.run args trace).Grounded size AllBelow := by
  cases b with
  | base f => exact f.grounded_run below
  | position => exact grounded_nextPosition below
  | engine f => exact f.grounded_run below
  | entity f => exact f.grounded_run
  | vector f => exact f.grounded_run
  | math f => exact f.grounded_run below
  | text f => exact f.grounded_run
  | table f => exact f.grounded_run below

end EntityScripting.Script
