import EntityScripting.Proofs.Script.Allocation
import EntityScripting.Proofs.Script.Order

/-!
# Routines that use what is there

A routine is grounded in a heap if it uses no table that is not there, nor ever will: every table
that it names is one of the heap or was given to it later. On an intact heap, which is closed and in
order, it leaves an intact heap again. An activity is grounded if the routines that it begins are,
whatever grounded routine comes after it.
-/

namespace EntityScripting.Script

/-! ### Values -/

def AllBelow (size : Nat) (values : List Value) : Prop := ∀ value ∈ values, value.Below size

section

variable {size later : Nat} {v : Value} {values rest : List Value}

theorem AllBelow.mono (below : AllBelow size values) (grown : size ≤ later) :
    AllBelow later values :=
  fun value member => (below value member).mono grown

theorem AllBelow.nil : AllBelow size [] := fun _ member => absurd member List.not_mem_nil

theorem AllBelow.cons (below : v.Below size) (others : AllBelow size values) :
    AllBelow size (v :: values) :=
  List.forall_mem_cons.mpr ⟨below, others⟩

theorem AllBelow.append (below : AllBelow size values) (others : AllBelow size rest) :
    AllBelow size (values ++ rest) :=
  List.forall_mem_append.mpr ⟨below, others⟩

theorem AllBelow.of_subset (below : AllBelow size values) (subset : rest ⊆ values) :
    AllBelow size rest :=
  fun value member => below value (subset member)

theorem AllBelow.getD (below : AllBelow size values) (n : Nat) :
    (values[n]?.getD .nil).Below size := by
  cases found : values[n]? with
  | none => trivial
  | some value => exact below value (List.mem_of_getElem? found)

theorem AllBelow.headD (below : AllBelow size values) : (values.headD .nil).Below size := by
  cases values with
  | nil => trivial
  | cons v rest => exact below v List.mem_cons_self

end

namespace Entries

variable {size later : Nat} {entries : Entries}

structure Grounded (size : Nat) (entries : Entries) : Prop where
  below : entries.Below size
  ordered : entries.Ordered

theorem grounded_empty : Grounded size {} := ⟨below_empty, ordered_empty⟩

theorem Grounded.mono (grounded : entries.Grounded size) (grown : size ≤ later) :
    entries.Grounded later :=
  ⟨grounded.below.mono grown, grounded.ordered⟩

theorem Grounded.set (grounded : entries.Grounded size) {key value : Value}
    (keyBelow : key.Below size) (valueBelow : value.Below size) :
    (entries.set key value).Grounded size :=
  ⟨grounded.below.set keyBelow valueBelow, grounded.ordered.set key value⟩

theorem grounded_ofList {list : List (Value × Value)}
    (below : ∀ entry ∈ list, entry.1.Below size ∧ entry.2.Below size) :
    Grounded size (.ofList list) :=
  ⟨fun entry member => below entry (SortedMap.mem_of_mem_ofList member), ordered_ofList list⟩

theorem Grounded.withItems (grounded : entries.Grounded size) {items : List Value}
    (below : AllBelow size items) : (entries.withItems items).Grounded size := by
  refine ⟨?_, grounded.ordered.withItems items⟩
  unfold Entries.withItems
  have listed (item : Value × Nat) (member : item ∈ items.zipIdx) : item.1.Below size :=
    below _ (List.fst_mem_of_mem_zipIdx member)
  generalize items.zipIdx = numbered at listed
  induction numbered with
  | nil => exact grounded.below
  | cons item rest ih =>
    obtain ⟨here, behind⟩ := List.forall_mem_cons.mp listed
    exact (ih behind).set trivial here

end Entries

/-! ### Heaps -/

/-- Whether an access is made with nothing but what is there. -/
def Access.Grounded (size : Nat) {α : Type} : Access α → Prop
  | .newCell value | .setCell _ value => value.Below size
  | .newTable entries => entries.Grounded size
  | .get t key | .rawGet t key | .next t key => t < size ∧ key.Below size
  | .set t key value => t < size ∧ key.Below size ∧ value.Below size
  | .length t | .rawLength t | .source t | .newCursor t => t < size
  | .newClosure _ | .cell _ | .closure _ | .advance _ | .newIdentity => True

def Access.Gives (size : Nat) {α : Type} : Access α → α → Prop
  | .cell _, value | .get .., value | .rawGet .., value | .advance _, value => value.Below size
  | .newTable _, t | .source _, t => t < size
  | .next .., entry => ∀ key value, entry = some (key, value) → key.Below size ∧ value.Below size
  | _, _ => True

namespace Heap

/-- A heap in order in which everything that is mentioned is there. -/
structure Intact (heap : Heap) : Prop where
  closed : heap.Closed
  ordered : heap.Ordered
  cells : ∀ value ∈ heap.cells, value.Below heap.tables.size

variable {heap later : Heap}

theorem Continues.intact (continues : heap.Continues later) (intact : heap.Intact)
    (ordered : later.Ordered) : later.Intact where
  closed := continues.closed
  ordered := ordered
  cells value member :=
    (intact.cells value (continues.cells ▸ member)).mono continues.grown

namespace Intact

theorem of_same (intact : heap.Intact) (tables : later.tables = heap.tables)
    (stores : later.stores = heap.stores)
    (cells : ∀ value ∈ later.cells, value.Below heap.tables.size) : later.Intact where
  closed := intact.closed.of_same tables stores
  ordered := intact.ordered.of_same tables
  cells := tables ▸ cells

theorem newCell (intact : heap.Intact) {value : Value} (below : value.Below heap.tables.size) :
    (heap.newCell value).2.Intact := by
  refine intact.of_same rfl rfl fun other member => ?_
  rcases Array.mem_push.mp member with old | rfl
  · exact intact.cells other old
  · exact below

theorem setCell (intact : heap.Intact) (cell : CellId) {value : Value}
    (below : value.Below heap.tables.size) : (heap.setCell cell value).Intact := by
  refine intact.of_same rfl rfl fun other member => ?_
  obtain ⟨i, found⟩ := Array.mem_iff_getElem?.mp member
  simp only [Heap.setCell, Array.getElem?_modify] at found
  split at found
  · obtain ⟨-, -, rfl⟩ := Option.map_eq_some_iff.mp found
    exact below
  · exact intact.cells other (Array.mem_of_getElem? found)

theorem write (intact : heap.Intact) (t : TableId) {key value : Value}
    (keyBelow : key.Below heap.tables.size) (below : value.Below heap.tables.size) :
    (heap.write t key value).Intact :=
  (intact.closed.write t keyBelow below).intact intact (intact.ordered.write t key value)

/-- A grounded access leaves an intact heap, and its answer is there. -/
theorem access (intact : heap.Intact) {α : Type} (access : Access α)
    (grounded : access.Grounded heap.tables.size) :
    (access.run heap).2.Intact ∧ heap.tables.size ≤ (access.run heap).2.tables.size ∧
      access.Gives (access.run heap).2.tables.size (access.run heap).1 := by
  have closed := intact.closed
  cases access with
  | newCell value => exact ⟨intact.newCell grounded, Nat.le_refl _, trivial⟩
  | setCell cell value => exact ⟨intact.setCell cell grounded, Nat.le_refl _, trivial⟩
  | newTable entries =>
    have fits : heap.Fits heap.tables.size (.plain entries) := grounded.below
    have made := closed.newTable fits
    refine ⟨made.intact intact (intact.ordered.newTable ?_), made.grown, ?_⟩
    · rintro _ ⟨⟩
      exact grounded.ordered
    · exact lt_size_of_table? ((table?_newTable heap _ _).trans (if_pos rfl))
  | set t key value =>
    obtain ⟨-, keyBelow, below⟩ := grounded
    unfold Access.run
    dsimp only
    split
    · exact ⟨intact, Nat.le_refl _, trivial⟩
    · exact ⟨intact.write t keyBelow below, (closed.write t keyBelow below).grown, trivial⟩
  | cell cell =>
    refine ⟨intact, Nat.le_refl _, ?_⟩
    show (heap.cells[cell]?.getD .nil).Below heap.tables.size
    cases found : heap.cells[cell]? with
    | none => trivial
    | some value => exact intact.cells value (Array.mem_of_getElem? found)
  | get t key => exact ⟨intact, Nat.le_refl _, closed.below_get t key⟩
  | rawGet t key => exact ⟨intact, Nat.le_refl _, closed.below_rawGet t key⟩
  | next t key =>
    refine ⟨intact, Nat.le_refl _, fun key value found => ?_⟩
    exact closed.below_entries t _ (mem_entries_of_next found)
  | source t => exact ⟨intact, Nat.le_refl _, closed.source_lt grounded⟩
  | length | rawLength | closure => exact ⟨intact, Nat.le_refl _, trivial⟩
  | newClosure | newCursor | newIdentity =>
    exact ⟨intact.of_same rfl rfl intact.cells, Nat.le_refl _, trivial⟩
  | advance cursor =>
    simp only [Access.run, Heap.advance]
    split
    · exact ⟨intact, Nat.le_refl _, trivial⟩
    · refine ⟨intact.of_same rfl rfl intact.cells, Nat.le_refl _, ?_⟩
      exact closed.below_rawGet ..

end Intact

end Heap

/-! ### Routines -/

namespace Routine

def Outcome.Below (size : Nat) : Outcome → Prop
  | .ok values => AllBelow size values
  | .error e => e.Below size

/-- Whether a routine uses only what is there and what it comes to know later. -/
def Grounded : Routine → Nat → Prop
  | .done values, size => AllBelow size values
  | .raise error, size => error.Below size
  | .access a next, size =>
    a.Grounded size ∧
      ∀ answer later, size ≤ later → a.Gives later answer → (next answer).Grounded later
  | .ask _ next, size => ∀ answer later, size ≤ later → (next answer).Grounded later
  | .call _ args _ next, size =>
    AllBelow size args ∧
      ∀ values later, size ≤ later → AllBelow later values → (next values).Grounded later
  | .guard _ args _ next, size =>
    AllBelow size args ∧
      ∀ outcome later, size ≤ later → Outcome.Below later outcome → (next outcome).Grounded later
  | .pause next, size => (next ()).Grounded size
  | .exhausted, _ => True

end Routine

/-! ### Activities -/

/-- Nothing is said of a value without tables. -/
abbrev Plain {α : Type} : Nat → α → Prop := fun _ _ => True

namespace Activity

/-- Whether an activity is grounded, and what its value is then. -/
def Grounded {α : Type} (size : Nat) (x : Activity α) (Gives : Nat → α → Prop) : Prop :=
  ∀ next : α → Routine,
    (∀ a later, size ≤ later → Gives later a → (next a).Grounded later) → (x next).Grounded size

namespace Grounded

variable {α β σ : Type} {size : Nat} {x : Activity α} {f : α → Activity β}
  {Gives Given : Nat → α → Prop} {After : Nat → β → Prop}

theorem pure {a : α} (given : Gives size a) : Grounded size (Pure.pure a : Activity α) Gives :=
  fun _ rest => rest a size (Nat.le_refl size) given

theorem bind (first : x.Grounded size Gives)
    (rest : ∀ a later, size ≤ later → Gives later a → (f a).Grounded later After) :
    (x >>= f).Grounded size After :=
  fun next after => first _ fun a later grown given =>
    rest a later grown given next fun b last grown' => after b last (grown.trans grown')

theorem imp (grounded : x.Grounded size Gives) (weaker : ∀ later a, Gives later a → Given later a) :
    x.Grounded size Given :=
  fun next rest => grounded next fun a later grown given =>
    rest a later grown (weaker later a given)

theorem plain (grounded : x.Grounded size Gives) : x.Grounded size Plain :=
  grounded.imp fun _ _ _ => trivial

theorem access {access : Access α} (grounded : access.Grounded size) :
    (Activity.access access).Grounded size fun later => access.Gives later :=
  fun _ rest => ⟨grounded, rest⟩

theorem ask {request : Request α} : (Activity.ask request).Grounded size Plain :=
  fun _ rest a later grown => rest a later grown trivial

theorem call {callee : Value} {args : List Value} {trace : Trace} (below : AllBelow size args) :
    (Activity.call callee args trace).Grounded size AllBelow :=
  fun _ rest => ⟨below, rest⟩

theorem guard {callee : Value} {args : List Value} {trace : Trace} (below : AllBelow size args) :
    (Activity.guard callee args trace).Grounded size Routine.Outcome.Below :=
  fun _ rest => ⟨below, rest⟩

theorem raise {error : Value} (below : error.Below size) :
    (Activity.raise error : Activity α).Grounded size Gives :=
  fun _ _ => below

theorem wrap {data : UserData} : (Activity.wrap data).Grounded size Value.Below :=
  bind (access trivial) fun _ _ _ _ => pure trivial

theorem refuse {cause : Cause} : (Activity.refuse cause : Activity α).Grounded size Gives :=
  bind wrap fun _ _ _ below => raise below

theorem orRefuse {result : Except ScriptError α} :
    (Activity.orRefuse result).Grounded size Plain := by
  cases result with
  | ok a => exact pure trivial
  | error e => exact refuse

theorem fail {site : Option Site} {message : String} :
    (Activity.fail site message : Activity α).Grounded size Gives :=
  raise trivial

theorem ite {condition : Prop} [Decidable condition] {y : Activity α}
    (positive : condition → x.Grounded size Gives)
    (negative : ¬ condition → y.Grounded size Gives) :
    (if condition then x else y).Grounded size Gives := by
  split
  · exact positive ‹_›
  · exact negative ‹_›

theorem discard (grounded : x.Grounded size Gives) :
    (Functor.discard x).Grounded size Plain := by
  show (x >>= fun _ => Pure.pure PUnit.unit).Grounded size Plain
  exact bind grounded fun _ _ _ _ => pure trivial

/-- What every turn of a loop keeps, the loop keeps. -/
theorem repeatUntil (Inv : Nat → σ → Prop) {turn : σ → Activity (σ ⊕ β)}
    (once : ∀ state later, size ≤ later → Inv later state →
      (turn state).Grounded later fun last => Sum.elim (Inv last) (After last))
    (turns : Nat) {state : σ} (holds : Inv size state) :
    (Activity.repeatUntil turn turns state).Grounded size After := by
  induction turns generalizing state size with
  | zero => exact fun _ _ => trivial
  | succ turns ih =>
    have paused : Activity.pause.Grounded size fun later _ => later = size :=
      fun _ rest => rest () size (Nat.le_refl size) rfl
    refine bind paused ?_
    rintro ⟨⟩ _ - rfl
    refine bind (once state _ (Nat.le_refl _) holds) fun result later grown given => ?_
    cases result with
    | inl state => exact ih (fun state last after => once state last (grown.trans after)) given
    | inr result => exact pure given

theorem mapM {f : α → Activity β}
    (mono : ∀ b later last, later ≤ last → After later b → After last b)
    (list : List α) (each : ∀ a ∈ list, ∀ later, size ≤ later → (f a).Grounded later After) :
    (list.mapM f).Grounded size fun later values => ∀ b ∈ values, After later b := by
  suffices folded : ∀ size' done, size ≤ size' → (∀ b ∈ done, After size' b) →
      (List.mapM.loop f list done).Grounded size' fun later values =>
        ∀ b ∈ values, After later b from
    folded size [] (Nat.le_refl size) nofun
  induction list with
  | nil => exact fun _ done _ held => pure fun b member => held b (List.mem_reverse.mp member)
  | cons a rest ih =>
    intro size' done grown held
    obtain ⟨here, behind⟩ := List.forall_mem_cons.mp each
    refine bind (here _ grown) fun b later grown' given => ?_
    refine ih behind later (b :: done) (grown.trans grown') (List.forall_mem_cons.mpr ⟨given, ?_⟩)
    exact fun b member => mono b _ _ grown' (held b member)

end Grounded

end Activity

end EntityScripting.Script
