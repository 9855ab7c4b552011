import EntityScripting.Proofs.Game.Trace
import EntityScripting.Proofs.Script.Evaluation

/-!
# The heaps of a session

An engine begins with an intact heap, and whatever a host has it do, every heap that a script finds
is intact: closed and in order. Scripts use nothing but what is there (`Reachable.grounded`).
-/

namespace EntityScripting

open Script

namespace Script.Heap

/-- An intact heap with so many tables at least. -/
structure IntactFrom (base : Nat) (heap : Heap) : Prop extends Intact heap where
  grown : base ≤ heap.tables.size

variable {base : Nat} {heap : Heap}

theorem IntactFrom.access (intact : heap.IntactFrom base) {α : Type} (access : Access α)
    (grounded : access.Grounded heap.tables.size) : (access.run heap).2.IntactFrom base := by
  obtain ⟨later, grown, -⟩ := intact.toIntact.access access grounded
  exact ⟨later, intact.grown.trans grown⟩

theorem IntactFrom.sealStore (intact : heap.IntactFrom base) (store : StoreId) :
    (heap.sealStore store).IntactFrom base := by
  have continues := intact.closed.sealStore store
  exact ⟨continues.intact intact.toIntact (intact.ordered.of_same rfl),
    intact.grown.trans continues.grown⟩

end Script.Heap

namespace Engine

open Script.Heap

variable {base : Nat} {limits : Limits} {engine next : Engine}

/-! ### The beginning -/

theorem intact_openApi : openApi.2.Intact where
  closed := closed_of_all openApi_below rfl
  ordered := ordered_openApi
  cells _ member := absurd member (Array.not_mem_empty _)

/-- An engine begins with an intact heap, and the table of its functions is there. -/
theorem intact_new (config : ScriptConfig) (seed : Nat) :
    (new config seed).heap.IntactFrom ((new config seed).state.api + 1) := by
  have allocated : openApi.1 < openApi.2.tables.size := by decide +kernel
  obtain ⟨continues, there⟩ := intact_openApi.closed.freeze allocated
  exact ⟨continues.intact intact_openApi (ordered_openApi.freeze _), there⟩

/-- A level begins with an intact heap. -/
theorem intact_prepare {heap : Heap} (intact : heap.IntactFrom base) {api : TableId}
    (there : api < heap.tables.size) (level : String) (code : FunctionBody) :
    (prepare heap api level code).2.2.IntactFrom base := by
  have binds : heap.Binds (initialGlobals api) := by
    intro name value bound
    rcases List.mem_cons.mp (SortedMap.mem_of_get?_ofList bound) with same | builtin
    · cases same
      exact there
    · obtain ⟨f, -, same⟩ := List.mem_map.mp builtin
      cases same
      trivial
  have stored := intact.closed.newStore binds
  have ordered : (heap.newStore (initialGlobals api)).2.Ordered := intact.ordered.of_same rfl
  have fits : (heap.newStore (initialGlobals api)).2.Fits heap.tables.size
      (.environment heap.stores.size) := by
    show heap.stores.size < (heap.stores.push _).size
    rw [Array.size_push]
    exact Nat.lt_succ_self _
  have made := stored.trans (stored.closed.newTable fits)
  have whole := made.intact intact.toIntact (ordered.newTable nofun)
  have environment : (Value.table heap.tables.size).Below ((heap.newStore
      (initialGlobals api)).2.newTable (.environment heap.stores.size)).2.tables.size :=
    lt_size_of_table? ((table?_newTable _ _ _).trans (if_pos rfl))
  have held := whole.newCell environment
  exact ⟨held.of_same rfl rfl held.cells, intact.grown.trans made.grown⟩

/-! ### Uses -/

theorem accounts_intact (base : Nat) : Accounts fun engine happenings next =>
    (∀ happening ∈ happenings, happening.Grounded) → engine.heap.IntactFrom base →
      next.heap.IntactFrom base where
  quiet quiet _ intact := quiet.heap ▸ intact
  append first second grounded intact :=
    have ⟨before, after⟩ := List.forall_mem_append.mp grounded
    second after (first before intact)
  access access _ grounded intact :=
    intact.access access (grounded _ (List.mem_singleton.mpr rfl)).2
  answer _ _ _ _ unused performed _ intact := heap_perform unused performed ▸ intact
  entrust _ _ _ _ _ intact := intact

theorem Opening.grounded {routine : Routine} (opening : Opening routine) (size : Nat) :
    routine.Grounded size := by
  cases opening with
  | entity callee self other activator =>
    refine Activity.Grounded.routine (.bind .wrap fun self _ _ below => ?_)
    refine .bind (Value.grounded_ofHandle? other) fun other _ grown below' => ?_
    refine .bind (Value.grounded_ofHandle? activator) fun activator _ grown' held => ?_
    have below := below.mono (grown.trans grown')
    exact .call (.cons below (.cons (below'.mono grown') (.cons held .nil)))
  | level closure => exact Activity.Grounded.routine (.call .nil)

/-- A use that a script sets off loses no table. -/
theorem grounds_perform {depth : Nat}
    (uses : ∀ event (engine : Engine), engine.heap.IntactFrom base →
      ∀ happening ∈ useTrace limits depth event engine, happening.Grounded) :
    Routine.Grounds (perform (useWithin limits depth)) fun engine : Engine =>
      engine.heap.IntactFrom base where
  intact intact := intact.toIntact
  access access _ intact := intact.access access
  ask request engine next answer intact performed := by
    cases used : used? request engine with
    | none =>
      have same := heap_perform used performed
      exact ⟨same ▸ intact, Nat.le_of_eq (same ▸ rfl)⟩
    | some event =>
      have went := perform_used used performed
      have meets := uses event engine intact
      -- The account holds for every base, so it also tells that the heap has not shrunk.
      have whole : engine.heap.IntactFrom engine.heap.tables.size :=
        ⟨intact.toIntact, Nat.le_refl _⟩
      exact ⟨useWithin_accounts (accounts_intact base) depth went meets intact,
        (useWithin_accounts (accounts_intact _) depth went meets whole).grown⟩

theorem carries_intact (base : Nat) :
    Carries limits (fun engine : Engine => engine.heap.IntactFrom base) Happening.Grounded where
  accounts := accounts_intact base
  clock _ intact := intact
  take _ intact := intact
  script uses within opening intact :=
    Routine.trace_grounded (grounds_perform uses) within intact (opening.grounded _) nofun
  clear intact := intact
  named _ _ intact := intact
  shut store intact := intact.sealStore store

/-! ### Sessions -/

theorem intact_obey {command : Command} (intact : engine.heap.IntactFrom base)
    (there : engine.state.api < base) (obeyed : engine.obey limits command = some next) :
    next.heap.IntactFrom base := by
  have begun (level : String) (code : FunctionBody) :
      (prepare engine.heap engine.state.api level code).2.2.IntactFrom base :=
    intact_prepare intact (Nat.lt_of_lt_of_le there intact.grown) level code
  refine obey_carries (carries_intact base) intact begun (fun service obeyed => ?_) obeyed
  cases command with
  | loadSource | loadFile | use | advance => cases service
  | _ =>
    cases obeyed
    exact intact

theorem Reachable.intact (reachable : Reachable limits engine) :
    engine.heap.IntactFrom (engine.state.api + 1) := by
  induction reachable with
  | new config seed => exact intact_new config seed
  | obey command _ obeyed ih =>
    rw [(follows_obey obeyed).api]
    exact intact_obey ih (Nat.lt_succ_self _) obeyed

/-- Whatever a host has an engine do, every heap that a script finds is closed and in order, and no
script ever uses a table that is not there. -/
theorem Reachable.grounded (reachable : Reachable limits engine) :
    engine.heap.Intact ∧ ∀ command, ∀ happening ∈ commandTrace limits engine command,
      happening.Grounded := by
  have intact := reachable.intact
  refine ⟨intact.toIntact, commandTrace_conducts (carries_intact _).toConducts intact ?_⟩
  exact fun level code => intact_prepare intact intact.grown level code

/-- In a session, a table that a script gives a global name is there, and the name is bound to the
view of it that its freeze makes. -/
theorem Reachable.defines (reachable : Reachable limits engine) {command : Command}
    {world : World Game} {space t : TableId} {name : Text.Bytes} {store : StoreId}
    (written : .access (.set space (.text name) (.table t)) world ∈
      commandTrace limits engine command)
    (names : world.heap.table? space = some (.environment store))
    (accepted : world.heap.writeError? space (.text name) (.table t) = none) :
    ∃ view after views, world.heap.Frozen t view after views ∧ after.Closed ∧ after.Ordered ∧
      (Access.set space (.text name) (.table t)).run world.heap =
        (.ok (), after.bind store name (.table view)) := by
  obtain ⟨intact, -, -, allocated⟩ := reachable.grounded.2 command _ written
  obtain ⟨views, frozen⟩ := freeze_spec intact.closed allocated
  refine ⟨_, _, views, frozen, frozen.closed intact.closed, intact.ordered.freeze t, ?_⟩
  simp only [Access.run, accepted, Heap.write, names, Heap.define]

end Engine

end EntityScripting
