import EntityScripting.Proofs.Game.Relay
import EntityScripting.Proofs.Game.TriggerContext
import EntityScripting.Proofs.Script.Trace

/-!
# Traces of uses

All that scripts do while an entity is used, while a level is loaded or in a frame, use by use in
the order in which it is done. `useWithin_accounts` derives what a use comes to from its trace,
`meets_useTrace` what holds of the heap all along it.
-/

namespace EntityScripting

open Number Script

namespace Pool

def Operation.isBare : Operation → Bool
  | .spawn | .free _ | .kill _ | .centerPrint .. | .sound .. => true
  | _ => false

def Barely (p q : Pool) : Prop := ∃ ops, q = p.run ops ∧ ∀ op ∈ ops, op.isBare = true

theorem Barely.refl (p : Pool) : p.Barely p := ⟨[], rfl, nofun⟩

theorem Barely.apply {p q : Pool} (barely : p.Barely q) (op : Operation) (bare : op.isBare = true) :
    p.Barely (q.apply op) := by
  obtain ⟨ops, rfl, all⟩ := barely
  refine ⟨ops ++ [op], (run_append p ops [op]).symm, ?_⟩
  intro other member
  rcases List.mem_append.mp member with earlier | last
  · exact all other earlier
  · obtain rfl := List.mem_singleton.mp last
    exact bare

theorem barely_runCallback (callback : Callback) {p q : Pool} (barely : p.Barely q) :
    p.Barely (q.runCallback callback).value := by
  induction callback generalizing q with
  | done => exact barely
  | spawn next ih =>
    unfold runCallback
    split
    · rename_i spawned
      have made := barely.apply .spawn rfl
      simp only [Pool.apply, spawned] at made
      exact ih _ made
    · exact ih _ barely
  | free id next ih => exact ih (barely.apply (.free id) rfl)
  | kill id next ih => exact ih (barely.apply (.kill id) rfl)
  | announce id text next ih => exact ih (barely.apply (.centerPrint id text) rfl)

theorem Covers.barely {Step : Pool → Pool → Prop} (covers : Covers Step) {p q : Pool}
    (barely : p.Barely q) : Step p q := by
  obtain ⟨ops, rfl, bare⟩ := barely
  induction ops generalizing p with
  | nil => exact covers.refl p
  | cons op ops ih =>
    have first : Step p (p.apply op) := by
      cases op with
      | spawn =>
        simp only [Pool.apply]
        cases spawned : p.spawn? with
        | none => exact covers.refl p
        | some result => exact covers.spawn? spawned
      | free id => exact covers.free p id
      | kill id => exact covers.kill p id
      | centerPrint id text => exact covers.centerPrint p id text
      | sound id sample => exact covers.sound p id sample
      | _ => cases bare _ List.mem_cons_self
    exact covers.trans first (ih fun other member => bare other (List.mem_cons_of_mem op member))

end Pool

namespace Engine

/-- What is the same after a step in which no script does anything. -/
structure Quiet (engine next : Engine) : Prop where
  heap : next.heap = engine.heap
  level : next.state.level = engine.state.level
  table : ∀ kind, next.state.table kind = engine.state.table kind
  pool : engine.state.pool.Barely next.state.pool

theorem Quiet.refl (engine : Engine) : engine.Quiet engine := ⟨rfl, rfl, fun _ => rfl, .refl _⟩

structure Still (engine next : Engine) : Prop where
  heap : next.heap = engine.heap
  level : next.state.level = engine.state.level
  table : ∀ kind, next.state.table kind = engine.state.table kind
  pool : next.state.pool = engine.state.pool

theorem Still.quiet {engine next : Engine} (still : engine.Still next) : engine.Quiet next :=
  ⟨still.heap, still.level, still.table, still.pool ▸ .refl _⟩

theorem still_note (engine : Engine) (severity : Severity) (text : String) :
    engine.Still (engine.note severity text) :=
  ⟨rfl, rfl, fun kind => by cases kind <;> rfl, rfl⟩

theorem quiet_note (engine : Engine) (severity : Severity) (text : String) :
    engine.Quiet (engine.note severity text) := (engine.still_note severity text).quiet

theorem quiet_withPool (engine : Engine) {f : Pool → Logged Pool}
    (barely : ∀ p : Pool, p.Barely (f p).value) :
    engine.Quiet (engine.update fun g => g.withPool (f g.pool)) :=
  ⟨rfl, rfl, fun kind => by cases kind <;> rfl, barely _⟩

def inside (traceOf : UseEvent → Engine → List (Happening Game)) : Inside Game :=
  fun request engine =>
    match used? request engine with
    | some event => traceOf event engine
    | none => []

def calling (callee : Callee) (event : UseEvent) (engine : Engine) : Routine :=
  let frame := TriggerFrame.of engine.state event
  callRoutine callee frame.self (event.other.map engine.state.pool.wrap) frame.activator

/-- The call that a use of a script entity makes, if it makes one. -/
def entered? (event : UseEvent) (engine : Engine) : Option Routine :=
  match (engine.state.pool.entity? event.target).bind (·.fields.scriptFunction),
    engine.state.level with
  | some name, some level =>
    match engine.heap.bound level.globals (.ofString name) with
    | .function callee => some (calling callee event engine)
    | _ => none
  | _, _ => none

def entering (event : UseEvent) (engine : Engine) : Engine :=
  ⟨engine.state.entering (.of engine.state event), engine.heap⟩

theorem quiet_entering (event : UseEvent) (engine : Engine) :
    engine.Quiet (entering event engine) :=
  ⟨rfl, rfl, fun kind => by cases kind <;> rfl, .refl _⟩

theorem callScript_cases {limits : Limits} {usage : Usage} {callee : Callee} {label name : String}
    {event : UseEvent} {engine next : Engine}
    (called : callScript limits usage callee label name event engine = some next) :
    ∃ outcome ended, (calling callee event engine).run limits (perform usage)
        (entering event engine) = some (outcome, ended) ∧ Still ended next := by
  obtain ⟨g, heap⟩ := engine
  simp only [callScript] at called
  split at called
  · cases called
  · rename_i outcome last heap' ran
    cases called
    refine ⟨outcome, ⟨last, heap'⟩, ran, ?_⟩
    cases outcome <;> exact ⟨rfl, rfl, fun kind => by cases kind <;> rfl, rfl⟩

/-- A use of a script entity is a call, or no more than a record. -/
theorem useScript_cases {limits : Limits} {usage : Usage} {event : UseEvent} {engine next : Engine}
    (used : useScript limits usage event engine = some next) :
    entered? event engine = none ∧ engine.Still next ∨
      ∃ routine outcome ended, entered? event engine = some routine ∧
        routine.run limits (perform usage) (entering event engine) = some (outcome, ended) ∧
        Still ended next := by
  unfold useScript at used
  unfold entered?
  split at used
  · rename_i missing
    cases used
    rw [missing]
    exact .inl ⟨rfl, rfl, rfl, fun _ => rfl, rfl⟩
  rename_i e found
  rw [found]
  dsimp only [Option.bind_some] at used ⊢
  split at used
  · rename_i unloaded
    cases used
    rw [unloaded]
    exact .inl ⟨by cases e.fields.scriptFunction <;> rfl, still_note ..⟩
  · rename_i unnamed
    cases used
    rw [unnamed]
    exact .inl ⟨rfl, still_note ..⟩
  · rename_i level name loaded named
    rw [loaded, named]
    dsimp only
    split at used
    · rename_i callee bound
      obtain ⟨outcome, ended, ran, after⟩ := callScript_cases used
      rw [bound]
      exact .inr ⟨_, outcome, ended, rfl, ran, after⟩
    · rename_i unbound
      cases used
      rw [unbound]
      exact .inl ⟨rfl, still_note ..⟩
    · rename_i other unlike _
      cases used
      refine .inl ⟨?_, still_note ..⟩
      split
      · rename_i callee bound
        exact absurd bound (unlike callee)
      · rfl

/-! ### Traces -/

def useTrace (limits : Limits) : (depth : Nat) → UseEvent → Engine → List (Happening Game)
  | 0, _, _ => []
  | depth + 1, event, engine =>
    match behavior? engine.state event.target with
    | some .script =>
      match entered? event engine with
      | some routine =>
        routine.trace limits.turns (perform (useWithin limits depth))
          (inside (useTrace limits depth)) limits.steps [] (entering event engine)
      | none => []
    | some .relay =>
      (relayed limits depth event engine).flatMap fun (use, now) => useTrace limits depth use now
    | _ => []

def fired? (helper : EntityId) (think : Think) (engine : Engine) : Option UseEvent :=
  let pool := engine.state.pool
  match think with
  | .trigger target activator =>
    match target.resolve pool with
    | some id =>
      if (pool.entity? id).any fun e => e.use.isSome then
        some ⟨id, some helper, activator.bind fun h => h.resolve pool⟩
      else none
    | none => none
  | _ => none

def fireTrace (limits : Limits) : (count : Nat) → Engine → List (Happening Game)
  | 0, _ => []
  | count + 1, engine =>
    match engine.state.pool.takeDue? with
    | none => []
    | some (helper, think, pool) =>
      let taken := engine.update fun g => { g with pool }
      (match fired? helper think taken with
        | some event => useTrace limits limits.nesting event taken
        | none => []) ++
      match fire (use limits) helper think taken with
      | some after => fireTrace limits count (retire (pool.wrap helper) after)
      | none => []

/-- What a program does as the script of a level, with what is counted to happen inside the answers
that it gets. -/
def levelTrace (limits : Limits) (within : Inside Game) (level : String) (code : FunctionBody)
    (engine : Engine) : List (Happening Game) :=
  let (_, closure, heap) := prepare engine.heap engine.state.api level code
  (Activity.call (.function (.closure closure)) [] []).routine.trace limits.turns
    (perform (use limits)) within limits.steps [] ⟨engine.state, heap⟩

def loadTrace (limits : Limits) (within : Inside Game) (level source : String) (engine : Engine) :
    List (Happening Game) :=
  match Program.read? (Text.utf8 source) with
  | some code => levelTrace limits within level code (engine.update Game.clearLevel)
  | none => []

def commandTrace (limits : Limits) (engine : Engine) : Command → List (Happening Game)
  | .loadSource level source | .loadFile level (.ok source) =>
    loadTrace limits (inside (useTrace limits limits.nesting)) level source engine
  | .use event => useTrace limits limits.nesting event engine
  | .advance seconds =>
    fireTrace limits limits.steps
      (engine.update fun g => { g with pool := g.pool.advance seconds })
  | _ => []

/-! ### What a use comes to -/

/-- A relation between an engine, what scripts do then, and the engine after it. -/
structure Accounts (Account : Engine → List (Happening Game) → Engine → Prop) : Prop where
  quiet : ∀ {engine next : Engine}, engine.Quiet next → Account engine [] next
  append : ∀ {engine middle last : Engine} {first second : List (Happening Game)},
    Account engine first middle → Account middle second last → Account engine (first ++ second) last
  access : ∀ {α : Type} (access : Access α) (engine : Engine),
    Account engine [.access access engine] ⟨engine.state, (access.run engine.heap).2⟩
  answer : ∀ {usage : Usage} {α : Type} (request : Request α) {engine next : Engine} {answer : α},
    used? request engine = none → perform usage request engine = some (answer, next) →
    Account engine [.ask request engine] next
  entrust : ∀ {α : Type} (request : Request α) {engine : Engine} {event : UseEvent},
    used? request engine = some event → Account engine [.ask request engine] engine

section

variable {Account : Engine → List (Happening Game) → Engine → Prop} {limits : Limits}

theorem accounts_perform (accounts : Accounts Account) {usage : Usage}
    {traceOf : UseEvent → Engine → List (Happening Game)}
    (uses : ∀ event engine next, usage event engine = some next →
      Account engine (traceOf event engine) next) :
    Routine.Accounts (perform usage) (inside traceOf) Account where
  nothing engine := accounts.quiet (.refl engine)
  append := accounts.append
  access := accounts.access
  ask request _ _ _ performed := by
    unfold inside
    split
    · rename_i event used
      -- The request itself comes first, and then all that its use brings about.
      have begun := accounts.entrust request used
      exact accounts.append begun (uses _ _ _ (perform_used used performed))
    · rename_i none
      exact accounts.answer request none performed

/-- What some uses come to, one after another, whatever it is that is listed of each. -/
theorem useEach_composes {τ : Type*} {Account : Engine → List τ → Engine → Prop}
    (nothing : ∀ engine, Account engine [] engine)
    (append : ∀ {engine middle last : Engine} {first second : List τ}, Account engine first middle →
      Account middle second last → Account engine (first ++ second) last)
    {usage : Usage} {listOf : UseEvent → Engine → List τ}
    (uses : ∀ event engine next, usage event engine = some next →
      Account engine (listOf event engine) next)
    {other activator : Option EntityId} {handles : List Handle} {engine next : Engine}
    (used : useEach usage other activator handles engine = some next) :
    Account engine ((dispatched usage other activator handles engine).flatMap
      fun (use, now) => listOf use now) next := by
  induction handles generalizing engine with
  | nil =>
    cases used
    exact nothing _
  | cons h rest ih =>
    unfold useEach at used
    unfold dispatched
    cases resolved : h.resolve engine.state.pool with
    | none =>
      rw [resolved] at used
      exact ih used
    | some target =>
      rw [resolved] at used
      dsimp only at used ⊢
      cases first : usage ⟨target, other, activator⟩ engine with
      | none =>
        rw [first] at used
        cases used
      | some after =>
        rw [first] at used
        exact append (uses _ _ _ first) (ih used)

theorem useWithin_accounts (accounts : Accounts Account) (depth : Nat) {event : UseEvent}
    {engine next : Engine} (used : useWithin limits depth event engine = some next) :
    Account engine (useTrace limits depth event engine) next := by
  induction depth generalizing event engine next with
  | zero => cases used
  | succ depth ih =>
    unfold useWithin at used
    unfold useTrace
    split at used
    · rename_i none
      cases used
      rw [none]
      exact accounts.quiet (quiet_note ..)
    · rename_i script
      rw [script]
      dsimp only
      rcases useScript_cases used with ⟨none, still⟩ |
        ⟨routine, outcome, ended, entered, ran, after⟩
      · rw [none]
        exact accounts.quiet still.quiet
      · rw [entered]
        -- What scripts do is all inside the call; the engine enters and leaves it in silence.
        have body := Routine.runWith_accounts
          (accounts_perform accounts fun _ _ _ => ih) limits.turns ran
        have closed := accounts.append body (accounts.quiet after.quiet)
        have whole := accounts.append (accounts.quiet (quiet_entering event engine)) closed
        rwa [List.append_nil] at whole
    · rename_i relay
      rw [relay]
      exact useEach_composes (fun engine => accounts.quiet (.refl engine)) accounts.append
        (fun _ _ _ => ih) used
    · rename_i callback native
      cases used
      rw [native]
      exact accounts.quiet (quiet_withPool _ fun p => Pool.barely_runCallback _ (.refl p))

theorem fire_accounts (accounts : Accounts Account) {helper : EntityId} {think : Think}
    {engine next : Engine} (fired : fire (use limits) helper think engine = some next) :
    Account engine (match fired? helper think engine with
      | some event => useTrace limits limits.nesting event engine
      | none => []) next := by
  cases think with
  | trigger target activator =>
    simp only [fire] at fired
    simp only [fired?]
    split at fired
    · rename_i gone
      cases fired
      rw [gone]
      exact accounts.quiet (quiet_note ..)
    · rename_i id resolved
      rw [resolved]
      split at fired
      · rename_i usable
        simp only [usable, if_true]
        exact useWithin_accounts accounts limits.nesting fired
      · rename_i unusable
        cases fired
        simp only [unusable]
        exact accounts.quiet (quiet_note ..)
  | kill target =>
    simp only [fire] at fired
    split at fired
    · cases fired
      exact accounts.quiet (quiet_note ..)
    · rename_i id _
      cases fired
      exact accounts.quiet (quiet_withPool _ fun p => (Pool.Barely.refl p).apply (.kill id) rfl)
  | message target =>
    simp only [fire] at fired
    split at fired
    · cases fired
      exact accounts.quiet (quiet_note ..)
    · rename_i id text _ _
      cases fired
      refine accounts.quiet ⟨rfl, rfl, fun kind => by cases kind <;> rfl, ?_⟩
      exact ((Pool.Barely.refl _).apply (.centerPrint id text) rfl).apply (.sound id talkSound) rfl
    · cases fired
      exact accounts.quiet (.refl _)

theorem quiet_retire (helper : Handle) (engine : Engine) : engine.Quiet (retire helper engine) := by
  simp only [retire, update]
  split
  · rename_i id _
    refine ⟨rfl, rfl, fun kind => by cases kind <;> rfl, ?_⟩
    exact (Pool.Barely.refl _).apply (.free id) rfl
  · exact .refl _

theorem fireDue_accounts (accounts : Accounts Account)
    (take : ∀ {engine : Engine} {helper : EntityId} {think : Think} {pool : Pool},
      engine.state.pool.takeDue? = some (helper, think, pool) →
      Account engine [] (engine.update fun g => { g with pool }))
    {count : Nat} {engine next : Engine} (fired : fireDue (use limits) count engine = some next) :
    Account engine (fireTrace limits count engine) next := by
  induction count generalizing engine with
  | zero => cases fired
  | succ count ih =>
    unfold fireDue at fired
    unfold fireTrace
    cases taken : engine.state.pool.takeDue? with
    | none =>
      rw [taken] at fired
      cases fired
      exact accounts.quiet (.refl _)
    | some first =>
      obtain ⟨helper, think, pool⟩ := first
      rw [taken] at fired
      dsimp only at fired ⊢
      cases action : fire (use limits) helper think (engine.update fun g => { g with pool }) with
      | none =>
        rw [action] at fired
        cases fired
      | some after =>
        rw [action] at fired
        have acted := accounts.append (fire_accounts accounts action)
          (accounts.quiet (quiet_retire (pool.wrap helper) after))
        rw [List.append_nil] at acted
        exact accounts.append (accounts.append (take taken) acted) (ih fired)

end

/-! ### What holds all along -/

theorem dispatched_meets {usage : Usage} {Good : Engine → Prop}
    (kept : ∀ event engine next, Good engine → usage event engine = some next → Good next)
    {other activator : Option EntityId} {handles : List Handle} {engine now : Engine}
    {use : UseEvent} (good : Good engine)
    (member : (use, now) ∈ dispatched usage other activator handles engine) : Good now := by
  induction handles generalizing engine with
  | nil => cases member
  | cons h rest ih =>
    unfold dispatched at member
    split at member
    · exact ih good member
    · rcases List.mem_cons.mp member with first | later
      · obtain ⟨-, rfl⟩ := Prod.mk.inj first
        exact good
      · split at later
        · rename_i used
          exact ih (kept _ _ _ good used) later
        · cases later

structure Sustains (Good : Engine → Prop) : Prop where
  quiet : ∀ {engine next : Engine}, engine.Quiet next → Good engine → Good next
  access : ∀ {α : Type} (access : Access α) {engine : Engine}, Good engine →
    Good ⟨engine.state, (access.run engine.heap).2⟩
  answer : ∀ {usage : Usage} {α : Type} (request : Request α) {engine next : Engine} {answer : α},
    used? request engine = none → perform usage request engine = some (answer, next) →
    Good engine → Good next
  clock : ∀ {engine : Engine} (seconds : Single), Good engine →
    Good (engine.update fun g => { g with pool := g.pool.advance seconds })
  take : ∀ {engine : Engine} {helper : EntityId} {think : Think} {pool : Pool},
    engine.state.pool.takeDue? = some (helper, think, pool) → Good engine →
    Good (engine.update fun g => { g with pool })

/-- The routines that the engine itself begins. -/
inductive Opening : Routine → Prop where
  | entity (callee : Callee) (self : Handle) (other activator : Option Handle) :
    Opening (callRoutine callee self other activator)
  | level (closure : ClosureId) :
    Opening (Activity.call (.function (.closure closure)) [] []).routine

theorem entered?_opening {event : UseEvent} {engine : Engine} {routine : Routine}
    (entered : entered? event engine = some routine) : Opening routine := by
  unfold entered? at entered
  split at entered
  · split at entered
    · cases entered
      exact .entity ..
    · cases entered
  · cases entered

/-- A property of engines that is kept as long as what scripts do meets another one, and why they
meet it: a script that the engine begins does if the uses inside it do. -/
structure Conducts (limits : Limits) (Good : Engine → Prop) (Meets : Happening Game → Prop) :
    Prop where
  accounts : Accounts fun engine happenings next =>
    (∀ happening ∈ happenings, Meets happening) → Good engine → Good next
  clock : ∀ {engine : Engine} (seconds : Single), Good engine →
    Good (engine.update fun g => { g with pool := g.pool.advance seconds })
  take : ∀ {engine : Engine} {helper : EntityId} {think : Think} {pool : Pool},
    engine.state.pool.takeDue? = some (helper, think, pool) → Good engine →
    Good (engine.update fun g => { g with pool })
  script : ∀ {depth : Nat} {within : Inside Game} {routine : Routine} {engine : Engine},
    (∀ event engine, Good engine →
      ∀ happening ∈ useTrace limits depth event engine, Meets happening) →
    (∀ {α : Type} (request : Request α) {engine : Engine}, Good engine →
      ∀ happening ∈ within request engine, Meets happening) →
    Opening routine → Good engine →
    ∀ happening ∈ routine.trace limits.turns (perform (useWithin limits depth)) within limits.steps
      [] engine, Meets happening

section

variable {Good : Engine → Prop} {Meets : Happening Game → Prop} {limits : Limits}
  {engine next : Engine}

theorem inside_meets {traceOf : UseEvent → Engine → List (Happening Game)}
    (uses : ∀ event engine, Good engine → ∀ happening ∈ traceOf event engine, Meets happening)
    {α : Type} (request : Request α) (good : Good engine) :
    ∀ happening ∈ inside traceOf request engine, Meets happening := by
  unfold inside
  split
  · exact uses _ _ good
  · exact fun _ member => nomatch member

theorem Conducts.quiet (conducts : Conducts limits Good Meets) (quiet : engine.Quiet next)
    (good : Good engine) : Good next :=
  conducts.accounts.quiet quiet (fun _ member => nomatch member) good

/-- What scripts do meets the property wherever they find themselves while an entity is used,
whether the use comes to an end or not. -/
theorem useTrace_conducts (conducts : Conducts limits Good Meets) (depth : Nat) {event : UseEvent}
    (good : Good engine) : ∀ happening ∈ useTrace limits depth event engine, Meets happening := by
  induction depth generalizing event engine with
  | zero => exact fun _ member => nomatch member
  | succ depth ih =>
    unfold useTrace
    split
    · split
      · rename_i entered
        have begun := conducts.quiet (quiet_entering event engine) good
        exact conducts.script (fun _ _ => ih)
          (fun request _ => inside_meets (fun _ _ => ih) request) (entered?_opening entered) begun
      · exact fun _ member => nomatch member
    · intro happening member
      obtain ⟨⟨use, now⟩, listed, inner⟩ := List.mem_flatMap.mp member
      have good' : Good now := dispatched_meets
        (fun _ _ _ good used => useWithin_accounts conducts.accounts depth used (ih good) good)
        good listed
      exact ih good' _ inner
    · exact fun _ member => nomatch member

theorem useWithin_conducts (conducts : Conducts limits Good Meets) (depth : Nat) {event : UseEvent}
    (good : Good engine) (used : useWithin limits depth event engine = some next) : Good next :=
  useWithin_accounts conducts.accounts depth used (useTrace_conducts conducts depth good) good

theorem fire_conducts (conducts : Conducts limits Good Meets) {helper : EntityId} {think : Think}
    (good : Good engine) :
    (∀ happening ∈ (match fired? helper think engine with
        | some event => useTrace limits limits.nesting event engine
        | none => []), Meets happening) ∧
      ∀ next, fire (use limits) helper think engine = some next → Good next := by
  have meets : ∀ happening ∈ (match fired? helper think engine with
      | some event => useTrace limits limits.nesting event engine
      | none => []), Meets happening := by
    split
    · exact useTrace_conducts conducts limits.nesting good
    · exact fun _ member => nomatch member
  exact ⟨meets, fun next fired => fire_accounts conducts.accounts fired meets good⟩

theorem fireTrace_conducts (conducts : Conducts limits Good Meets) (count : Nat)
    (good : Good engine) : ∀ happening ∈ fireTrace limits count engine, Meets happening := by
  induction count generalizing engine with
  | zero => exact fun _ member => nomatch member
  | succ count ih =>
    intro happening member
    unfold fireTrace at member
    split at member
    · cases member
    · rename_i helper think pool taken
      dsimp only at member
      obtain ⟨meets, acts⟩ := fire_conducts conducts (conducts.take taken good)
      rcases List.mem_append.mp member with firing | later
      · exact meets _ firing
      · split at later
        · rename_i after fired
          exact ih (conducts.quiet (quiet_retire (pool.wrap helper) after) (acts _ fired)) _ later
        · cases later

theorem fireDue_conducts (conducts : Conducts limits Good Meets) {count : Nat} (good : Good engine)
    (fired : fireDue (use limits) count engine = some next) : Good next :=
  fireDue_accounts conducts.accounts (fun taken _ => conducts.take taken) fired
    (fireTrace_conducts conducts count good) good

/-- The script of a level leaves an engine of which the property holds. -/
theorem runLevel_conducts (conducts : Conducts limits Good Meets) {level : String}
    {code : FunctionBody} {result : Except Cause StoreId}
    (good : Good ⟨engine.state, (prepare engine.heap engine.state.api level code).2.2⟩)
    (ran : runLevel limits level code engine = some (result, next)) :
    ∃ ended : Engine, Good ended ∧
      (next = ended ∨ ∃ store, next = ⟨ended.state, ended.heap.sealStore store⟩) := by
  obtain ⟨g, heap⟩ := engine
  have uses (event : UseEvent) (engine : Engine) (good : Good engine) :
      ∀ happening ∈ useTrace limits limits.nesting event engine, Meets happening :=
    useTrace_conducts conducts limits.nesting good
  have accounts : Routine.Accounts (perform (use limits))
      (inside (useTrace limits limits.nesting)) _ :=
    accounts_perform conducts.accounts fun _ _ _ =>
      useWithin_accounts conducts.accounts limits.nesting
  have meets (closure : ClosureId) :=
    conducts.script uses (fun request _ => inside_meets uses request) (.level closure) good
  simp only [runLevel] at ran
  split at ran
  · cases ran
  · rename_i ended
    cases ran
    exact ⟨_, Routine.runWith_accounts accounts limits.turns ended (meets _) good, .inr ⟨_, rfl⟩⟩
  · rename_i ended
    cases ran
    exact ⟨_, Routine.runWith_accounts accounts limits.turns ended (meets _) good, .inl rfl⟩

theorem loadTrace_conducts (conducts : Conducts limits Good Meets) {within : Inside Game}
    (meets : ∀ {α : Type} (request : Request α) {engine : Engine}, Good engine →
      ∀ happening ∈ within request engine, Meets happening)
    {level : String}
    (begun : ∀ code,
      Good ⟨engine.state.clearLevel, (prepare engine.heap engine.state.api level code).2.2⟩)
    (source : String) :
    ∀ happening ∈ loadTrace limits within level source engine, Meets happening := by
  unfold loadTrace
  split
  · rename_i code _
    exact conducts.script (fun _ _ => useTrace_conducts conducts limits.nesting) meets (.level _)
      (begun code)
  · exact fun _ member => nomatch member

theorem commandTrace_conducts (conducts : Conducts limits Good Meets) (good : Good engine)
    (begun : ∀ level code,
      Good ⟨engine.state.clearLevel, (prepare engine.heap engine.state.api level code).2.2⟩)
    (command : Command) :
    ∀ happening ∈ commandTrace limits engine command, Meets happening := by
  have within {α : Type} (request : Request α) {now : Engine} (good : Good now) :
      ∀ happening ∈ inside (useTrace limits limits.nesting) request now, Meets happening :=
    inside_meets (fun _ _ => useTrace_conducts conducts limits.nesting) request good
  unfold commandTrace
  split
  · exact loadTrace_conducts conducts within (begun _) _
  · exact loadTrace_conducts conducts within (begun _) _
  · exact useTrace_conducts conducts limits.nesting good
  · exact fireTrace_conducts conducts limits.steps (conducts.clock _ good)
  · exact fun _ member => nomatch member

/-- The property is kept by the rest of a load as well. -/
structure Carries (limits : Limits) (Good : Engine → Prop) (Meets : Happening Game → Prop) : Prop
    extends Conducts limits Good Meets where
  clear : ∀ {engine : Engine}, Good engine → Good (engine.update Game.clearLevel)
  named : ∀ {engine : Engine} (level : Option Level) (log : Array Record), Good engine →
    Good (engine.update fun g => { g with level, log })
  shut : ∀ {engine : Engine} (store : StoreId), Good engine →
    Good ⟨engine.state, engine.heap.sealStore store⟩

theorem loadSource_carries (carries : Carries limits Good Meets) {level source : String}
    {result : Except LoadError Unit} (good : Good engine)
    (begun : ∀ code,
      Good ⟨engine.state.clearLevel, (prepare engine.heap engine.state.api level code).2.2⟩)
    (loaded : loadSource limits level source engine = some (result, next)) : Good next := by
  have ran {code : FunctionBody} {outcome : Except Cause StoreId} {after : Engine}
      (ran : runLevel limits level code (engine.update Game.clearLevel) = some (outcome, after)) :
      Good after := by
    obtain ⟨ended, good', rfl | ⟨store, rfl⟩⟩ :=
      runLevel_conducts carries.toConducts (begun code) ran
    · exact good'
    · exact carries.shut store good'
  simp only [loadSource] at loaded
  split at loaded
  · cases loaded
    exact carries.named _ _ (carries.clear good)
  · split at loaded
    · cases loaded
    · rename_i ended
      cases loaded
      exact carries.named _ _ (ran ended)
    · rename_i ended
      cases loaded
      exact carries.named _ _ (ran ended)

def Command.isService : Command → Bool
  | .loadSource .. | .loadFile .. | .use _ | .advance _ => false
  | _ => true

theorem obey_carries (carries : Carries limits Good Meets) {command : Command} (good : Good engine)
    (begun : ∀ level code,
      Good ⟨engine.state.clearLevel, (prepare engine.heap engine.state.api level code).2.2⟩)
    (service : command.isService = true → engine.obey limits command = some next → Good next)
    (obeyed : engine.obey limits command = some next) : Good next := by
  cases command with
  | loadSource level source =>
    obtain ⟨⟨result, last⟩, loaded, rfl⟩ := Option.map_eq_some_iff.mp obeyed
    exact loadSource_carries carries good (begun _) loaded
  | loadFile level content =>
    obtain ⟨⟨result, last⟩, loaded, rfl⟩ := Option.map_eq_some_iff.mp obeyed
    cases content with
    | ok source => exact loadSource_carries carries good (begun _) loaded
    | error e =>
      cases loaded
      exact carries.named _ _ (carries.clear good)
  | use event => exact useWithin_conducts carries.toConducts limits.nesting good obeyed
  | advance seconds =>
    exact fireDue_conducts carries.toConducts (carries.clock seconds good) obeyed
  | _ => exact service rfl obeyed

/-! ### What accesses and answers keep -/

theorem accounts_sustains (sustains : Sustains Good) :
    Accounts fun engine _ next => Good engine → Good next where
  quiet quiet := sustains.quiet quiet
  append first second := second ∘ first
  access access _ := sustains.access access
  answer request _ _ _ := sustains.answer request
  entrust _ _ _ _ good := good

theorem useWithin_sustains (sustains : Sustains Good) (depth : Nat) {event : UseEvent}
    (good : Good engine) (used : useWithin limits depth event engine = some next) : Good next :=
  useWithin_accounts (accounts_sustains sustains) depth used good

theorem kept_perform_sustains (sustains : Sustains Good) (depth : Nat) :
    Routine.Kept (perform (useWithin limits depth)) Good where
  access access _ good := sustains.access access good
  ask request engine next _ good performed := by
    cases used : used? request engine with
    | none => exact sustains.answer request used performed good
    | some event => exact useWithin_sustains sustains depth good (perform_used used performed)

theorem Sustains.conducts (sustains : Sustains Good) :
    Conducts limits Good fun happening => Good happening.world where
  accounts := {
    quiet quiet _ := sustains.quiet quiet
    append first second meets good :=
      have ⟨before, after⟩ := List.forall_mem_append.mp meets
      second after (first before good)
    access access _ _ := sustains.access access
    answer request _ _ _ unused performed _ := sustains.answer request unused performed
    entrust _ _ _ _ _ good := good }
  clock := sustains.clock
  take := sustains.take
  script _ within _ good :=
    Routine.runWith_meets (kept_perform_sustains sustains _) within limits.turns good

structure Lasts (Good : Engine → Prop) : Prop extends Sustains Good where
  start : ∀ {engine : Engine} (level : String) (code : FunctionBody), Good engine →
    Good ⟨engine.state.clearLevel, (prepare engine.heap engine.state.api level code).2.2⟩

theorem commandTrace_sustains (lasts : Lasts Good) (good : Good engine) (command : Command) :
    ∀ happening ∈ commandTrace limits engine command, Good happening.world :=
  commandTrace_conducts lasts.conducts good (fun level code => lasts.start level code good) command

structure Endures (Good : Engine → Prop) : Prop extends Lasts Good where
  clear : ∀ {engine : Engine}, Good engine → Good (engine.update Game.clearLevel)
  named : ∀ {engine : Engine} (level : Option Level) (log : Array Record), Good engine →
    Good (engine.update fun g => { g with level, log })
  shut : ∀ {engine : Engine} (store : StoreId), Good engine →
    Good ⟨engine.state, engine.heap.sealStore store⟩

theorem obey_endures (endures : Endures Good) {command : Command} (good : Good engine)
    (service : command.isService = true → engine.obey limits command = some next → Good next)
    (obeyed : engine.obey limits command = some next) : Good next := by
  have carries : Carries limits Good fun happening => Good happening.world :=
    ⟨endures.conducts, endures.clear, endures.named, endures.shut⟩
  exact obey_carries carries good (fun level code => endures.start level code good) service obeyed

end

theorem entered?_unloaded (event : UseEvent) {engine : Engine}
    (unloaded : engine.state.level = none) : entered? event engine = none := by
  unfold entered?
  rw [unloaded]
  cases (engine.state.pool.entity? event.target).bind (·.fields.scriptFunction) <;> rfl

/-- Scripts of entities do nothing while no level is loaded. -/
theorem useTrace_unloaded (limits : Limits) (depth : Nat) {event : UseEvent} {engine : Engine}
    (unloaded : engine.state.level = none) : useTrace limits depth event engine = [] := by
  induction depth generalizing event engine with
  | zero => rfl
  | succ depth ih =>
    unfold useTrace
    split
    · rw [entered?_unloaded event unloaded]
    · have stays (event : UseEvent) (engine next : Engine) (unloaded : engine.state.level = none)
          (used : useWithin limits depth event engine = some next) : next.state.level = none :=
        (useWithin_keeps limits depth used).level.trans unloaded
      exact List.flatMap_eq_nil_iff.mpr fun ⟨use, now⟩ member =>
        ih (dispatched_meets stays unloaded member)
    · rfl

def HeapKept (Good : Heap → Prop) : Prop :=
  ∀ {α : Type} (access : Access α) {heap : Heap}, Good heap → Good (access.run heap).2

/-- Only the use of an entity changes the heap before a script is answered. -/
theorem heap_perform {usage : Usage} {α : Type} {request : Request α} {engine next : Engine}
    {answer : α} (none : used? request engine = none)
    (performed : perform usage request engine = some (answer, next)) :
    next.heap = engine.heap := by
  obtain ⟨g, heap⟩ := engine
  cases request with
  | trigger h delay =>
    simp only [used?] at none
    simp only [perform] at performed
    generalize Game.trigger h delay g = result at none performed
    obtain ⟨_ | _ | event, g'⟩ := result
    · cases performed
      rfl
    · cases performed
      rfl
    · cases none
  | _ =>
    cases performed
    rfl

section

variable {Good : Heap → Prop} {limits : Limits}

theorem sustains_heap (kept : HeapKept Good) : Sustains fun engine => Good engine.heap where
  quiet quiet good := quiet.heap ▸ good
  access access _ good := kept access good
  answer _ _ _ _ none performed good := heap_perform none performed ▸ good
  clock _ good := good
  take _ good := good

structure HeapLasts (Good : Heap → Prop) : Prop where
  access : HeapKept Good
  prepare : ∀ {heap : Heap} (api : TableId) (level : String) (code : FunctionBody),
    Good heap → Good (prepare heap api level code).2.2
  sealStore : ∀ {heap : Heap} (store : StoreId), Good heap → Good (heap.sealStore store)

theorem lasts_heap (lasts : HeapLasts Good) : Lasts fun engine => Good engine.heap where
  toSustains := sustains_heap lasts.access
  start level code good := lasts.prepare _ level code good

theorem kept_perform_heap (kept : HeapKept Good) (depth : Nat) :
    Routine.Kept (perform (useWithin limits depth)) fun engine : Engine => Good engine.heap :=
  kept_perform_sustains (sustains_heap kept) depth

theorem meets_inside {traceOf : UseEvent → Engine → List (Happening Game)}
    (uses : ∀ event engine, Good (World.heap engine) →
      ∀ happening ∈ traceOf event engine, Good happening.world.heap)
    {α : Type} (request : Request α) {engine : Engine} (good : Good engine.heap) :
    ∀ happening ∈ inside traceOf request engine, Good happening.world.heap :=
  inside_meets uses request good

theorem meets_useTrace (kept : HeapKept Good) (depth : Nat) {event : UseEvent} {engine : Engine}
    (good : Good engine.heap) :
    ∀ happening ∈ useTrace limits depth event engine, Good happening.world.heap :=
  useTrace_conducts (sustains_heap kept).conducts depth good

theorem meets_commandTrace (lasts : HeapLasts Good) {engine : Engine} (good : Good engine.heap)
    (command : Command) :
    ∀ happening ∈ commandTrace limits engine command, Good happening.world.heap :=
  commandTrace_sustains (lasts_heap lasts) good command

theorem endures_heap (lasts : HeapLasts Good) : Endures fun engine => Good engine.heap where
  toLasts := lasts_heap lasts
  clear good := good
  named _ _ good := good
  shut store good := lasts.sealStore store good

theorem heap_obey (lasts : HeapLasts Good) {engine next : Engine} {command : Command}
    (good : Good engine.heap) (obeyed : engine.obey limits command = some next) :
    Good next.heap := by
  refine obey_endures (endures_heap lasts) good (fun service obeyed => ?_) obeyed
  cases command with
  | loadSource | loadFile | use | advance => cases service
  | _ =>
    cases obeyed
    exact good

theorem heap_leads (lasts : HeapLasts Good) {engine later : Engine} (good : Good engine.heap)
    (leads : engine.Leads limits later) : Good later.heap := by
  induction leads with
  | refl => exact good
  | obey _ _ obeyed ih => exact heap_obey lasts ih obeyed

end

end Engine

end EntityScripting
