import EntityScripting.Proofs.Pool.Operation
import Mathlib.Data.List.Induction

/-!
# Actions of entities

What becomes of the actions that entities carry while a pool is operated on. `course_apply` says all
that an operation can do to an entity. As long as actions are given only to entities without one,
an action stays with its entity until it is taken (`Carries.run`).
-/

namespace EntityScripting

open Number

namespace Pool

def Before (time : Single) (id : EntityId) (time' : Single) (id' : EntityId) : Prop :=
  time.rank < time'.rank ∨ time.rank = time'.rank ∧ id ≤ id'

/-- What the search for what is due first knows when it has seen some entities. -/
def FirstDue (seen : List Entity) : Option Entity → Prop
  | none => seen = []
  | some e => e ∈ seen ∧ ∀ e' ∈ seen, Before e.nextThink e.index e'.nextThink e'.index

theorem FirstDue.step {seen : List Entity} {best : Option Entity} {e : Entity}
    (known : FirstDue seen best) (last : ∀ e' ∈ seen, e'.index < e.index) :
    FirstDue (seen ++ [e]) (earlier best e) := by
  cases best with
  | none =>
    obtain rfl : seen = [] := known
    simp [FirstDue, earlier, Before]
  | some first =>
    obtain ⟨member, least⟩ := known
    simp only [earlier]
    by_cases sooner : e.nextThink.rank < first.nextThink.rank
    · rw [if_pos sooner]
      refine ⟨by simp, fun e' seen' => ?_⟩
      rcases List.mem_append.mp seen' with before | here
      · rcases least e' before with less | ⟨same, -⟩
        · exact .inl (Int.lt_trans sooner less)
        · exact .inl (same ▸ sooner)
      · obtain rfl := List.mem_singleton.mp here
        exact .inr ⟨rfl, Nat.le_refl _⟩
    · rw [if_neg sooner]
      refine ⟨List.mem_append_left _ member, fun e' seen' => ?_⟩
      rcases List.mem_append.mp seen' with before | here
      · exact least e' before
      · obtain rfl := List.mem_singleton.mp here
        rcases Int.lt_or_eq_of_le (Int.not_lt.mp sooner) with less | same
        · exact .inl less
        · exact .inr ⟨same, Nat.le_of_lt (last first member)⟩

theorem firstDue {entities : List Entity}
    (sorted : entities.Pairwise fun first second => first.index < second.index) :
    FirstDue entities (entities.foldl earlier none) := by
  induction entities using List.reverseRecOn with
  | nil => rfl
  | append_singleton seen e ih =>
    obtain ⟨before, -, last⟩ := List.pairwise_append.mp sorted
    rw [List.foldl_append]
    exact (ih before).step fun e' member => last e' member e (List.mem_singleton_self e)

theorem mem_due_iff {p : Pool} {e : Entity} :
    e ∈ p.entities.toList.filter (isDue p.time) ↔
      p.entity? e.index = some e ∧ isDue p.time e = true := by
  rw [List.mem_filter, mem_entities_iff]

/-- The action that is found is due, and none comes before it. -/
theorem dueId?_eq_some {p : Pool} {id : EntityId} (first : p.dueId? = some id) :
    ∃ e, p.entity? id = some e ∧ isDue p.time e = true ∧
      ∀ other e', p.entity? other = some e' → isDue p.time e' = true →
        Before e.nextThink id e'.nextThink other := by
  have known := firstDue (p.pairwise_index.filter (isDue p.time))
  obtain ⟨e, best, rfl⟩ := Option.map_eq_some_iff.mp first
  rw [best] at known
  obtain ⟨member, least⟩ := known
  obtain ⟨held, due⟩ := mem_due_iff.mp member
  refine ⟨e, held, due, fun other e' held' due' => ?_⟩
  have place := index_of_entity? held'
  subst place
  exact least e' (mem_due_iff.mpr ⟨held', due'⟩)

theorem dueId?_eq_none {p : Pool} (none : p.dueId? = none) {id : EntityId} {e : Entity}
    (found : p.entity? id = some e) : isDue p.time e = false := by
  have known := firstDue (p.pairwise_index.filter (isDue p.time))
  rw [dueId?, Option.map_eq_none_iff] at none
  rw [none] at known
  by_contra due
  have place := index_of_entity? found
  subst place
  have member : e ∈ p.entities.toList.filter (isDue p.time) :=
    mem_due_iff.mpr ⟨found, by simpa using due⟩
  rw [show p.entities.toList.filter (isDue p.time) = [] from known] at member
  cases member

theorem takeDue?_eq_some {p q : Pool} {id : EntityId} {think : Think}
    (taken : p.takeDue? = some (id, think, q)) :
    p.dueId? = some id ∧ (p.entity? id).bind (·.think) = some think ∧
      q = p.modifyBody id fun body => { body with think := none } := by
  unfold takeDue? at taken
  split at taken
  · cases taken
  · rename_i first
    split at taken
    · cases taken
    · rename_i held
      cases taken
      exact ⟨first, held, rfl⟩

theorem takeDue?_eq_none {p : Pool} (none : p.takeDue? = none) {id : EntityId} {e : Entity}
    (found : p.entity? id = some e) : isDue p.time e = false := by
  unfold takeDue? at none
  split at none
  · rename_i idle
    exact dueId?_eq_none idle found
  · rename_i first
    obtain ⟨e', found', due, -⟩ := dueId?_eq_some first
    simp only [isDue, Bool.and_eq_true] at due
    obtain ⟨think, held⟩ := Option.isSome_iff_exists.mp due.1.2
    rw [found', Option.bind_some, held] at none
    cases none

/-! ### What one operation does to an entity -/

def Operation.gives : Operation → EntityId → Bool
  | .schedule other _ _, id | .setUp other, id => other = id
  | _, _ => false

def Operation.writes : Operation → EntityId → Bool
  | .write other _, id | .setUp other, id => other = id
  | _, _ => false

def Operation.isTimed : Operation → Bool
  | .advance _ | .takeDue => true
  | _ => false

/-- All that an operation can do to what a slot holds. -/
inductive Course (p : Pool) (op : Operation) (id : EntityId) :
    Option Entity → Option Entity → Prop where
  | absent : Course p op id none none
  | keep {e e' : Entity} : e'.inUse = e.inUse → e'.think = e.think → e'.nextThink = e.nextThink →
      (p.isReserved id = false → e'.fields = e.fields) → Course p op id (some e) (some e')
  | write {e : Entity} {f : Body → Body} : op = .write id f →
      Course p op id (some e) (some (e.withBody (f e.toBody)))
  | claim {e e' : Entity} : e.inUse = false → e'.think = e.think →
      Course p op id (some e) (some e')
  | allocate {e' : Entity} : e'.think = none → Course p op id none (some e')
  | release {e e' : Entity} : e.inUse = true → e'.inUse = false → e'.think = none →
      Course p op id (some e) (some e')
  | give {e e' : Entity} : op.gives id = true → e'.inUse = e.inUse →
      (op.writes id = false → e'.fields = e.fields) → Course p op id (some e) (some e')
  | take {e e' : Entity} : op = .takeDue → p.dueId? = some id → e'.inUse = e.inUse →
      e'.think = none → e'.fields = e.fields → Course p op id (some e) (some e')

namespace Course

variable {p : Pool} {op : Operation} {id : EntityId}

theorem refl (held : Option Entity) : Course p op id held held := by
  cases held with
  | none => exact .absent
  | some e => exact .keep rfl rfl rfl fun _ => rfl

theorem modify (q : Pool) (other : EntityId) {f : Entity → Entity}
    (kept : ∀ e, e.index = other → (f e).index = other)
    (changed : ∀ e, other = id → q.entity? id = some e → Course p op id (some e) (some (f e))) :
    Course p op id (q.entity? id) ((q.modify other f kept).entity? id) := by
  rw [entity?_modify]
  by_cases same : other = id
  · cases found : q.entity? id with
    | none => simpa [same] using Course.absent
    | some e => simpa [same] using changed e same found
  · simpa [same] using refl _

theorem modifyBody (q : Pool) (other : EntityId) {f : Body → Body}
    (changed : ∀ e, other = id → q.entity? id = some e →
      Course p op id (some e) (some (e.withBody (f e.toBody)))) :
    Course p op id (q.entity? id) ((q.modifyBody other f).entity? id) := modify q other _ changed

theorem free (q : Pool) (other : EntityId) :
    Course p op id (q.entity? id) ((q.free other).value.entity? id) := by
  unfold Pool.free
  split
  · exact refl _
  · rw [Logged.value_pure]
    refine modify q other _ fun e _ _ => ?_
    split
    · rename_i live
      exact .release live rfl rfl
    · exact refl _

/-- An operation that has changed nothing so far of what matters here goes on. -/
theorem after_modifyBody {q : Pool} {other : EntityId} {f : Body → Body} {held : Option Entity}
    (apart : ∀ f, op ≠ .write id f) (think : ∀ body, (f body).think = body.think)
    (nextThink : ∀ body, (f body).nextThink = body.nextThink)
    (fields : ∀ body, (f body).fields = body.fields)
    (course : Course p op id ((q.modifyBody other f).entity? id) held) :
    Course p op id (q.entity? id) held := by
  rw [Pool.modifyBody, entity?_modify] at course
  by_cases same : other = id
  · cases found : q.entity? id with
    | none => simpa [same, found] using course
    | some e =>
      have stays : (e.withBody (f e.toBody)).inUse = e.inUse := rfl
      rw [if_pos same, found, Option.map_some] at course
      cases course with
      | keep a b c d =>
        exact .keep a (b.trans (think _)) (c.trans (nextThink _)) fun free => (d free).trans (fields _)
      | write written => exact absurd written (apart _)
      | claim a b => exact .claim a (b.trans (think _))
      | release a b c => exact .release a b c
      | give a b c => exact .give a b fun clear => (c clear).trans (fields _)
      | take a b c d e => exact .take a b c d (e.trans (fields _))
  · rwa [if_neg same] at course

end Course

theorem inUse_of_vacantId? {p : Pool} {id : EntityId} {e : Entity} (vacant : p.vacantId? = some id)
    (found : p.entity? id = some e) : e.inUse = false := by
  obtain ⟨-, ⟨e', held, free⟩, -⟩ := vacantId?_eq_some vacant
  rwa [show e = e' from Option.some.inj (found.symm.trans held)]

theorem course_spawn? {p q : Pool} {id new : EntityId}
    (spawned : p.spawn? = some (new, q)) :
    Course p .spawn id (p.entity? id) (q.entity? id) := by
  unfold spawn? at spawned
  split at spawned
  · rename_i vacant
    cases spawned
    exact .modify p new _ fun e same found =>
      .claim (inUse_of_vacantId? (same ▸ vacant) found) rfl
  · split at spawned
    · cases spawned
      rw [entity?_grow]
      by_cases pushed : id = p.size
      · rw [if_pos pushed, pushed, entity?_size]
        exact .allocate rfl
      · rw [if_neg pushed]
        exact .refl _
    · cases spawned

theorem course_setUp (p : Pool) (id other : EntityId) :
    Course p (.setUp other) id (p.entity? id) ((p.setUp other).value.2.entity? id) := by
  unfold setUp
  split
  · exact .refl _
  rename_i e found
  dsimp only
  split
  · exact .refl _
  split
  · exact .free p other
  rename_i rule _
  simp only [Logged.value_bind]
  generalize (rule e.index e.toBody).value = result
  have given : Course p (.setUp other) id (p.entity? id)
      ((p.modifyBody other fun _ => result.2).entity? id) :=
    .modifyBody p other fun _ same _ => .give (by simp [Operation.gives, same]) rfl fun clear => by
      simp [Operation.writes, same] at clear
  split
  · exact given
  · simp only [Logged.value_bind, Logged.value_pure]
    unfold free
    split
    · exact given
    · by_cases same : other = id
      · subst same
        simp only [modifyBody, entity?_modify, found, if_true, Option.map_some] at given
        simp only [Logged.value_pure, modifyBody, entity?_modify, found, if_true, Option.map_some]
        cases live : e.inUse with
        | true =>
          refine .release live ?_ ?_ <;> simp [Entity.withBody, live, Entity.vacant]
        | false => simpa [Entity.withBody, live] using given
      · simpa [modifyBody, entity?_modify, same] using Course.refl _

theorem course_touch (p : Pool) (id item player : EntityId) :
    Course p (.touch item player) id (p.entity? id) ((p.touch item player).value.2.entity? id) := by
  have held (n : UInt32) (classname : String) {result : Option Entity}
      (course : Course p (.touch item player) id ((p.modifyBody player fun body =>
        { body with inventory := body.inventory.insert classname n }).entity? id) result) :
      Course p (.touch item player) id (p.entity? id) result := by
    refine .after_modifyBody (fun _ none => by cases none) ?_ ?_ ?_ course <;> exact fun _ => rfl
  unfold touch
  repeat' split
  all_goals first | exact .refl _ | skip
  dsimp only
  split
  · exact held _ _ (.refl _)
  · exact held _ _ (.free _ item)

theorem course_apply (p : Pool) (op : Operation) (id : EntityId) :
    Course p op id (p.entity? id) ((p.apply op).entity? id) := by
  cases op with
  | spawn =>
    simp only [apply]
    cases spawned : p.spawn? with
    | none => exact .refl _
    | some result => exact course_spawn? spawned
  | free other => exact .free p other
  | kill other =>
    simp only [apply, kill]
    split
    · exact .free { p with killed := p.killed + 1 } other
    · exact .free p other
  | connect client =>
    simp only [apply]
    cases connected : p.connect? client with
    | none => exact .refl _
    | some result =>
      obtain ⟨place, known, -, led⟩ := connect?_eq_some connected
      rw [Option.map_some, Option.getD_some, led]
      refine .modify p result.1 _ fun e same found => ?_
      have reserved : p.isReserved id = true := by
        rw [← same, place, isReserved, decide_eq_true_eq]
        exact known
      cases live : e.inUse with
      | false => exact .claim live rfl
      | true => exact .keep live.symm rfl rfl fun free => by simp [reserved] at free
  | setUp other => exact course_setUp p id other
  | touch item player => exact course_touch p id item player
  | takeDue =>
    simp only [apply]
    cases taken : p.takeDue? with
    | none => exact .refl _
    | some result =>
      obtain ⟨other, think, q⟩ := result
      obtain ⟨first, held, rfl⟩ := takeDue?_eq_some taken
      simp only [Option.map_some, Option.getD_some]
      refine .modifyBody p other fun e same found => ?_
      exact .take rfl (same ▸ first) rfl rfl rfl
  | schedule other delay think =>
    refine .modifyBody p other fun e same found => ?_
    exact .give (by simp [Operation.gives, same]) rfl fun _ => rfl
  | write other f =>
    refine .modifyBody p other fun e same found => ?_
    exact .write (congrArg (Operation.write · f) same)
  | addRule | addItem | advance | centerPrint | sound | takeEvents => exact .refl _

/-! ### Actions over a run -/

def Orderly (p : Pool) : Operation → Prop
  | .schedule id _ _ | .setUp id => ∀ e, p.entity? id = some e → e.inUse = true ∧ e.think = none
  | .write _ f => ∀ body, (f body).think = body.think ∧ (f body).nextThink = body.nextThink
  | _ => True

theorem Orderly.ready {p : Pool} {op : Operation} (orderly : p.Orderly op) {id : EntityId}
    (given : op.gives id = true) {e : Entity} (found : p.entity? id = some e) :
    e.inUse = true ∧ e.think = none := by
  cases op <;> simp only [Operation.gives, decide_eq_true_eq, Bool.false_eq_true] at given
  all_goals subst given; exact orderly e found

def OrderlyRun (p : Pool) : List Operation → Prop
  | [] => True
  | op :: ops => p.Orderly op ∧ (p.apply op).OrderlyRun ops

theorem orderlyRun_append (p : Pool) (ops more : List Operation) :
    p.OrderlyRun (ops ++ more) ↔ p.OrderlyRun ops ∧ (p.run ops).OrderlyRun more := by
  induction ops generalizing p with
  | nil => simp [OrderlyRun]
  | cons op ops ih => simp only [List.cons_append, OrderlyRun, ih, run_cons, and_assoc]

def Clean (p : Pool) : Prop := ∀ id e, p.entity? id = some e → e.inUse = false → e.think = none

theorem clean_new (config : PoolConfig) : (Pool.new config).Clean := by
  intro id e found _
  rcases eq_of_entity?_new found with rfl | rfl <;> rfl

theorem Clean.apply {p : Pool} (clean : p.Clean) {op : Operation} (orderly : p.Orderly op) :
    (p.apply op).Clean := by
  intro id e' found' out
  have course := course_apply p op id
  rw [found'] at course
  cases held : p.entity? id with
  | none =>
    rw [held] at course
    cases course with
    | allocate idle => exact idle
  | some e =>
    rw [held] at course
    cases course with
    | keep inUse think => exact think.trans (clean id e held (inUse ▸ out))
    | write written =>
      subst written
      exact (orderly e.toBody).1.trans (clean id e held out)
    | claim free think => exact think.trans (clean id e held free)
    | release _ _ idle => exact idle
    | give given inUse =>
      obtain ⟨live, -⟩ := orderly.ready given held
      exact absurd (inUse.trans live) (by simp [out])
    | take _ _ _ idle => exact idle

theorem Clean.run {p : Pool} (clean : p.Clean) {ops : List Operation}
    (orderly : p.OrderlyRun ops) : (p.run ops).Clean := by
  induction ops generalizing p with
  | nil => exact clean
  | cons op ops ih => exact ih (clean.apply orderly.1) orderly.2

def Carries (p : Pool) (id : EntityId) (think : Think) (time : Single) : Prop :=
  ∃ e, p.entity? id = some e ∧ e.inUse = true ∧ e.think = some think ∧ e.nextThink = time

def Idle (p : Pool) (id : EntityId) : Prop := ∀ e, p.entity? id = some e → e.think = none

theorem Carries.isOccupied {p : Pool} {id : EntityId} {think : Think} {time : Single}
    (carries : p.Carries id think time) : p.isOccupied id = true := by
  obtain ⟨e, found, live, -⟩ := carries
  exact isOccupied_iff.mpr ⟨e, found, live⟩

theorem Carries.takeDue? {p : Pool} {id : EntityId} {think : Think} {time : Single}
    (carries : p.Carries id think time) (first : p.dueId? = some id) :
    p.takeDue? = some (id, think, p.apply .takeDue) := by
  obtain ⟨e, found, -, held, -⟩ := carries
  simp [Pool.apply, Pool.takeDue?, first, found, held]

def Releases (p : Pool) (id : EntityId) (op : Operation) : Prop :=
  p.isOccupied id = true ∧ (p.apply op).isOccupied id = false

def Takes (p : Pool) (id : EntityId) (op : Operation) : Prop := op = .takeDue ∧ p.dueId? = some id

/-- An action stays until its entity is released or it is taken, and then it is gone. -/
theorem Carries.apply {p : Pool} {id : EntityId} {think : Think} {time : Single}
    (carries : p.Carries id think time) {op : Operation} (orderly : p.Orderly op) :
    (p.apply op).Carries id think time ∨
      (p.Releases id op ∨ p.Takes id op) ∧ (p.apply op).Idle id := by
  obtain ⟨e, found, live, held, due⟩ := carries
  have course := course_apply p op id
  rw [found] at course
  cases found' : (p.apply op).entity? id with
  | none =>
    rw [found'] at course
    cases course
  | some e' =>
    rw [found'] at course
    have idle (none : e'.think = none) : (p.apply op).Idle id := fun other same => by
      rw [found'] at same
      exact Option.some.inj same ▸ none
    cases course with
    | keep inUse think nextThink =>
      exact .inl ⟨e', found', inUse.trans live, think.trans held, nextThink.trans due⟩
    | write written =>
      subst written
      obtain ⟨think, nextThink⟩ := orderly e.toBody
      exact .inl ⟨_, found', live, think.trans held, nextThink.trans due⟩
    | claim free => exact absurd free (by simp [live])
    | release _ out none =>
      refine .inr ⟨.inl ⟨?_, ?_⟩, idle none⟩
      · exact isOccupied_iff.mpr ⟨e, found, live⟩
      · simp [Pool.isOccupied, slot?_of_entity? found', out]
    | give given =>
      obtain ⟨-, none⟩ := orderly.ready given found
      exact absurd none (by simp [held])
    | take timed first _ none => exact .inr ⟨.inr ⟨timed, first⟩, idle none⟩

theorem Idle.apply {p : Pool} {id : EntityId} (idle : p.Idle id) {op : Operation}
    (orderly : p.Orderly op) (other : op.gives id = false) : (p.apply op).Idle id := by
  intro e' found'
  have course := course_apply p op id
  rw [found'] at course
  cases held : p.entity? id with
  | none =>
    rw [held] at course
    cases course with
    | allocate none => exact none
  | some e =>
    rw [held] at course
    cases course with
    | keep _ think => exact think.trans (idle e held)
    | write written =>
      subst written
      exact (orderly e.toBody).1.trans (idle e held)
    | claim _ think => exact think.trans (idle e held)
    | release _ _ none => exact none
    | give given => exact absurd given (by simp [other])
    | take _ _ _ none => exact none

theorem Idle.run {p : Pool} {id : EntityId} (idle : p.Idle id) {ops : List Operation}
    (orderly : p.OrderlyRun ops) (others : ∀ op ∈ ops, op.gives id = false) :
    (p.run ops).Idle id := by
  induction ops generalizing p with
  | nil => exact idle
  | cons op ops ih =>
    exact ih (idle.apply orderly.1 (others op List.mem_cons_self)) orderly.2
      fun op member => others op (List.mem_cons_of_mem _ member)

/-- What becomes of an action over a run: it is carried all along, or up to the operation that
releases its entity or takes it. -/
theorem Carries.run {p : Pool} {id : EntityId} {think : Think} {time : Single}
    (carries : p.Carries id think time) {ops : List Operation} (orderly : p.OrderlyRun ops) :
    (∀ front, front <+: ops → (p.run front).Carries id think time) ∨
      ∃ before op after, ops = before ++ op :: after ∧
        (∀ front, front <+: before → (p.run front).Carries id think time) ∧
        ((p.run before).Releases id op ∨ (p.run before).Takes id op) ∧
        ((p.run before).apply op).Idle id := by
  induction ops generalizing p with
  | nil =>
    left
    intro front none
    rw [List.prefix_nil.mp none]
    exact carries
  | cons op ops ih =>
    have later {q : List Operation} (carried : ∀ front, front <+: q →
        ((p.apply op).run front).Carries id think time) :
        ∀ front, front <+: op :: q → (p.run front).Carries id think time := by
      intro front part
      cases front with
      | nil => exact carries
      | cons other front =>
        obtain ⟨rfl, rest⟩ := List.cons_prefix_cons.mp part
        exact carried front rest
    rcases carries.apply orderly.1 with kept | ⟨ended, idle⟩
    · rcases ih kept orderly.2 with all | ⟨before, last, after, rfl, carried, ended, idle⟩
      · exact .inl (later all)
      · exact .inr ⟨op :: before, last, after, rfl, later carried, ended, idle⟩
    · refine .inr ⟨[], op, ops, rfl, ?_, ended, idle⟩
      intro front none
      rw [List.prefix_nil.mp none]
      exact carries

theorem fields_apply {p : Pool} {op : Operation} {id : EntityId} {e e' : Entity}
    (free : p.isReserved id = false) (clear : op.writes id = false)
    (found : p.entity? id = some e) (live : e.inUse = true)
    (found' : (p.apply op).entity? id = some e') (live' : e'.inUse = true) :
    e'.fields = e.fields := by
  have course := course_apply p op id
  rw [found, found'] at course
  cases course with
  | keep _ _ _ same => exact same free
  | write written => simp [written, Operation.writes] at clear
  | claim out => exact absurd live (by simp [out])
  | release _ out => exact absurd live' (by simp [out])
  | give _ _ same => exact same clear
  | take _ _ _ _ same => exact same

theorem fields_run {p : Pool} {ops : List Operation} {id : EntityId} {e : Entity}
    (free : p.isReserved id = false) (clear : ∀ op ∈ ops, op.writes id = false)
    (live : ∀ front, front <+: ops → (p.run front).isOccupied id = true)
    (found : p.entity? id = some e) :
    ∃ e', (p.run ops).entity? id = some e' ∧ e'.fields = e.fields := by
  induction ops generalizing p e with
  | nil => exact ⟨e, found, rfl⟩
  | cons op ops ih =>
    obtain ⟨e₀, found₀, live₀⟩ := isOccupied_iff.mp (live [] List.nil_prefix)
    obtain ⟨e₁, found₁, live₁⟩ := isOccupied_iff.mp (live [op] ⟨ops, rfl⟩)
    obtain rfl : e₀ = e := Option.some.inj (found₀.symm.trans found)
    have first := fields_apply free (clear op List.mem_cons_self) found live₀ found₁ live₁
    have free' : (p.apply op).isReserved id = false := by rw [isReserved_apply, free]
    obtain ⟨e', found', same⟩ := ih free' (fun other member => clear other (.tail op member))
      (fun front part => live (op :: front) (List.cons_prefix_cons.mpr ⟨rfl, part⟩)) found₁
    exact ⟨e', found', same.trans first⟩

/-- Whether a run that leaves the clock alone leads from one pool to another. It is orderly if it
starts with nothing left in the slots that are out of use. -/
def Undergoes (p q : Pool) : Prop :=
  ∃ ops, q = p.run ops ∧ (∀ op ∈ ops, op.isTimed = false) ∧ (p.Clean → p.OrderlyRun ops)

namespace Undergoes

variable {p q r : Pool}

theorem refl (p : Pool) : p.Undergoes p := ⟨[], rfl, by simp, fun _ => trivial⟩

theorem trans (first : p.Undergoes q) (second : q.Undergoes r) : p.Undergoes r := by
  obtain ⟨ops, rfl, untimed, orderly⟩ := first
  obtain ⟨more, rfl, untimed', orderly'⟩ := second
  refine ⟨ops ++ more, (run_append p ops more).symm, ?_, fun clean => ?_⟩
  · intro op member
    exact (List.mem_append.mp member).elim (untimed op) (untimed' op)
  · exact (orderlyRun_append p ops more).mpr
      ⟨orderly clean, orderly' (clean.run (orderly clean))⟩

theorem reaches (course : p.Undergoes q) : p.Reaches q := by
  obtain ⟨ops, led, -⟩ := course
  exact ⟨ops, led⟩

theorem apply (course : p.Undergoes q) (op : Operation) (untimed : op.isTimed = false)
    (orderly : q.Clean → q.Orderly op) : p.Undergoes (q.apply op) :=
  course.trans ⟨[op], rfl, by simpa using untimed, fun clean => ⟨orderly clean, trivial⟩⟩

theorem spawn? {id : EntityId} (course : p.Undergoes q) (spawned : q.spawn? = some (id, r)) :
    p.Undergoes r := by
  simpa [Pool.apply, spawned] using course.apply .spawn rfl fun _ => trivial

theorem write (course : p.Undergoes q) (id : EntityId) {f : Body → Body}
    (kept : ∀ body, (f body).think = body.think ∧ (f body).nextThink = body.nextThink) :
    p.Undergoes (q.modifyBody id f) := course.apply (.write id f) rfl fun _ => kept

theorem modifyFields (course : p.Undergoes q) (id : EntityId) (f : Fields → Fields) :
    p.Undergoes (q.modifyFields id f) := course.write id fun _ => ⟨rfl, rfl⟩

theorem free (course : p.Undergoes q) (id : EntityId) : p.Undergoes (q.free id).value :=
  course.apply (.free id) rfl fun _ => trivial

theorem kill (course : p.Undergoes q) (id : EntityId) : p.Undergoes (q.kill id).value :=
  course.apply (.kill id) rfl fun _ => trivial

theorem touch (course : p.Undergoes q) (item player : EntityId) :
    p.Undergoes (q.touch item player).value.2 :=
  course.apply (.touch item player) rfl fun _ => trivial

theorem runCallback (callback : Callback) (course : p.Undergoes q) :
    p.Undergoes (q.runCallback callback).value := by
  induction callback generalizing q with
  | done => exact course
  | spawn next ih =>
    unfold Pool.runCallback
    split
    · rename_i spawned
      exact ih _ (course.spawn? spawned)
    · exact ih _ course
  | free id next ih => exact ih (course.free id)
  | kill id next ih => exact ih (course.kill id)
  | announce id text next ih => exact ih (course.apply (.centerPrint id text) rfl fun _ => trivial)

end Undergoes

/-! ### New entities -/

structure Claims (p q : Pool) (id : EntityId) : Prop where
  vacant : p.isOccupied id = false
  reserved : p.maxClients < p.size → p.isReserved id = false
  maxClients : q.maxClients = p.maxClients
  time : q.time = p.time
  live : ∃ e, q.entity? id = some e ∧ e.inUse = true
  others : ∀ other, other ≠ id → q.entity? other = p.entity? other

theorem claims_of_spawn? {p q : Pool} {id : EntityId} (spawned : p.spawn? = some (id, q)) :
    p.Claims q id := by
  unfold spawn? at spawned
  split at spawned
  · rename_i vacant
    cases spawned
    obtain ⟨above, ⟨e, held, free⟩, -⟩ := vacantId?_eq_some vacant
    refine ⟨?_, fun _ => ?_, rfl, rfl, ?_, fun other apart => ?_⟩
    · simp [isOccupied, slot?_of_entity? held, free]
    · simpa [isReserved] using above
    · exact ⟨_, by rw [entity?_modify, if_pos rfl, held, Option.map_some], rfl⟩
    · rw [entity?_modify, if_neg (Ne.symm apart)]
  · split at spawned
    · cases spawned
      refine ⟨?_, fun grown => ?_, rfl, rfl, ?_, fun other apart => ?_⟩
      · simp [isOccupied, slot?, entity?_size]
      · simpa [isReserved] using grown
      · exact ⟨_, by rw [entity?_grow, if_pos rfl], rfl⟩
      · rw [entity?_grow, if_neg apart]
    · cases spawned

theorem entity?_modifyFields {p : Pool} {id : EntityId} {e : Entity} (held : p.entity? id = some e)
    (f : Fields → Fields) : (p.modifyFields id f).entity? id =
      some (e.withBody { e.toBody with fields := f e.fields }) := by
  rw [modifyFields, modifyBody, entity?_modify, if_pos rfl, held, Option.map_some]

theorem Claims.isOccupied {p q : Pool} {id : EntityId} (claims : p.Claims q id) :
    q.isOccupied id = true :=
  isOccupied_iff.mpr claims.live

@[simp] theorem isOccupied_modifyBody (p : Pool) (id other : EntityId) (f : Body → Body) :
    (p.modifyBody id f).isOccupied other = p.isOccupied other := by
  simp [isOccupied]

@[simp] theorem isOccupied_modifyFields (p : Pool) (id other : EntityId) (f : Fields → Fields) :
    (p.modifyFields id f).isOccupied other = p.isOccupied other :=
  p.isOccupied_modifyBody id other _

@[simp] theorem isOccupied_schedule (p : Pool) (id other : EntityId) (delay : Single)
    (think : Think) : (p.schedule id delay think).isOccupied other = p.isOccupied other :=
  p.isOccupied_modifyBody id other _

/-- An entity that its class takes is still there. -/
theorem isOccupied_setUp {p : Pool} {id : EntityId} (accepted : (p.setUp id).value.1 = true)
    (other : EntityId) : (p.setUp id).value.2.isOccupied other = p.isOccupied other := by
  unfold setUp at accepted ⊢
  split at accepted
  · cases accepted
  dsimp only at accepted ⊢
  split at accepted
  · rename_i item
    rw [if_pos item]
    rfl
  · rename_i item
    rw [if_neg item]
    split at accepted
    · cases accepted
    · rename_i rule ruled
      simp only [Logged.value_bind] at accepted ⊢
      split at accepted
      · rename_i taken
        rw [if_pos taken]
        exact isOccupied_modifyBody ..
      · cases accepted

def Ready (p : Pool) (id : EntityId) : Prop :=
  ∀ e, p.entity? id = some e → e.inUse = true ∧ e.think = none

theorem Ready.modifyFields {p : Pool} {id : EntityId} (ready : p.Ready id) (f : Fields → Fields) :
    (p.modifyFields id f).Ready id := by
  intro e found
  rw [Pool.modifyFields, modifyBody, entity?_modify, if_pos rfl] at found
  obtain ⟨e', found', rfl⟩ := Option.map_eq_some_iff.mp found
  exact ready e' found'

theorem ready_of_spawn? {p q : Pool} {id : EntityId} (clean : p.Clean)
    (spawned : p.spawn? = some (id, q)) : q.Ready id := by
  intro e found
  unfold spawn? at spawned
  split at spawned
  · rename_i vacant
    cases spawned
    rw [entity?_modify, if_pos rfl] at found
    obtain ⟨e', found', rfl⟩ := Option.map_eq_some_iff.mp found
    exact ⟨rfl, clean id e' found' (inUse_of_vacantId? vacant found')⟩
  · split at spawned
    · cases spawned
      rw [entity?_grow, if_pos rfl] at found
      obtain rfl := Option.some.inj found
      exact ⟨rfl, rfl⟩
    · cases spawned

theorem Undergoes.useNew {p q r : Pool} {id : EntityId} (course : p.Undergoes q)
    (spawned : q.spawn? = some (id, r)) (f : Fields → Fields) (op : Operation)
    (untimed : op.isTimed = false)
    (orderly : (r.modifyFields id f).Ready id → (r.modifyFields id f).Orderly op) :
    p.Undergoes ((r.modifyFields id f).apply op) := by
  have made : q.apply .spawn = r := by simp [Pool.apply, spawned]
  have written : r.apply (.write id fun body => { body with fields := f body.fields }) =
      r.modifyFields id f := rfl
  refine course.trans ⟨[.spawn, .write id fun body => { body with fields := f body.fields }, op],
    ?_, ?_, fun clean => ?_⟩
  · simp only [run_cons, run_nil, made, written]
  · simpa [Operation.isTimed] using untimed
  · have ready := (ready_of_spawn? clean spawned).modifyFields f
    simp only [OrderlyRun, made, written]
    exact ⟨trivial, fun _ => ⟨rfl, rfl⟩, orderly ready, trivial⟩

end Pool

end EntityScripting
