import EntityScripting.Proofs.Number.Clock
import EntityScripting.Proofs.Pool.Action

/-!
# Actions and the clock

An action that an entity is given for a later time is taken when its time has come, after all that
was due before it, or its entity is released first (`fate_of_schedule`). A frame begins where the
clock moves, and ends where no action is due any more.
-/

namespace EntityScripting.Pool

open Number

theorem time_free (p : Pool) (id : EntityId) : (p.free id).value.time = p.time := by
  unfold free
  split <;> rfl

theorem time_apply (p : Pool) {op : Operation} (still : ∀ seconds, op ≠ .advance seconds) :
    (p.apply op).time = p.time := by
  cases op with
  | advance seconds => exact absurd rfl (still seconds)
  | spawn =>
    simp only [apply, spawn?]
    repeat' split
    all_goals rfl
  | free id => exact time_free p id
  | kill id =>
    simp only [apply, kill]
    split <;> exact time_free _ id
  | connect client =>
    simp only [apply]
    cases connected : p.connect? client with
    | none => rfl
    | some result =>
      obtain ⟨-, -, -, led⟩ := connect?_eq_some connected
      rw [Option.map_some, Option.getD_some, led]
      rfl
  | setUp id =>
    simp only [apply, setUp]
    repeat' split
    all_goals first | rfl | skip
    · exact time_free p id
    · simp only [Logged.value_bind]
      split
      · rfl
      · exact time_free (p.modifyBody id _) id
  | touch item player =>
    simp only [apply, touch]
    repeat' split
    all_goals first | rfl | skip
    exact time_free (p.modifyBody player _) item
  | takeDue =>
    simp only [apply, takeDue?]
    repeat' split
    all_goals rfl
  | schedule | write | addRule | addItem | centerPrint | sound | takeEvents => rfl

theorem time_run (p : Pool) {ops : List Operation}
    (still : ∀ seconds, Operation.advance seconds ∉ ops) : (p.run ops).time = p.time := by
  induction ops generalizing p with
  | nil => rfl
  | cons op ops ih =>
    have first : ∀ seconds, op ≠ .advance seconds := fun seconds same =>
      still seconds (same ▸ List.mem_cons_self)
    have rest : ∀ seconds, Operation.advance seconds ∉ ops := fun seconds member =>
      still seconds (List.mem_cons_of_mem op member)
    exact (ih (p.apply op) rest).trans (time_apply p first)

theorem time_frame (p : Pool) (front : List Operation) {middle : List Operation}
    (still : ∀ seconds, .advance seconds ∉ middle) :
    (p.run (front ++ .takeDue :: middle)).time = (p.run front).time := by
  rw [run_append]
  refine time_run _ fun seconds member => ?_
  rcases List.mem_cons.mp member with none | inside
  · cases none
  · exact still seconds inside

theorem isTime_apply {p : Pool} (time : p.time.IsTime) (op : Operation) :
    (p.apply op).time.IsTime := by
  by_cases moves : ∃ seconds, op = .advance seconds
  · obtain ⟨seconds, rfl⟩ := moves
    exact (time.add (Single.isTime_orZero seconds)).1
  · rwa [time_apply p fun seconds same => moves ⟨seconds, same⟩]

theorem isTime_run {p : Pool} (time : p.time.IsTime) (ops : List Operation) :
    (p.run ops).time.IsTime := by
  induction ops generalizing p with
  | nil => exact time
  | cons op ops ih => exact ih (isTime_apply time op)

/-! ### Frames -/

def Punctual (p : Pool) (ops : List Operation) (time : Single) : Prop :=
  ∀ front, front ++ [.takeDue] <+: ops → (p.run front).takeDue? = none →
    time.le (p.run front).time = false

/-- All that was taken in the last frame of a run, if the frame has not ended, was due by a time. -/
def InOrder (p : Pool) (ops : List Operation) (time : Single) : Prop :=
  ∀ front middle other e, ops = front ++ .takeDue :: middle →
    (∀ seconds, .advance seconds ∉ middle) → (p.run front).dueId? = some other →
    (p.run front).entity? other = some e → e.nextThink.le time = true

/-- The action of a slot is taken after a run, at its time or later and in the order of the times,
of equal times in the order of the slots. -/
structure Fires (p : Pool) (ops : List Operation) (id : EntityId) (think : Think) (time : Single) :
    Prop where
  taken : ∃ q, (p.run ops).takeDue? = some (id, think, q)
  due : time.le (p.run ops).time = true
  ordered : p.InOrder ops time
  lowest : ∀ other e, (p.run ops).entity? other = some e → isDue (p.run ops).time e = true →
    e.nextThink = time → id ≤ other

def Pending (p : Pool) (ops : List Operation) (id : EntityId) (think : Think) (time : Single) :
    Prop := ∀ front, front <+: ops → (p.run front).Carries id think time

def Spent (p : Pool) (ops : List Operation) (id : EntityId) : Prop :=
  ∀ front, front <+: ops → (∀ op ∈ front, op.gives id = false) → (p.run front).Idle id

/-- What becomes of an action, given after a run, over the operations that follow: it is still
pending at their end, or an operation ends it and it is gone. It fires, at its time and not in a later
frame than it could, or its entity is released before. -/
def Fate (p : Pool) (before after : List Operation) (id : EntityId) (think : Think)
    (time : Single) : Prop :=
  let q := p.run before
  (q.Pending after id think time ∧ q.Punctual after time) ∨
    ∃ during op rest, after = during ++ op :: rest ∧
      q.Pending during id think time ∧ q.Punctual during time ∧
      ((q.run during).apply op).Spent rest id ∧
      ((q.run during).Releases id op ∨ op = .takeDue ∧ p.Fires (before ++ during) id think time)

theorem OrderlyRun.of_prefix {p : Pool} {ops front : List Operation} (orderly : p.OrderlyRun ops)
    (part : front <+: ops) : p.OrderlyRun front := by
  obtain ⟨rest, rfl⟩ := part
  exact ((orderlyRun_append p front rest).mp orderly).1

theorem Carries.isDue {p : Pool} {id : EntityId} {think : Think} {time : Single}
    (carries : p.Carries id think time) (due : time.le p.time = true) :
    ∃ e, p.entity? id = some e ∧ isDue p.time e = true ∧ e.nextThink = time := by
  obtain ⟨e, found, live, held, rfl⟩ := carries
  exact ⟨e, found, by simp [Pool.isDue, live, held, due], rfl⟩

/-- While an action is pending, no frame ends at a time when it is due. -/
theorem Pending.punctual {p : Pool} {ops : List Operation} {id : EntityId} {think : Think}
    {time : Single} (pending : p.Pending ops id think time) : p.Punctual ops time := by
  intro front part ended
  have carries := pending front ((List.prefix_append front _).trans part)
  cases due : time.le (p.run front).time with
  | false => rfl
  | true =>
    obtain ⟨e, found, due, -⟩ := carries.isDue due
    rw [takeDue?_eq_none ended found] at due
    cases due

theorem entity?_schedule {p : Pool} {id : EntityId} {e : Entity} (held : p.entity? id = some e)
    (delay : Single) (think : Think) : (p.schedule id delay think).entity? id =
      some (e.withBody { e.toBody with think := some think, nextThink := p.time.add delay }) := by
  rw [schedule, modifyBody, entity?_modify, if_pos rfl, held, Option.map_some]

theorem carries_schedule {p : Pool} {id : EntityId} (delay : Single) (think : Think)
    (occupied : p.isOccupied id = true) :
    (p.schedule id delay think).Carries id think (p.time.add delay) := by
  obtain ⟨e, held, live⟩ := isOccupied_iff.mp occupied
  exact ⟨_, entity?_schedule held delay think, live, rfl, rfl⟩

theorem Idle.spent {p : Pool} {id : EntityId} (idle : p.Idle id) {ops : List Operation}
    (orderly : p.OrderlyRun ops) : p.Spent ops id :=
  fun _ part others => idle.run (orderly.of_prefix part) others

theorem Carries.of_dueId? {p : Pool} {id : EntityId} {think : Think} {time : Single}
    (carries : p.Carries id think time) (first : p.dueId? = some id) :
    time.le p.time = true ∧ ∀ other e, p.entity? other = some e → Pool.isDue p.time e = true →
      e.nextThink = time → id ≤ other := by
  obtain ⟨e, found, -, -, rfl⟩ := carries
  obtain ⟨e', found', due, least⟩ := dueId?_eq_some first
  obtain rfl : e = e' := Option.some.inj (found.symm.trans found')
  simp only [Pool.isDue, Bool.and_eq_true] at due
  refine ⟨due.2, fun other e' held due' same => ?_⟩
  rcases least other e' held due' with less | ⟨-, lower⟩
  · rw [same] at less
    exact absurd less (lt_irrefl _)
  · exact lower

/-- What is due first is due no later than another action that is due. -/
theorem le_of_dueId? {p : Pool} {first id : EntityId} {e : Entity} {think : Think} {time : Single}
    (found : p.dueId? = some first) (held : p.entity? first = some e)
    (carries : p.Carries id think time) (due : time.le p.time = true) (isTime : time.IsTime) :
    e.nextThink.le time = true := by
  obtain ⟨e', held', due', least⟩ := dueId?_eq_some found
  obtain rfl : e = e' := Option.some.inj (held.symm.trans held')
  obtain ⟨other, heldOther, dueOther, rfl⟩ := carries.isDue due
  have number : e.nextThink.isNaN = false := by
    simp only [Pool.isDue, Bool.and_eq_true] at due'
    exact Single.number_of_le due'.2
  refine Single.le_of_rank_le number isTime ?_
  rcases least id other heldOther dueOther with less | ⟨same, -⟩
  · exact less.le
  · exact same.le

theorem inOrder_of_schedule {p : Pool} (clock : p.time.IsTime) {earlier during : List Operation}
    {id : EntityId} {delay : Single} {think : Think} (positive : Single.zero.lt delay = true)
    (pending : (p.run (earlier ++ [.schedule id delay think])).Pending during id think
      ((p.run earlier).time.add delay))
    (due : ((p.run earlier).time.add delay).le
      (p.run (earlier ++ .schedule id delay think :: during)).time = true) :
    p.InOrder (earlier ++ .schedule id delay think :: during)
      ((p.run earlier).time.add delay) := by
  have base := isTime_run clock earlier
  obtain ⟨isTime, later⟩ := base.add (Single.isTime_of_zero_lt positive)
  intro front middle other e split still first held
  rcases List.append_eq_append_iff.mp split with ⟨rest, rfl, tail⟩ | ⟨rest, rfl, tail⟩
  · -- The other action was taken when this one had been scheduled.
    cases rest with
    | nil => cases tail
    | cons op rest =>
      obtain ⟨rfl, rfl⟩ := List.cons.inj tail
      have carries := pending rest (List.prefix_append rest _)
      rw [← run_append, List.append_assoc] at carries
      rw [split, time_frame p _ still] at due
      exact le_of_dueId? first held carries due isTime
  · -- The other action was taken before this one was scheduled, at the same time.
    cases rest with
    | nil => cases tail
    | cons op rest =>
      obtain ⟨rfl, rfl⟩ := List.cons.inj tail
      obtain ⟨e', held', due', -⟩ := dueId?_eq_some first
      obtain rfl : e = e' := Option.some.inj (held.symm.trans held')
      simp only [Pool.isDue, Bool.and_eq_true] at due'
      have still' (seconds : Single) : .advance seconds ∉ rest := fun inside =>
        still seconds (List.mem_append_left _ inside)
      rw [time_frame p front still'] at base isTime later ⊢
      exact Single.le_trans_time due'.2 base isTime later

/-- An action that an entity in use is given for a positive delay has a fate. -/
theorem fate_of_schedule {p : Pool} (clock : p.time.IsTime) {earlier after : List Operation}
    {id : EntityId} {delay : Single} {think : Think} (positive : Single.zero.lt delay = true)
    (orderly : p.OrderlyRun (earlier ++ .schedule id delay think :: after))
    (occupied : (p.run earlier).isOccupied id = true) :
    p.Fate (earlier ++ [.schedule id delay think]) after id think
      ((p.run earlier).time.add delay) := by
  have made : p.run (earlier ++ [.schedule id delay think]) =
      (p.run earlier).schedule id delay think := run_append ..
  have orderly' := ((orderlyRun_append p earlier _).mp orderly).2.2
  have carries := carries_schedule delay think occupied
  change ((p.run earlier).schedule id delay think).OrderlyRun after at orderly'
  rw [← made] at orderly' carries
  rcases carries.run orderly' with pending | ⟨during, op, rest, rfl, pending, ended, idle⟩
  · exact .inl ⟨pending, Pending.punctual pending⟩
  · obtain ⟨-, -, orderlyRest⟩ := (orderlyRun_append _ during (op :: rest)).mp orderly'
    refine .inr ⟨during, op, rest, rfl, pending, Pending.punctual pending, idle.spent orderlyRest, ?_⟩
    rcases ended with released | ⟨rfl, first⟩
    · exact .inl released
    · have carries := pending during (List.prefix_rfl)
      have whole : p.run (earlier ++ [.schedule id delay think] ++ during) =
          (p.run (earlier ++ [.schedule id delay think])).run during := run_append ..
      rw [← whole] at first carries
      obtain ⟨due, lowest⟩ := carries.of_dueId? first
      have flat : earlier ++ [.schedule id delay think] ++ during =
          earlier ++ .schedule id delay think :: during := List.append_cons .. |>.symm
      refine .inr ⟨rfl, ⟨_, carries.takeDue? first⟩, due, ?_, lowest⟩
      rw [flat] at due ⊢
      exact inOrder_of_schedule clock positive pending due

end EntityScripting.Pool
