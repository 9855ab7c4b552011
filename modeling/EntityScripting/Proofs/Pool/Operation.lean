import EntityScripting.Proofs.Pool.Index

/-!
# Runs of a pool

The operations on a pool as data, and what a run of them does to a slot. `turn_apply` says all that
one operation can do: a slot is kept, claimed, allocated or released, and only a release changes the
generation. `exists_slot_run` follows from it: the generation of a slot counts its releases.
-/

namespace EntityScripting.Pool

open Number

inductive Operation where
  | spawn
  | free (id : EntityId)
  | kill (id : EntityId)
  | connect (client : Nat)
  | setUp (id : EntityId)
  | touch (item player : EntityId)
  | schedule (id : EntityId) (delay : Single) (think : Think)
  | takeDue
  /-- A write to the fields, the flags or anything else that a slot's body has. -/
  | write (id : EntityId) (f : Body → Body)
  | addRule (classname : String) (rule : SpawnRule)
  | addItem (item : Item)
  | advance (seconds : Single)
  | centerPrint (id : EntityId) (text : String)
  | sound (id : EntityId) (sample : String)
  | takeEvents

/-- The pool after an operation; one that is refused leaves it as it is. -/
def apply (p : Pool) : Operation → Pool
  | .spawn => (p.spawn?.map (·.2)).getD p
  | .free id => (p.free id).value
  | .kill id => (p.kill id).value
  | .connect client => ((p.connect? client).map (·.2)).getD p
  | .setUp id => (p.setUp id).value.2
  | .touch item player => (p.touch item player).value.2
  | .schedule id delay think => p.schedule id delay think
  | .takeDue => (p.takeDue?.map (·.2.2)).getD p
  | .write id f => p.modifyBody id f
  | .addRule classname rule => p.addRule classname rule
  | .addItem item => p.addItem item
  | .advance seconds => p.advance seconds
  | .centerPrint id text => p.centerPrint id text
  | .sound id sample => p.sound id sample
  | .takeEvents => p.takeEvents.2

def run (p : Pool) (ops : List Operation) : Pool := ops.foldl apply p

@[simp] theorem run_nil (p : Pool) : p.run [] = p := rfl

@[simp] theorem run_cons (p : Pool) (op : Operation) (ops : List Operation) :
    p.run (op :: ops) = (p.apply op).run ops := rfl

theorem run_append (p : Pool) (ops more : List Operation) :
    p.run (ops ++ more) = (p.run ops).run more := List.foldl_append

/-! ### Slots -/

/-- What tells one occupant of a slot from another. -/
structure Slot where
  inUse : Bool
  generation : Int32
deriving DecidableEq

def slot? (p : Pool) (id : EntityId) : Option Slot :=
  (p.entity? id).map fun e => ⟨e.inUse, e.generation⟩

def isOccupied (p : Pool) (id : EntityId) : Bool := (p.slot? id).any (·.inUse)

theorem slot?_of_entity? {p : Pool} {id : EntityId} {e : Entity} (found : p.entity? id = some e) :
    p.slot? id = some ⟨e.inUse, e.generation⟩ := by
  simp [slot?, found]

theorem isOccupied_iff {p : Pool} {id : EntityId} :
    p.isOccupied id = true ↔ ∃ e, p.entity? id = some e ∧ e.inUse = true := by
  cases found : p.entity? id <;> simp [isOccupied, slot?, found]

section

variable (p : Pool) (id other : EntityId) {f : Entity → Entity}
  (kept : ∀ e, e.index = id → (f e).index = id)

theorem slot?_modify : (p.modify id f kept).slot? other =
      if id = other then (p.entity? other).map fun e => ⟨(f e).inUse, (f e).generation⟩
      else p.slot? other := by
  by_cases same : id = other
  · simp [slot?, entity?_modify, same, Function.comp_def]
  · simp [slot?, entity?_modify, same]

theorem slot?_modify_of_kept (inUse : ∀ e, (f e).inUse = e.inUse)
    (generation : ∀ e, (f e).generation = e.generation) :
    (p.modify id f kept).slot? other = p.slot? other := by
  rw [slot?_modify]
  by_cases same : id = other
  · simp [slot?, same, inUse, generation]
  · simp [same]

end

@[simp] theorem slot?_modifyBody (p : Pool) (id other : EntityId) (f : Body → Body) :
    (p.modifyBody id f).slot? other = p.slot? other :=
  p.slot?_modify_of_kept id other _ (fun _ => rfl) fun _ => rfl

inductive Turn (reserved : Bool) : Option Slot → Option Slot → Prop where
  | keep (s : Option Slot) : Turn reserved s s
  | claim (generation : Int32) : Turn reserved (some ⟨false, generation⟩) (some ⟨true, generation⟩)
  | allocate : Turn reserved none (some ⟨true, 0⟩)
  | release (generation : Int32) :
    reserved = false → Turn reserved (some ⟨true, generation⟩) (some ⟨false, generation + 1⟩)

theorem Turn.of_eq {reserved : Bool} {s s' : Option Slot} (same : s' = s) : Turn reserved s s' :=
  same ▸ .keep s'

theorem Turn.modify_claim (p : Pool) (id other : EntityId) {f : Entity → Entity}
    (kept : ∀ e, e.index = id → (f e).index = id) (inUse : ∀ e, (f e).inUse = true)
    (generation : ∀ e, (f e).generation = e.generation) :
    Turn (p.isReserved other) (p.slot? other) ((p.modify id f kept).slot? other) := by
  rw [slot?_modify]
  by_cases same : id = other
  · cases found : p.entity? other with
    | none => simpa [same, slot?, found] using Turn.keep none
    | some e =>
      rw [slot?_of_entity? found]
      simp only [same, if_true, Option.map_some, inUse, generation]
      cases e.inUse with
      | true => exact .keep _
      | false => exact .claim _
  · simpa [same] using Turn.keep _

theorem turn_free (p : Pool) (id other : EntityId) :
    Turn (p.isReserved other) (p.slot? other) ((p.free id).value.slot? other) := by
  unfold free
  by_cases reserved : p.isReserved id = true
  · simpa [reserved, Logged.note] using Turn.keep _
  simp only [reserved, Bool.false_eq_true, if_false, Logged.value_pure, slot?_modify]
  by_cases same : id = other
  · subst same
    cases found : p.entity? id with
    | none => simpa [slot?, found] using Turn.keep none
    | some e =>
      rw [slot?_of_entity? found]
      cases live : e.inUse with
      | true => simpa [live, Entity.vacant] using Turn.release e.generation (by simpa using reserved)
      | false => simpa [live] using Turn.keep _
  · simpa [same] using Turn.keep _

theorem turn_spawn? {p q : Pool} {id : EntityId} (spawned : p.spawn? = some (id, q))
    (other : EntityId) : Turn (p.isReserved other) (p.slot? other) (q.slot? other) := by
  unfold spawn? at spawned
  split at spawned
  · obtain ⟨rfl, rfl⟩ := Prod.mk.inj (Option.some.inj spawned)
    exact Turn.modify_claim p _ other _ (fun _ => rfl) fun _ => rfl
  · split at spawned
    · obtain ⟨rfl, rfl⟩ := Prod.mk.inj (Option.some.inj spawned)
      rw [slot?, slot?, entity?_grow]
      by_cases next : other = p.size
      · rw [if_pos next, next, entity?_size]
        exact .allocate
      · rw [if_neg next]
        exact .keep _
    · cases spawned

theorem Turn.of_kept {p q r : Pool} {id : EntityId} (kept : q.slot? id = p.slot? id)
    (reserved : q.isReserved id = p.isReserved id)
    (turn : Turn (q.isReserved id) (q.slot? id) (r.slot? id)) :
    Turn (p.isReserved id) (p.slot? id) (r.slot? id) := by
  rwa [kept, reserved] at turn

theorem turn_setUp (p : Pool) (id other : EntityId) :
    Turn (p.isReserved other) (p.slot? other) ((p.setUp id).value.2.slot? other) := by
  unfold setUp
  split
  · exact .keep _
  · dsimp only
    split
    · exact .keep _
    · split
      · exact turn_free p id other
      · rename_i e _ _ _ rule _
        simp only [Logged.value_bind]
        split
        · exact .of_eq (slot?_modifyBody ..)
        · exact .of_kept (slot?_modifyBody ..) rfl (turn_free (p.modifyBody id _) id other)

theorem turn_touch (p : Pool) (item player other : EntityId) :
    Turn (p.isReserved other) (p.slot? other) ((p.touch item player).value.2.slot? other) := by
  unfold touch
  repeat' split
  all_goals first | exact .keep _ | skip
  dsimp only
  split
  · exact .of_eq (slot?_modifyBody ..)
  · exact .of_kept (slot?_modifyBody ..) rfl (turn_free (p.modifyBody player _) item other)

theorem turn_kill (p : Pool) (id other : EntityId) :
    Turn (p.isReserved other) (p.slot? other) ((p.kill id).value.slot? other) := by
  unfold kill
  split
  · exact turn_free { p with killed := p.killed + 1 } id other
  · exact turn_free p id other

theorem turn_connect? {p q : Pool} {client : Nat} {id : EntityId}
    (connected : p.connect? client = some (id, q)) (other : EntityId) :
    Turn (p.isReserved other) (p.slot? other) (q.slot? other) := by
  obtain ⟨-, -, -, rfl⟩ := connect?_eq_some connected
  exact Turn.modify_claim p _ other _ (fun _ => rfl) fun _ => rfl

theorem slot?_takeDue? {p q : Pool} {id : EntityId} {think : Think}
    (taken : p.takeDue? = some (id, think, q)) (other : EntityId) :
    q.slot? other = p.slot? other := by
  unfold takeDue? at taken
  repeat' split at taken
  · cases taken
  · cases taken
  · cases taken
    exact slot?_modifyBody ..

/-- All that an operation can do to a slot. -/
theorem turn_apply (p : Pool) (op : Operation) (id : EntityId) :
    Turn (p.isReserved id) (p.slot? id) ((p.apply op).slot? id) := by
  cases op with
  | spawn =>
    simp only [apply]
    cases spawned : p.spawn? with
    | none => exact .keep _
    | some result => exact turn_spawn? spawned id
  | free other => exact turn_free p other id
  | kill other => exact turn_kill p other id
  | connect client =>
    simp only [apply]
    cases connected : p.connect? client with
    | none => exact .keep _
    | some result => exact turn_connect? connected id
  | setUp other => exact turn_setUp p other id
  | touch item player => exact turn_touch p item player id
  | takeDue =>
    simp only [apply]
    cases taken : p.takeDue? with
    | none => exact .keep _
    | some result => exact .of_eq (slot?_takeDue? taken id)
  | schedule other delay think => exact .of_eq (p.slot?_modifyBody other id _)
  | write other f => exact .of_eq (p.slot?_modifyBody other id f)
  | addRule | addItem | advance | centerPrint | sound | takeEvents => exact .keep _

/-! ### What a run does to a slot -/

/-- What no operation changes of the slots that a pool can have. -/
structure Extends (p q : Pool) : Prop where
  maxClients : q.maxClients = p.maxClients
  capacity : q.capacity = p.capacity
  size : p.size ≤ q.size
  bounded : p.size ≤ p.capacity → q.size ≤ q.capacity

namespace Extends

variable {p q r : Pool}

theorem refl (p : Pool) : p.Extends p := ⟨rfl, rfl, Nat.le_refl _, id⟩

theorem trans (first : p.Extends q) (second : q.Extends r) : p.Extends r where
  maxClients := second.maxClients.trans first.maxClients
  capacity := second.capacity.trans first.capacity
  size := Nat.le_trans first.size second.size
  bounded := second.bounded ∘ first.bounded

theorem modify (p : Pool) (id : EntityId) (f : Entity → Entity)
    (kept : ∀ e, e.index = id → (f e).index = id) : p.Extends (p.modify id f kept) :=
  ⟨rfl, rfl, by simp, by simp [Pool.modify, Pool.size]⟩

theorem modifyBody (p : Pool) (id : EntityId) (f : Body → Body) :
    p.Extends (p.modifyBody id f) := .modify ..

theorem free (p : Pool) (id : EntityId) : p.Extends (p.free id).value := by
  unfold Pool.free
  split
  · exact .refl p
  · rw [Logged.value_pure]
    exact .modify ..

theorem spawn? {id : EntityId} (spawned : p.spawn? = some (id, q)) : p.Extends q := by
  unfold Pool.spawn? at spawned
  repeat' split at spawned
  · cases spawned
    exact .modify p _ _ _
  · rename_i room
    cases spawned
    refine ⟨rfl, rfl, ?_, fun _ => ?_⟩
    · rw [size_grow]
      exact Nat.le_succ _
    · rw [size_grow]
      exact room
  · cases spawned

theorem apply (p : Pool) (op : Operation) : p.Extends (p.apply op) := by
  cases op with
  | spawn =>
    simp only [Pool.apply]
    cases spawned : p.spawn? with
    | none => exact .refl p
    | some result => exact .spawn? spawned
  | free id => exact .free p id
  | kill id =>
    simp only [Pool.apply, kill]
    split
    · have credited : p.Extends { p with killed := p.killed + 1 } :=
        ⟨rfl, rfl, Nat.le_refl _, fun room => room⟩
      exact credited.trans (.free _ id)
    · exact .free p id
  | connect client =>
    simp only [Pool.apply]
    cases connected : p.connect? client with
    | none => exact .refl p
    | some result =>
      obtain ⟨-, -, -, same⟩ := connect?_eq_some connected
      rw [Option.map_some, Option.getD_some, same]
      exact .modify p _ _ _
  | setUp id =>
    simp only [Pool.apply, setUp]
    repeat' split
    · exact .refl p
    · exact .refl p
    · exact .free p id
    · simp only [Logged.value_bind]
      split
      · simp only [Logged.value_pure]
        exact .modifyBody ..
      · exact (modifyBody p id _).trans (.free _ id)
  | touch item player =>
    simp only [Pool.apply, touch]
    repeat' split
    all_goals first | exact .refl p | skip
    · simp only [Logged.value_pure]
      exact .modifyBody ..
    · exact (modifyBody p player _).trans (.free _ item)
  | takeDue =>
    simp only [Pool.apply, takeDue?]
    repeat' split
    · exact .refl p
    · exact .refl p
    · simp only [Option.map_some, Option.getD_some]
      exact .modifyBody ..
  | schedule id delay think =>
    rw [Pool.apply, Pool.schedule]
    exact .modifyBody ..
  | write id f => exact .modifyBody p id f
  | addRule | addItem | advance | centerPrint | sound | takeEvents =>
    exact ⟨rfl, rfl, Nat.le_refl _, fun room => room⟩

theorem run (p : Pool) (ops : List Operation) : p.Extends (p.run ops) := by
  induction ops generalizing p with
  | nil => exact .refl p
  | cons op ops ih => exact (Extends.apply p op).trans (ih _)

end Extends

theorem isReserved_apply (p : Pool) (op : Operation) (id : EntityId) :
    (p.apply op).isReserved id = p.isReserved id := by
  simp only [isReserved, (Extends.apply p op).maxClients]

def releases (p : Pool) (id : EntityId) : List Operation → Nat
  | [] => 0
  | op :: ops =>
    (if p.isOccupied id && !(p.apply op).isOccupied id then 1 else 0) + (p.apply op).releases id ops

/-- The generation of a slot counts its releases, and a slot that is never released stays in use. -/
theorem exists_slot_run (p : Pool) (id : EntityId) (ops : List Operation) {s : Slot}
    (allocated : p.slot? id = some s) :
    ∃ s', (p.run ops).slot? id = some s' ∧
      s'.generation = s.generation + Int32.ofNat (p.releases id ops) ∧
      (p.releases id ops = 0 → s.inUse = true → s'.inUse = true) := by
  induction ops generalizing p s with
  | nil => exact ⟨s, allocated, by simp [releases], fun _ live => live⟩
  | cons op ops ih =>
    have turn := turn_apply p op id
    rw [allocated] at turn
    simp only [releases, isOccupied, run_cons, allocated]
    generalize next : (p.apply op).slot? id = s₁ at turn ⊢
    cases turn with
    | keep => simpa using ih _ next
    | claim generation =>
      obtain ⟨s', found, counted, -⟩ := ih _ next
      exact ⟨s', found, by simpa using counted, by simp⟩
    | release generation =>
      obtain ⟨s', found, counted, -⟩ := ih _ next
      refine ⟨s', found, ?_, by simp⟩
      rw [counted]
      simp [Int32.ofNat_add, Int32.add_assoc]

theorem Turn.any_inUse {s s' : Option Slot} (turn : Turn true s s')
    (live : s.any (·.inUse) = true) : s'.any (·.inUse) = true := by
  cases turn with
  | keep => exact live
  | claim | allocate => rfl
  | release generation free => cases free

theorem releases_of_isReserved {p : Pool} {id : EntityId} (reserved : p.isReserved id = true)
    (ops : List Operation) : p.releases id ops = 0 := by
  induction ops generalizing p with
  | nil => rfl
  | cons op ops ih =>
    have turn := turn_apply p op id
    rw [reserved] at turn
    rw [releases, ih ((isReserved_apply p op id).trans reserved)]
    cases live : p.isOccupied id with
    | true => simp [show (p.apply op).isOccupied id = true from turn.any_inUse live]
    | false => rfl

def Reaches (p q : Pool) : Prop := ∃ ops, q = p.run ops

namespace Reaches

variable {p q r : Pool}

theorem refl (p : Pool) : p.Reaches p := ⟨[], rfl⟩

theorem trans (first : p.Reaches q) (second : q.Reaches r) : p.Reaches r := by
  obtain ⟨ops, rfl⟩ := first
  obtain ⟨more, rfl⟩ := second
  exact ⟨ops ++ more, (run_append p ops more).symm⟩

theorem apply (reach : p.Reaches q) (op : Operation) : p.Reaches (q.apply op) :=
  reach.trans ⟨[op], rfl⟩

theorem takeDue? {id : EntityId} {think : Think} (reach : p.Reaches q)
    (taken : q.takeDue? = some (id, think, r)) : p.Reaches r := by
  simpa [Pool.apply, taken] using reach.apply .takeDue

theorem extent (reach : p.Reaches q) : p.Extends q := by
  obtain ⟨ops, rfl⟩ := reach
  exact .run p ops

end Reaches

theorem capacity_of_made {config : PoolConfig} {p : Pool} (made : (Pool.new config).Reaches p) :
    p.capacity = max config.maxEntities (config.maxClients + 1) := made.extent.capacity

theorem size_new (config : PoolConfig) : (Pool.new config).size = config.maxClients + 1 := by
  simp [new, size, reserved]

theorem size_le_of_made {config : PoolConfig} {p : Pool} (made : (Pool.new config).Reaches p) :
    p.size ≤ p.capacity := by
  refine made.extent.bounded ?_
  rw [size_new]
  exact Nat.le_max_right ..

/-- The slots of the world and of the players are there from the beginning. -/
theorem maxClients_lt_of_made {config : PoolConfig} {p : Pool}
    (made : (Pool.new config).Reaches p) : p.maxClients < p.size := by
  have grown := made.extent.size
  have same : p.maxClients = config.maxClients := made.extent.maxClients
  rw [size_new] at grown
  omega

end EntityScripting.Pool
