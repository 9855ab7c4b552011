import Mathlib.Logic.Relation
import EntityScripting.Proofs.Pool.Action

/-!
# Vacant slots

A spawn clears nothing: what an entity begins with is what is left in its slot. As long as nothing is
written to a slot that is out of use, that is nothing (`Tends.vacated`), and a new entity is vacant but
for being in use (`Vacated.entity?_spawn?`).
-/

namespace EntityScripting.Pool

open Number

/-- Whether nothing is left in the slots that are out of use, those of the players apart. -/
def Vacated (p : Pool) : Prop :=
  ∀ id e, p.isReserved id = false → p.entity? id = some e → e.inUse = false →
    e = Entity.vacant id e.generation

/-- Whether an operation writes to no slot that is out of use, those of the players apart. -/
def Tidy (p : Pool) : Operation → Prop
  | .write id _ | .schedule id _ _ | .setUp id =>
    p.isReserved id = false → ∀ e, p.entity? id = some e → e.inUse = true
  | _ => True

def Tends : Pool → Pool → Prop :=
  Relation.ReflTransGen fun p q => ∃ op, p.Tidy op ∧ q = p.apply op

/-! ### What an operation leaves in a slot -/

def Clears (id : EntityId) (p q : Pool) : Prop :=
  ∀ e, q.entity? id = some e → e.inUse = false →
    p.entity? id = some e ∨ e = Entity.vacant id e.generation

namespace Clears

variable {id : EntityId} {p q r : Pool}

theorem of_eq (same : q.entity? id = p.entity? id) : Clears id p q :=
  fun _ found _ => .inl (same ▸ found)

theorem refl (p : Pool) : Clears id p p := .of_eq rfl

theorem trans (first : Clears id p q) (second : Clears id q r) : Clears id p r := by
  intro e found out
  rcases second e found out with before | nothing
  · exact first e before out
  · exact .inr nothing

theorem modify (p : Pool) (other : EntityId) {f : Entity → Entity}
    (kept : ∀ e, e.index = other → (f e).index = other)
    (changed : ∀ e, other = id → p.entity? id = some e → (f e).inUse = false →
      f e = e ∨ f e = Entity.vacant id (f e).generation) : Clears id p (p.modify other f kept) := by
  intro e found out
  rw [entity?_modify] at found
  split at found
  · rename_i same
    obtain ⟨e', held, rfl⟩ := Option.map_eq_some_iff.mp found
    rcases changed e' same held out with kept | nothing
    · exact .inl (kept.symm ▸ held)
    · exact .inr nothing
  · exact .inl found

theorem modifyBody (other : EntityId) (f : Body → Body)
    (live : other = id → ∀ e, p.entity? id = some e → e.inUse = true) :
    Clears id p (p.modifyBody other f) := by
  refine .modify p other _ fun e same held out => ?_
  have out' : e.inUse = false := out
  rw [live same e held] at out'
  cases out'

theorem free (p : Pool) (other : EntityId) : Clears id p (p.free other).value := by
  unfold Pool.free
  split
  · exact .refl p
  · rw [Logged.value_pure]
    refine .modify p other _ fun e same _ _ => ?_
    split
    · exact .inr (same ▸ rfl)
    · exact .inl rfl

theorem kill (p : Pool) (other : EntityId) : Clears id p (p.kill other).value := by
  unfold Pool.kill
  split
  · have counted : Clears id p { p with killed := p.killed + 1 } := .of_eq rfl
    exact counted.trans (.free _ other)
  · exact .free p other

theorem spawn? {new : EntityId} (spawned : p.spawn? = some (new, q)) : Clears id p q := by
  have claims := claims_of_spawn? spawned
  by_cases same : id = new
  · subst same
    obtain ⟨e, held, live⟩ := claims.live
    intro e' found out
    rw [held] at found
    rw [← Option.some.inj found, live] at out
    cases out
  · exact .of_eq (claims.others id same)

theorem setUp (other : EntityId) (live : other = id → ∀ e, p.entity? id = some e → e.inUse = true) :
    Clears id p (p.setUp other).value.2 := by
  unfold Pool.setUp
  split
  · exact .refl p
  rename_i e found
  dsimp only
  split
  · exact .refl p
  split
  · exact .free p other
  · simp only [Logged.value_bind]
    split
    · exact .modifyBody other _ live
    · exact (modifyBody other _ live).trans (.free _ other)

theorem touch (p : Pool) (item player : EntityId) : Clears id p (p.touch item player).value.2 := by
  unfold Pool.touch
  split
  · exact .refl p
  split
  · exact .refl p
  split
  · exact .refl p
  split
  · exact .refl p
  rename_i holder held
  split
  · exact .refl p
  rename_i able
  have live : player = id → ∀ e, p.entity? id = some e → e.inUse = true := by
    rintro rfl e found
    rw [held] at found
    rw [← Option.some.inj found]
    simp only [Bool.not_eq_true', Bool.not_eq_false, Bool.and_eq_true] at able
    exact able.1
  dsimp only
  split
  · exact .modifyBody player _ live
  · exact (modifyBody player _ live).trans (.free _ item)

theorem takeDue? {new : EntityId} {think : Think} (taken : p.takeDue? = some (new, think, q)) :
    Clears id p q := by
  obtain ⟨first, -, rfl⟩ := takeDue?_eq_some taken
  obtain ⟨e, held, due, -⟩ := dueId?_eq_some first
  refine .modifyBody new _ ?_
  rintro rfl e' found
  rw [held] at found
  rw [← Option.some.inj found]
  simp only [isDue, Bool.and_eq_true] at due
  exact due.1.1

end Clears

theorem clears_apply {p : Pool} {op : Operation} (tidy : p.Tidy op) {id : EntityId}
    (free : p.isReserved id = false) : Clears id p (p.apply op) := by
  cases op with
  | spawn =>
    simp only [apply]
    cases spawned : p.spawn? with
    | none => exact .refl p
    | some result => exact .spawn? spawned
  | free other => exact .free p other
  | kill other => exact .kill p other
  | connect client =>
    simp only [apply]
    cases connected : p.connect? client with
    | none => exact .refl p
    | some result =>
      obtain ⟨place, known, -, led⟩ := connect?_eq_some connected
      rw [Option.map_some, Option.getD_some, led]
      refine .modify p result.1 _ fun e same _ _ => ?_
      have reserved : p.isReserved id = true := by
        rw [← same, place, isReserved, decide_eq_true_eq]
        exact known
      rw [reserved] at free
      cases free
  | setUp other => exact .setUp other fun same => same ▸ tidy (same ▸ free)
  | touch item player => exact .touch p item player
  | takeDue =>
    simp only [apply]
    cases taken : p.takeDue? with
    | none => exact .refl p
    | some result => exact .takeDue? taken
  | schedule other delay think => exact .modifyBody other _ fun same => same ▸ tidy (same ▸ free)
  | write other f => exact .modifyBody other f fun same => same ▸ tidy (same ▸ free)
  | addRule | addItem | advance | centerPrint | sound | takeEvents => exact .of_eq rfl

theorem vacated_new (config : PoolConfig) : (Pool.new config).Vacated := by
  intro id e _ found out
  rcases eq_of_entity?_new found with rfl | rfl
  · cases out
  · rfl

theorem Vacated.apply {p : Pool} (vacated : p.Vacated) {op : Operation} (tidy : p.Tidy op) :
    (p.apply op).Vacated := by
  intro id e free found out
  rw [isReserved_apply] at free
  rcases clears_apply tidy free e found out with before | nothing
  · exact vacated id e free before out
  · exact nothing

theorem Tends.vacated {p q : Pool} (tends : p.Tends q) (vacated : p.Vacated) : q.Vacated := by
  induction tends with
  | refl => exact vacated
  | tail _ step ih =>
    obtain ⟨op, tidy, rfl⟩ := step
    exact ih.apply tidy

/-- A new entity has nothing but the generation of its slot. -/
theorem Vacated.entity?_spawn? {p q : Pool} (vacated : p.Vacated) {id : EntityId}
    (spawned : p.spawn? = some (id, q)) :
    q.entity? id = some { Entity.vacant id (((p.entity? id).map (·.generation)).getD 0) with
      inUse := true } := by
  unfold spawn? at spawned
  split at spawned
  · rename_i vacant
    cases spawned
    obtain ⟨above, ⟨e, held, out⟩, -⟩ := vacantId?_eq_some vacant
    have free : p.isReserved id = false := by simpa [isReserved] using above
    have nothing := vacated id e free held out
    rw [entity?_modify, if_pos rfl, held, Option.map_some, nothing]
    rfl
  · split at spawned
    · cases spawned
      rw [entity?_grow, if_pos rfl, entity?_size]
      rfl
    · cases spawned

namespace Tends

variable {p q : Pool}

theorem apply (tends : p.Tends q) (op : Operation) (tidy : q.Tidy op) : p.Tends (q.apply op) :=
  .tail tends ⟨op, tidy, rfl⟩

theorem spawn? {id : EntityId} {r : Pool} (tends : p.Tends q) (spawned : q.spawn? = some (id, r)) :
    p.Tends r := by
  simpa [Pool.apply, spawned] using tends.apply .spawn trivial

theorem takeDue? {id : EntityId} {think : Think} {r : Pool} (tends : p.Tends q)
    (taken : q.takeDue? = some (id, think, r)) : p.Tends r := by
  simpa [Pool.apply, taken] using tends.apply .takeDue trivial

end Tends

theorem inUse_of_isOccupied {p : Pool} {id : EntityId} (live : p.isOccupied id = true) {e : Entity}
    (found : p.entity? id = some e) : e.inUse = true := by
  obtain ⟨e', held, inUse⟩ := isOccupied_iff.mp live
  rw [held] at found
  rwa [← Option.some.inj found]

/-- What a request does to a new entity goes to a slot in use. -/
theorem tends_useNew {p q : Pool} {id : EntityId} (spawned : p.spawn? = some (id, q))
    (f : Fields → Fields) (op : Operation)
    (tidy : (q.modifyFields id f).isOccupied id = true → (q.modifyFields id f).Tidy op) :
    p.Tends ((q.modifyFields id f).apply op) := by
  have live := (claims_of_spawn? spawned).isOccupied
  have made : p.Tends q := .spawn? .refl spawned
  have written : p.Tends (q.modifyFields id f) :=
    made.apply (.write id fun body => { body with fields := f body.fields })
      fun _ _ found => inUse_of_isOccupied live found
  exact written.apply op (tidy ((isOccupied_modifyFields ..).trans live))

end EntityScripting.Pool
