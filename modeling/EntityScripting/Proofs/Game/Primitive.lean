import EntityScripting.Game.MapEntity
import EntityScripting.Game.Use
import EntityScripting.Proofs.Pool.Action

/-!
# What a request can do

A request of a script that writes no variable and uses no entity changes a few things in the pool,
and of the rest of the game only the shared texts, the log and the seed (`moves_perform`). What
leads over those few changes leads over every request.
-/

namespace EntityScripting

open Number Script

namespace Pool

variable {Step : Pool → Pool → Prop} {p q : Pool}

/-- Whether a relation of pools leads over what requests do to the entities that are there. -/
structure Covers (Step : Pool → Pool → Prop) : Prop where
  refl : ∀ p, Step p p
  trans : ∀ {p q r}, Step p q → Step q r → Step p r
  spawn? : ∀ {p q id}, p.spawn? = some (id, q) → Step p q
  write : ∀ (p : Pool) (id : EntityId) {f : Body → Body}, p.isOccupied id = true →
    (∀ body, (f body).think = body.think ∧ (f body).nextThink = body.nextThink ∧
      (f body).inventory = body.inventory) →
    Step p (p.modifyBody id f)
  free : ∀ (p : Pool) (id : EntityId), Step p (p.free id).value
  kill : ∀ (p : Pool) (id : EntityId), Step p (p.kill id).value
  touch : ∀ (p : Pool) (item player : EntityId), Step p (p.touch item player).value.2
  centerPrint : ∀ (p : Pool) (id : EntityId) (text : String), Step p (p.centerPrint id text)
  sound : ∀ (p : Pool) (id : EntityId) (sample : String), Step p (p.sound id sample)

theorem Covers.writeFields (covers : Covers Step) {id : EntityId} (live : p.isOccupied id = true)
    (f : Fields → Fields) : Step p (p.modifyFields id f) :=
  covers.write p id live fun _ => ⟨rfl, rfl, rfl⟩

def SetsUp (Step : Pool → Pool → Prop) (p : Pool) (classname : String) : Prop :=
  ∀ id q (f : Fields → Fields), p.spawn? = some (id, q) →
    (∀ fields, (f fields).classname = some classname) →
    Step p ((q.modifyFields id f).setUp id).value.2

def Schedules (Step : Pool → Pool → Prop) (p : Pool) (delay : Single) : Prop :=
  ∀ id q (f : Fields → Fields) think, p.spawn? = some (id, q) →
    Step p ((q.modifyFields id f).schedule id delay think)

def Allows (Step : Pool → Pool → Prop) (p : Pool) {α : Type} : Request α → Prop
  | .spawn classname _ _ => SetsUp Step p classname
  | .give _ name => ∀ item, Item.find? p.items name = some item → SetsUp Step p item.classname
  | .trigger _ delay | .kill _ delay | .message _ _ delay =>
    Single.zero.lt delay = true → Schedules Step p delay
  | _ => True

theorem allows_of_all (setsUp : ∀ classname, SetsUp Step p classname)
    (schedules : ∀ delay, Schedules Step p delay) {α : Type} (request : Request α) :
    Allows Step p request := by
  cases request with
  | spawn classname => exact setsUp classname
  | give => exact fun item _ => setsUp item.classname
  | trigger _ delay | kill _ delay | message _ _ delay => exact fun _ => schedules delay
  | _ => trivial

end Pool

def Script.Request.isWrite {α : Type} : Request α → Bool
  | .setVariable .. => true
  | _ => false

namespace Game

/-- Whether a relation leads from the pool of a game to that of another, which has the same tables,
the same level and the same trigger stack. -/
structure Moves (Step : Pool → Pool → Prop) (g g' : Game) : Prop where
  config : g'.config = g.config
  api : g'.api = g.api
  level : g'.level = g.level
  triggers : g'.triggers = g.triggers
  vars : g'.vars = g.vars
  persistent : g'.persistent = g.persistent
  pool : Step g.pool g'.pool

variable {Step : Pool → Pool → Prop} {g g' g'' : Game}

namespace Moves

theorem still (moves : g.Moves Eq g') (covers : Pool.Covers Step) : g.Moves Step g' :=
  ⟨moves.config, moves.api, moves.level, moves.triggers, moves.vars, moves.persistent,
    moves.pool ▸ covers.refl _⟩

theorem after (still : g.Moves Eq g') (moves : g'.Moves Step g'') : g.Moves Step g'' where
  config := moves.config.trans still.config
  api := moves.api.trans still.api
  level := moves.level.trans still.level
  triggers := moves.triggers.trans still.triggers
  vars := moves.vars.trans still.vars
  persistent := moves.persistent.trans still.persistent
  pool := still.pool ▸ moves.pool

theorem table (moves : g.Moves Step g') (kind : VariableKind) : g'.table kind = g.table kind := by
  cases kind with
  | level => exact moves.vars
  | persistent => exact moves.persistent

theorem note (moves : g.Moves Step g') (severity : Severity) (text : String) :
    g.Moves Step (g'.note severity text) := { moves with }

theorem intern (moves : g.Moves Step g') (text : String) : g.Moves Step (g'.intern text) :=
  { moves with }

section

variable (covers : Pool.Covers Step)

include covers

theorem refl (g : Game) : g.Moves Step g := ⟨rfl, rfl, rfl, rfl, rfl, rfl, covers.refl _⟩

theorem trans (first : g.Moves Step g') (second : g'.Moves Step g'') : g.Moves Step g'' where
  config := second.config.trans first.config
  api := second.api.trans first.api
  level := second.level.trans first.level
  triggers := second.triggers.trans first.triggers
  vars := second.vars.trans first.vars
  persistent := second.persistent.trans first.persistent
  pool := covers.trans first.pool second.pool

theorem setPool (moves : g.Moves Step g') {pool : Pool} (step : Step g'.pool pool) :
    g.Moves Step { g' with pool } :=
  { moves with pool := covers.trans moves.pool step }

theorem withPool (moves : g.Moves Step g') {pool : Logged Pool} (step : Step g'.pool pool.value) :
    g.Moves Step (g'.withPool pool) :=
  { moves with pool := covers.trans moves.pool step }

theorem keep {α : Type} (moves : g.Moves Step g') {result : Logged (α × Pool)}
    (step : Step g'.pool result.value.2) : g.Moves Step (g'.keep result).2 :=
  { moves with pool := covers.trans moves.pool step }

theorem modifyBody (moves : g.Moves Step g') {id : EntityId} {f : Body → Body}
    (live : g'.pool.isOccupied id = true)
    (kept : ∀ body, (f body).think = body.think ∧ (f body).nextThink = body.nextThink ∧
      (f body).inventory = body.inventory) :
    g.Moves Step (g'.modifyBody id f) :=
  moves.setPool covers (covers.write _ id live kept)

theorem modifyFields (moves : g.Moves Step g') {id : EntityId}
    (live : g'.pool.isOccupied id = true) (f : Fields → Fields) :
    g.Moves Step (g'.modifyFields id f) :=
  moves.setPool covers (covers.writeFields live f)

end

end Moves

theorem entity?_of_entity {h : Handle} {e : Entity} (found : g.entity h = .ok e) :
    h.entity? g.pool = some e := by
  unfold entity at found
  split at found
  · rename_i there
    rw [there, Except.ok.inj found]
  · cases found

theorem isOccupied_of_entity {h : Handle} {e : Entity} (found : g.entity h = .ok e) :
    g.pool.isOccupied h.slot = true := by
  obtain ⟨held, live, -⟩ := Handle.entity?_eq_some_iff.mp (entity?_of_entity found)
  exact Pool.isOccupied_iff.mpr ⟨e, held, live⟩

theorem index_of_entity {h : Handle} {e : Entity} (found : g.entity h = .ok e) :
    e.index = h.slot := Handle.index_of_entity? (entity?_of_entity found)

theorem isOccupied_of_assignment {h : Handle} {name : String} {d : Datum}
    {assigned : Field × FieldValue} (done : g.assignment h name d = .ok assigned) :
    g.pool.isOccupied h.slot = true := by
  cases there : g.entity h with
  | ok e => exact isOccupied_of_entity there
  | error e =>
    unfold assignment at done
    cases named : Field.named name with
    | error e =>
      rw [named] at done
      cases done
    | ok field =>
      rw [named, there] at done
      change (if (!field.isWritable) = true then _ else _) = _ at done
      split at done <;> cases done

theorem moves_internValue (g : Game) (value : FieldValue) : g.Moves Eq (g.internValue value) := by
  have same : g.Moves Eq g := ⟨rfl, rfl, rfl, rfl, rfl, rfl, rfl⟩
  unfold internValue
  split
  · exact same.intern _
  · exact same

theorem moves_convertKeys (keys : List (String × Json)) (g : Game) :
    g.Moves Eq (convertKeys keys g).2 := by
  induction keys generalizing g with
  | nil => exact ⟨rfl, rfl, rfl, rfl, rfl, rfl, rfl⟩
  | cons entry rest ih =>
    obtain ⟨name, value⟩ := entry
    unfold convertKeys
    split
    · exact ⟨rfl, rfl, rfl, rfl, rfl, rfl, rfl⟩
    · rename_i pair _
      have moves := (moves_internValue g pair.2).after (ih _)
      split <;> rename_i converted <;> rwa [converted] at moves

theorem moves_draw (g : Game) (bound : Nat) : g.Moves Eq (g.draw bound).2 := by
  have seeded (seed : Nat) : g.Moves Eq { g with seed } := ⟨rfl, rfl, rfl, rfl, rfl, rfl, rfl⟩
  unfold draw
  exact seeded _

theorem pool_withTable (g : Game) (kind : VariableKind) (table : VariableTable) :
    (g.withTable kind table).pool = g.pool := by
  cases kind <;> rfl

/-- A write that a script asks for is refused, which changes nothing, or the table has it. -/
theorem assignVariable_cases (kind : VariableKind) (name : String) (d : Datum) (g : Game) :
    (∃ e, assignVariable kind name d g = (.error e, g)) ∨
      ∃ value table, d.forVariable kind = .ok value ∧ (g.table kind).set name value = .ok table ∧
        assignVariable kind name d g = (.ok (), g.withTable kind table) := by
  unfold assignVariable setVariable
  cases d.forVariable kind with
  | error e => exact .inl ⟨e, rfl⟩
  | ok value =>
    dsimp only
    cases set : (g.table kind).set name value with
    | error e => exact .inl ⟨e, rfl⟩
    | ok table => exact .inr ⟨value, table, rfl, set, rfl⟩

section

variable (covers : Pool.Covers Step)

include covers

theorem moves_announce (g : Game) (id : EntityId) (text : String) :
    g.Moves Step (g.announce id text) :=
  (Moves.refl covers g).setPool covers (covers.trans (covers.centerPrint ..) (covers.sound ..))

theorem moves_setField (h : Handle) (name : String) (d : Datum) (g : Game) :
    g.Moves Step (setField h name d g).2 := by
  unfold setField
  split
  · exact .refl covers g
  · rename_i field value assigned
    have interned := moves_internValue g value
    refine (interned.still covers).modifyFields covers ?_ _
    rw [← interned.pool]
    exact isOccupied_of_assignment assigned

theorem moves_spawn {classname : String} (origin angles : Vec3)
    (up : Pool.SetsUp Step g.pool classname) :
    g.Moves Step (spawn classname origin angles g).2 := by
  have interned := (Moves.refl covers g).intern classname
  unfold spawn
  dsimp only
  split
  · exact interned
  · rename_i id pool spawned
    have made (f : Fields → Fields) (named : ∀ fields, (f fields).classname = some classname) :=
      interned.keep covers (up id pool f spawned named)
    split
    · rename_i accepted
      refine (made _ ?_).modifyBody covers ?_ fun _ => ⟨rfl, rfl, rfl⟩
      · exact fun _ => rfl
      · refine (Pool.isOccupied_setUp accepted id).trans ?_
        rw [Pool.isOccupied_modifyFields]
        exact (Pool.claims_of_spawn? spawned).isOccupied
    · refine (made _ ?_).note ..
      exact fun _ => rfl

theorem moves_give (h : Handle) {name : String}
    (up : ∀ item, Item.find? g.pool.items name = some item →
      Pool.SetsUp Step g.pool item.classname) :
    g.Moves Step (give h name g).2 := by
  unfold give
  split
  · exact .refl covers g
  split
  · exact .refl covers g
  split
  · exact .refl covers g
  rename_i item known
  have interned := (Moves.refl covers g).intern item.classname
  dsimp only
  split
  · exact interned
  rename_i id pool spawned
  have made (f : Fields → Fields) (named : ∀ fields, (f fields).classname = some item.classname) :=
    interned.keep covers (up item known id pool f spawned named)
  split
  · refine made _ ?_
    exact fun _ => rfl
  have touched (f : Fields → Fields)
      (named : ∀ fields, (f fields).classname = some item.classname) (player : EntityId) :=
    (made f named).keep covers (covers.touch _ id player)
  split
  · refine touched _ ?_ _
    exact fun _ => rfl
  · refine (touched _ ?_ _).withPool covers (covers.free _ id)
    exact fun _ => rfl

theorem moves_postpone (target : Handle) {delay : Single} (think : Think)
    (later : Pool.Schedules Step g.pool delay) :
    g.Moves Step (postpone target delay think g).2 := by
  have interned := (Moves.refl covers g).intern (helperClass think)
  unfold postpone
  split
  · exact .refl covers g
  dsimp only
  split
  · exact interned
  · rename_i id pool spawned
    exact interned.setPool covers (later id pool _ think spawned)

omit covers in
theorem isOccupied_of_postpone {target : Handle} {delay : Single} {think : Think} {id : EntityId}
    (posted : postpone target delay think g = (.ok id, g')) : g'.pool.isOccupied id = true := by
  unfold postpone at posted
  split at posted
  · cases posted
  dsimp only at posted
  split at posted
  · cases posted
  · rename_i spawned
    cases posted
    rw [Pool.isOccupied_schedule, Pool.isOccupied_modifyFields]
    exact (Pool.claims_of_spawn? spawned).isOccupied

theorem moves_postponeMessage (target : Handle) {delay : Single} (text : String)
    (later : Pool.Schedules Step g.pool delay) :
    g.Moves Step (postponeMessage target delay text g).2 := by
  have moves := moves_postpone covers target (.message target) later
  unfold postponeMessage
  split
  · rename_i refused
    rwa [refused] at moves
  · rename_i id next posted
    have live := isOccupied_of_postpone posted
    rw [posted] at moves
    exact (moves.intern text).modifyFields covers live _

section

variable (h : Handle) {delay : Single}
  (later : Single.zero.lt delay = true → Pool.Schedules Step g.pool delay)

include later

theorem moves_trigger : g.Moves Step (trigger h delay g).2 := by
  unfold trigger
  split
  · exact .refl covers g
  split
  · exact .refl covers g
  dsimp only
  split
  · rename_i positive
    exact moves_postpone covers h _ (later positive)
  · split <;> exact .refl covers g

theorem moves_kill : g.Moves Step (kill h delay g).2 := by
  unfold kill
  split
  · exact .refl covers g
  split
  · exact .refl covers g
  split
  · rename_i positive
    exact moves_postpone covers h _ (later positive)
  · exact (Moves.refl covers g).withPool covers (covers.kill ..)

theorem moves_message (text : String) : g.Moves Step (message h text delay g).2 := by
  unfold message
  split
  · exact .refl covers g
  split
  · exact .refl covers g
  split
  · rename_i positive
    exact moves_postponeMessage covers h text (later positive)
  · exact moves_announce covers g _ text

end

theorem moves_placeEntity (spec : EntitySpec)
    (up : ∀ id q (f : Fields → Fields), g.pool.spawn? = some (id, q) →
      Step g.pool ((q.modifyFields id f).setUp id).value.2) :
    g.Moves Step (placeEntity spec g).2 := by
  unfold placeEntity
  split
  · exact .refl covers g
  rename_i id pool spawned
  have placed : g.Moves Step ({ g with pool }.intern spec.classname) :=
    ((Moves.refl covers g).setPool covers (covers.spawn? spawned)).intern spec.classname
  have converts := moves_convertKeys spec.keys.entries ({ g with pool }.intern spec.classname)
  have moves := placed.trans covers (converts.still covers)
  dsimp only
  split
  · rename_i converted
    rw [converted] at moves
    exact moves.withPool covers (covers.free ..)
  · rename_i after converted
    rw [converted] at converts moves
    have made : after.pool = pool := converts.pool.symm
    refine { moves with pool := ?_ }
    simp only [keep, modifyFields, made]
    exact up id pool _ spawned

end

end Game

namespace Engine

variable {engine next : Engine} {usage : Usage} {α : Type} {request : Request α}

/-! ### Requests -/

def used? {α : Type} (request : Request α) (engine : Engine) : Option UseEvent :=
  match request with
  | .trigger h delay => (Game.trigger h delay engine.state).1.toOption.join
  | _ => none

theorem trigger_at_once {h : Handle} {delay : Single} {g g' : Game} {event : UseEvent}
    (now : Game.trigger h delay g = (.ok (some event), g')) : g' = g := by
  unfold Game.trigger at now
  split at now
  · cases now
  split at now
  · cases now
  dsimp only at now
  split at now
  · obtain ⟨outcome, -⟩ := Prod.mk.inj now
    generalize (Game.postpone h delay _ g).1 = posted at outcome
    cases posted <;> cases outcome
  split at now
  · cases now
  · cases now
    rfl

/-- The answer is the use, where there is one. -/
theorem perform_used {usage : Usage} {α : Type} {request : Request α} {engine next : Engine}
    {event : UseEvent} {answer : α} (used : used? request engine = some event)
    (performed : perform usage request engine = some (answer, next)) :
    usage event engine = some next := by
  obtain ⟨g, heap⟩ := engine
  cases request with
  | trigger h delay =>
    simp only [used?] at used
    simp only [perform] at performed
    generalize triggered : Game.trigger h delay g = result at used performed
    obtain ⟨_ | _ | now, g'⟩ := result
    · cases used
    · cases used
    · obtain rfl := Option.some.inj used
      obtain rfl := trigger_at_once triggered
      dsimp only at performed
      split at performed
      · rename_i ended
        cases performed
        exact ended
      · cases performed
  | _ => cases used

/-- Whatever a relation leads over that primitives do, it leads over the answer to a request. -/
theorem moves_perform {Step : Pool → Pool → Prop} (covers : Pool.Covers Step) {answer : α}
    (unwritten : request.isWrite = false) (unused : used? request engine = none)
    (allows : engine.state.pool.Allows Step request)
    (performed : perform usage request engine = some (answer, next)) :
    engine.state.Moves Step next.state := by
  obtain ⟨g, heap⟩ := engine
  cases request with
  | «variable» | allVariables | context | find | get | flag | isValid | describe =>
    cases performed
    exact .refl covers g
  | setVariable => cases unwritten
  | print line =>
    cases performed
    exact (Game.Moves.refl covers g).note ..
  | draw bound =>
    cases performed
    exact (g.moves_draw bound).still covers
  | spawn classname origin angles =>
    cases performed
    exact Game.moves_spawn covers origin angles allows
  | set h key d =>
    cases performed
    exact Game.moves_setField covers h key d g
  | trigger h delay =>
    have moves := Game.moves_trigger covers h allows
    simp only [used?] at unused
    simp only [perform] at performed
    generalize Game.trigger h delay g = result at moves unused performed
    obtain ⟨_ | _ | event, g'⟩ := result
    · cases performed
      exact moves
    · cases performed
      exact moves
    · cases unused
  | kill h delay =>
    cases performed
    exact Game.moves_kill covers h allows
  | message h text delay =>
    cases performed
    exact Game.moves_message covers h allows text
  | give h item =>
    cases performed
    exact Game.moves_give covers h allows

end Engine

end EntityScripting
