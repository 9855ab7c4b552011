import EntityScripting.Proofs.Game.Method
import EntityScripting.Proofs.Pool.Handle

/-!
# Refused requests

A request that makes an entity claims a slot before all else and may still fail: a key does not fit,
the class does not take the entity, the player can carry no more of an item. However it fails, the
slot is given back, so the same entities are there as before (`refused_requests_leave_nothing`).
-/

namespace EntityScripting

open Number Script

namespace Pool

variable {p q : Pool} {id : EntityId}

/-- A handle made from a slot that is out of use is good for nothing, and stays so. -/
theorem stale_of_vacant (begun : p.HasWorld) (allocated : id < p.size)
    (gone : p.isOccupied id = false) (ops : List Operation)
    (few : p.releases (p.wrap id).slot ops < UInt32.size - 1) :
    (p.wrap id).resolve (p.run ops) = none := by
  obtain ⟨e, held⟩ : ∃ e, p.entity? id = some e := ⟨_, Array.getElem?_eq_getElem allocated⟩
  rw [wrap_of_slot (slot?_of_entity? held)] at few
  rw [begun.resolve_wrap id ops few, if_neg]
  simp [gone]

theorem Beside.hasWorld (beside : Beside id p q) (free : p.isReserved id = false)
    (begun : p.HasWorld) : q.HasWorld := by
  have apart : worldId ≠ id := by
    rintro rfl
    cases free
  rwa [HasWorld, slot?, beside.others worldId apart]

end Pool

namespace Game

variable {config : PoolConfig} {g : Game}

theorem preserves_placeEntity (room : g.pool.maxClients < g.pool.size) {spec : EntitySpec}
    (refused : ∀ id, (g.placeEntity spec).1 ≠ .ok (some id)) :
    g.pool.Preserves (g.placeEntity spec).2.pool := by
  rcases placeEntity_cases spec g with ⟨-, same⟩ | ⟨id, p, spawned, ⟨-, freed⟩ | ⟨f, placed, led⟩⟩
  · exact .of_eq same
  · rw [freed]
    exact (Pool.made_of_spawn? room spawned).preserves_free
  · rw [led]
    refine ((Pool.made_of_spawn? room spawned).modifyFields f).preserves_setUp ?_
    by_contra accepted
    rw [Bool.not_eq_false] at accepted
    exact refused id (by rw [placed, if_pos accepted])

/-- What a script has of a new entity: a handle that is good if the class took the entity; otherwise
one that will never be, and the pool is as it was. -/
structure Issues (g : Game) (rejected : Bool) (h : Handle) (g' : Game) : Prop where
  isValid : h.isValid g'.pool = !rejected
  preserves : rejected = true → g.pool.Preserves g'.pool
  stale : rejected = true → ∀ ops, g'.pool.releases h.slot ops < UInt32.size - 1 →
    h.resolve (g'.pool.run ops) = none

theorem issues_spawn (made : (Pool.new config).Reaches g.pool) {classname : String}
    {origin angles : Vec3} {h : Handle} (done : (spawn classname origin angles g).1 = .ok h) :
    g.Issues (g.pool.rejects classname origin angles) h (spawn classname origin angles g).2 := by
  have room := Pool.maxClients_lt_of_made made
  have begun : g.pool.HasWorld := Pool.hasWorld_of_made made
  have cases := spawn_cases classname origin angles g
  generalize spawn classname origin angles g = result at done cases ⊢
  obtain ⟨outcome, g'⟩ := result
  rcases cases with ⟨⟨⟨e, refused⟩, -⟩, -⟩ | ⟨id, p, f, spawned, handle, rejects, led⟩
  · rw [refused] at done
    cases done
  have new := (Pool.made_of_spawn? room spawned).modifyFields f
  obtain rfl : g'.pool.wrap id = h := Except.ok.inj (handle.symm.trans done)
  rw [rejects]
  cases accepted : ((p.modifyFields id f).setUp id).value.1 with
  | true =>
    rw [accepted, if_pos rfl] at led
    have live : g'.pool.isOccupied id = true := by
      rw [led, Pool.isOccupied_modifyBody, Pool.isOccupied_setUp accepted]
      exact new.live
    refine ⟨?_, nofun, nofun⟩
    rw [Handle.isValid, Pool.resolve_wrap_self live]
    rfl
  | false =>
    rw [accepted, if_neg Bool.false_ne_true] at led
    have beside : Pool.Beside id g.pool g'.pool := led ▸ new.beside.trans (.setUp _ id)
    have gone : g'.pool.isOccupied id = false :=
      led ▸ Pool.isOccupied_setUp_of_refused new.free accepted
    have allocated : id < g'.pool.size := by
      obtain ⟨e, held, -⟩ := Pool.isOccupied_iff.mp new.live
      have grown := (Pool.Extends.apply (p.modifyFields id f) (.setUp id)).size
      exact led ▸ Nat.lt_of_lt_of_le (Pool.lt_size_of_entity? held) grown
    have free : g.pool.isReserved id = false := (new.beside.isReserved id).symm.trans new.free
    have stale := Pool.stale_of_vacant (beside.hasWorld free begun) allocated gone
    refine ⟨?_, fun _ => beside.preserves new.vacant gone, fun _ => stale⟩
    have now := stale [] (by simp [Pool.releases, UInt32.size])
    rw [Handle.isValid, show (g'.pool.wrap id).resolve g'.pool = none from now]
    rfl

theorem stocks_give (room : g.pool.maxClients < g.pool.size) {h : Handle} {name : String}
    {taken : Bool} (done : (give h name g).1 = .ok taken) :
    ∃ item, Item.find? g.pool.items name = some item ∧
      g.pool.Stocks (give h name g).2.pool h.slot fun classname =>
        if taken = true ∧ classname = item.classname then 1 else 0 := by
  rcases give_cases h name g with ⟨⟨e, refused⟩, -⟩ |
    ⟨item, id, p, f, there, listed, spawned, named, offered, led⟩
  · rw [refused] at done
    cases done
  have new := (Pool.made_of_spawn? room spawned).modifyFields f
  obtain rfl : _ = taken := Except.ok.inj (offered.symm.trans done)
  obtain ⟨e, held, -⟩ := (Pool.claims_of_spawn? spawned).live
  refine ⟨item, listed, led ▸ new.stocks_touch (Pool.entity?_modifyFields held f) (named _) ?_ there⟩
  rw [new.beside.rest]
  exact Item.find?_classname listed

end Game

namespace Engine

variable {config : PoolConfig} {g : Game} {usage : Usage}

def SpawnTakes (call : Invocation) (classname : String) (origin angles : Vec3) : Prop :=
  Conversion.text (call.arg 1) = .ok classname ∧ (call.arg 2).datum.vector = .ok origin ∧
    if call.lacks 3 = true then angles = .zero else (call.arg 3).datum.vector = .ok angles

def spawning (classname : String) (origin angles : Vec3) : Routine :=
  .ask (.spawn classname origin angles) fun answer =>
    Activity.orRefuse answer fun h => Activity.wrap (.entity h) fun v => .done [v]

theorem routine_spawn {call : Invocation} {classname : String} {origin angles : Vec3}
    (takes : SpawnTakes call classname origin angles) :
    (EngineFunction.spawn.run call).routine = spawning classname origin angles := by
  obtain ⟨named, placed, turned⟩ := takes
  unfold EngineFunction.run Invocation.take Value.toVector
  rw [named, placed]
  by_cases missing : call.lacks 3 = true
  · rw [if_pos missing] at turned
    simp only [missing, turned]
    rfl
  · rw [if_neg missing] at turned
    simp only [missing, turned]
    rfl

/-- The end of a call of `script.spawn`: an error, and the pool is as it was, or a handle. -/
def SpawnEnds (g : Game) (call : Invocation) : Routine.Outcome → Game → Prop
  | .error _, last => last.pool = g.pool
  | .ok values, last => ∃ classname origin angles h identity,
    SpawnTakes call classname origin angles ∧ values = [.userdata (.entity h) identity] ∧
      g.Issues (g.pool.rejects classname origin angles) h last

theorem ends_spawn (made : (Pool.new config).Reaches g.pool) (call : Invocation) :
    Routine.Ends (perform usage) (SpawnEnds g call) g (EngineFunction.spawn.run call).routine := by
  have raised (error : Value) : SpawnEnds g call (.error error) g := rfl
  have asking {classname : String} {origin angles : Vec3}
      (takes : SpawnTakes call classname origin angles) :
      Routine.Ends (perform usage) (SpawnEnds g call) g (spawning classname origin angles) := by
    refine .ask fun heap answer last performed => ?_
    obtain ⟨done, rfl⟩ := Prod.mk.inj (Option.some.inj performed)
    refine .orRefuse (fun h ok => .wrap fun identity => .done ?_) fun e identity refused => ?_
    · exact ⟨classname, origin, angles, h, identity, takes, rfl,
        Game.issues_spawn made (done.trans ok)⟩
    · rcases Game.spawn_cases classname origin angles g with ⟨⟨-, same⟩, -⟩ | ⟨_, _, _, -, ok, -⟩
      · exact same
      · rw [← done, ok] at refused
        cases refused
  refine .take raised fun classname named => .toVector raised fun origin placed => ?_
  dsimp only
  by_cases missing : call.lacks 3 = true
  · rw [if_pos missing]
    exact asking ⟨named, placed, by rw [if_pos missing]⟩
  · rw [if_neg missing]
    exact .toVector raised fun angles turned => asking ⟨named, placed, by rwa [if_neg missing]⟩

/-- A call of `give` ends as the primitive does, or its arguments do not fit. -/
theorem ends_give_of {good : Routine.Outcome → Game → Prop} {call : Invocation}
    (raised : ∀ error, good (.error error) g)
    (refused : ∀ h name e error, (Game.give h name g).1 = .error e →
      good (.error error) (Game.give h name g).2)
    (answered : ∀ h identity others name taken,
      call.args = .userdata (.entity h) identity :: others →
      Conversion.text (call.arg 2) = .ok name → (Game.give h name g).1 = .ok taken →
      good (.ok [.boolean taken]) (Game.give h name g).2) :
    Routine.Ends (perform usage) good g (EntityMethod.give.run call).routine := by
  refine .receiver raised fun data identity others h args accepted =>
    .takeOf raised fun name converted => .ask fun heap answer last performed => ?_
  obtain ⟨done, rfl⟩ := Prod.mk.inj (Option.some.inj performed)
  refine .orRefuse (fun taken ok => .done ?_) fun e _ failed => refused h name e _ (done.trans failed)
  cases data with
  | entity =>
    obtain rfl := Option.some.inj accepted
    exact answered _ identity others name taken args converted (done.trans ok)
  | _ => cases accepted

theorem pool_of_give_error {h : Handle} {name : String} {e : ScriptError}
    (failed : (Game.give h name g).1 = .error e) : (Game.give h name g).2.pool = g.pool := by
  rcases Game.give_cases h name g with ⟨-, same⟩ | ⟨_, _, _, _, -, -, -, -, ok, -⟩
  · exact same
  · rw [ok] at failed
    cases failed

def GiveEnds (g : Game) (call : Invocation) : Routine.Outcome → Game → Prop
  | .error _, last => last.pool = g.pool
  | .ok values, last => ∃ h identity others name item taken,
    call.args = .userdata (.entity h) identity :: others ∧
      Conversion.text (call.arg 2) = .ok name ∧ values = [.boolean taken] ∧
      Item.find? g.pool.items name = some item ∧
      g.pool.Stocks last.pool h.slot fun classname =>
        if taken = true ∧ classname = item.classname then 1 else 0

theorem ends_give (room : g.pool.maxClients < g.pool.size) (call : Invocation) :
    Routine.Ends (perform usage) (GiveEnds g call) g (EntityMethod.give.run call).routine := by
  refine ends_give_of (fun _ => rfl) (fun _ _ _ _ failed => pool_of_give_error failed) ?_
  intro h identity others name taken args converted done
  obtain ⟨item, listed, stocks⟩ := Game.stocks_give room done
  exact ⟨h, identity, others, name, item, taken, args, converted, rfl, listed, stocks⟩

/-- In any game, with whatever scripts: when a map entity is not made, when `script.spawn` or a
method raises an error, when the class of a new entity does not take it, or when the helper of a
delayed action is not made, the same slots are in use with the same entities as before. So they are
after `give`, but that a player who takes the item carries one more of it. A call of `script.spawn`
whose entity is not taken still gives a handle, which never comes to be good while its slot is
released less often than a generation comes round. -/
theorem refused_requests_leave_nothing {config : PoolConfig} {g : Game}
    (made : (Pool.new config).Reaches g.pool) (heap : Heap) (limits : Limits) (usage : Usage) :
    (∀ spec, (∀ id, (g.placeEntity spec).1 ≠ .ok (some id)) →
      g.pool.Preserves (g.placeEntity spec).2.pool) ∧
    (∀ args trace outcome last,
      callBuiltin limits usage (.engine .spawn) args trace ⟨g, heap⟩ = some (outcome, last) →
      SpawnEnds g ⟨"spawn", args, trace⟩ outcome last.state) ∧
    (∀ args trace classname origin angles,
      SpawnTakes ⟨"spawn", args, trace⟩ classname origin angles →
      g.pool.rejects classname origin angles = true → 3 ≤ limits.steps →
      ∃ h identity last, callBuiltin limits usage (.engine .spawn) args trace ⟨g, heap⟩ =
          some (.ok [.userdata (.entity h) identity], last) ∧ g.Issues true h last.state) ∧
    (∀ args trace outcome last,
      callBuiltin limits usage (.entity .give) args trace ⟨g, heap⟩ = some (outcome, last) →
      GiveEnds g ⟨"give", args, trace⟩ outcome last.state) ∧
    (∀ m args trace error last,
      callBuiltin limits usage (.entity m) args trace ⟨g, heap⟩ = some (.error error, last) →
      last.state.pool = g.pool) ∧
    ∀ target delay think text,
      ((∀ id, (Game.postpone target delay think g).1 ≠ .ok id) →
        (Game.postpone target delay think g).2.pool = g.pool) ∧
      ((∀ id, (Game.postponeMessage target delay text g).1 ≠ .ok id) →
        (Game.postponeMessage target delay text g).2.pool = g.pool) := by
  have room := Pool.maxClients_lt_of_made made
  refine ⟨fun spec refused => Game.preserves_placeEntity room refused,
    fun args trace outcome last called => good_of_call (ends_spawn made _) called,
    fun args trace classname origin angles takes rejected enough => ?rejected,
    fun args trace outcome last called => good_of_call (ends_give room _) called,
    fun m args trace error last called => pool_of_method_error called,
    fun target delay think text => ⟨fun failed => ?helper, fun failed => ?message⟩⟩
  case rejected =>
    rcases Game.spawn_cases classname origin angles g with ⟨-, accepts⟩ | ⟨id, _, _, -, done, -⟩
    · rw [rejected] at accepts
      cases accepts
    · have granted : perform usage (.spawn classname origin angles) ⟨g, heap⟩ =
          some (.ok ((Game.spawn classname origin angles g).2.pool.wrap id),
            ⟨(Game.spawn classname origin angles g).2, heap⟩) := by
        rw [← done]
        rfl
      have ran := run_handing .entity enough granted
      have issues := Game.issues_spawn made done
      rw [rejected] at issues
      rw [show Routine.ask _ _ = spawning classname origin angles from rfl,
        ← routine_spawn takes] at ran
      exact ⟨_, _, _, ran, issues⟩
  case helper =>
    rcases Game.postpone_cases target delay think g with ⟨-, same⟩ | ⟨id, posted, -⟩
    · exact same
    · exact absurd posted (failed id)
  case message =>
    rcases Game.postponeMessage_cases target delay text g with ⟨-, same⟩ | ⟨id, posted, -⟩
    · exact same
    · exact absurd posted (failed id)

/-- A class that there is no rule for. -/
theorem refused_requests_leave_nothing_unknown :
    (Pool.new {}).rejects "func_bogus" .zero .zero = true ∧
      ∃ h identity last, callBuiltin ⟨3, 3, 3⟩ (fun _ _ => none) (.engine .spawn)
          [.ofString "func_bogus", .userdata (.vector .zero) 0] [] ⟨Game.new {} 0 1, {}⟩ =
            some (.ok [.userdata (.entity h) identity], last) ∧
        (Game.new {} 0 1).Issues true h last.state := by
  have rejected : (Pool.new {}).rejects "func_bogus" .zero .zero = true := by decide +kernel
  obtain ⟨-, -, spawns, -⟩ := refused_requests_leave_nothing
    (g := Game.new {} 0 1) (.refl (Pool.new {})) {} ⟨3, 3, 3⟩ fun _ _ => none
  refine ⟨rejected, spawns _ [] "func_bogus" .zero .zero ⟨?_, rfl, rfl⟩ rejected (by decide)⟩
  decide +kernel

end Engine

end EntityScripting
