import EntityScripting.Proofs.Game.Refusal
import EntityScripting.Proofs.Game.Spanning
import EntityScripting.Proofs.Pool.Inventory

/-!
# Items that players are given

Scripts, delayed actions and native callbacks let nothing into an inventory but by touch, so the caps
hold in every session in which the host does not either (`Rationed`). A script that asks for an item
under any spelling gets one under the name in the catalog, as long as there is room for it.
-/

namespace EntityScripting

open Number Script

namespace Pool

theorem spans_rations : Spans Rations where
  refl _ := .refl
  trans := .trans
  spawn? := .spawn? .refl
  write _ id _ _ kept := Rations.write .refl id fun body => (kept body).2.2
  free _ id := Rations.apply .refl (.free id) trivial
  kill _ id := Rations.apply .refl (.kill id) trivial
  touch _ item player := Rations.apply .refl (.touch item player) trivial
  centerPrint _ id text := Rations.apply .refl (.centerPrint id text) trivial
  sound _ id sample := Rations.apply .refl (.sound id sample) trivial
  setsUp {p q id} spawned f := by
    have made : p.Rations q := .spawn? .refl spawned
    have dressed : p.Rations (q.modifyFields id f) := made.write id fun _ => rfl
    exact dressed.apply (.setUp id) trivial
  schedules {p q id} spawned f delay think := by
    have made : p.Rations q := .spawn? .refl spawned
    have dressed : p.Rations (q.modifyFields id f) := made.write id fun _ => rfl
    exact dressed.apply (.schedule id delay think) trivial
  advance _ seconds := Rations.apply .refl (.advance seconds) trivial
  takeDue? := .takeDue? .refl

def Within (config : PoolConfig) (p : Pool) : Prop := (Pool.new config).Reaches p ∧ p.Capped

theorem Rations.within {config : PoolConfig} {p : Pool} (rations : (Pool.new config).Rations p) :
    p.Within config := ⟨rations.reaches, (rations.provided (provided_new config)).capped⟩

end Pool

namespace Game

variable {g : Game} {h : Handle} {name : String} {taken : Bool}

theorem living?_of_entity {e : Entity} (found : g.entity h = .ok e) :
    g.pool.living? h.slot = some e := by
  obtain ⟨held, able⟩ := Option.filter_eq_some_iff.mp (entity?_of_entity found)
  rw [Bool.and_eq_true] at able
  exact Pool.living?_of_entity? held able.1

theorem player_of_give (done : (give h name g).1 = .ok taken) :
    ∃ e, g.entity h = .ok e ∧ e.isPlayer = true := by
  unfold give at done
  split at done
  · cases done
  rename_i e found
  split at done
  · cases done
  rename_i able
  rw [Bool.not_eq_true', Bool.not_eq_false] at able
  exact ⟨e, found, able⟩

/-- An item that is given without an error is taken if there is room for it. -/
theorem taken_give (room : g.pool.maxClients < g.pool.size)
    (done : (give h name g).1 = .ok taken) {e : Entity} (found : g.entity h = .ok e)
    (able : e.isPlayer = true) {item : Item} (listed : Item.find? g.pool.items name = some item) :
    taken = true ↔ e.count item.classname < item.max.toNat := by
  rcases give_cases h name g with ⟨⟨error, refused⟩, -⟩ |
    ⟨item', id, p, f, -, listed', spawned, named, offered, -⟩
  · rw [refused] at done
    cases done
  obtain rfl : item' = item := Option.some.inj (listed'.symm.trans listed)
  have new := (Pool.made_of_spawn? room spawned).modifyFields f
  obtain ⟨i, held, -⟩ := (Pool.claims_of_spawn? spawned).live
  have dressed := Pool.entity?_modifyFields held f
  have known : Item.find? (p.modifyFields id f).items item'.classname = some item' := by
    rw [new.beside.rest]
    exact Item.find?_classname listed
  have fits := new.fits_iff dressed (named _) known (living?_of_entity found) able
  obtain rfl : _ = taken := Except.ok.inj (offered.symm.trans done)
  exact (Pool.picksUp_touch new.free).taken.trans fits

end Game

namespace Engine

variable {limits : Limits} {engine next : Engine} {g : Game} {usage : Usage}

/-- The end of a call of `give` that raises no error: the player had room and has one more under the
name in the catalog, or had none and nobody has more. -/
def Gives (g : Game) (call : Invocation) : Routine.Outcome → Game → Prop
  | .error _, _ => True
  | .ok values, last => ∃ h identity others name e item taken,
    call.args = .userdata (.entity h) identity :: others ∧
      Conversion.text (call.arg 2) = .ok name ∧ g.entity h = .ok e ∧ e.isPlayer = true ∧
      Item.find? g.pool.items name = some item ∧ values = [.boolean taken] ∧
      (taken = true ↔ e.count item.classname < item.max.toNat) ∧
      g.pool.Stocks last.pool h.slot fun classname =>
        if taken = true ∧ classname = item.classname then 1 else 0

theorem ends_gives (room : g.pool.maxClients < g.pool.size) (call : Invocation) :
    Routine.Ends (perform usage) (Gives g call) g (EntityMethod.give.run call).routine := by
  refine ends_give_of (fun _ => trivial) (fun _ _ _ _ _ => trivial) ?_
  intro h identity others name taken args converted done
  obtain ⟨e, found, able⟩ := Game.player_of_give done
  obtain ⟨item, listed, stocks⟩ := Game.stocks_give room done
  have taking := Game.taken_give room done found able listed
  exact ⟨h, identity, others, name, e, item, taken, args, converted, found, able, listed, rfl,
    taking, stocks⟩

def Command.AddsNothing : Command → Prop
  | .pool op => op.AddsNothing
  | _ => True

/-- The engines that a session leads to in which the host lets items in by touch alone. -/
inductive Rationed (limits : Limits) : Engine → Prop where
  | new (config : ScriptConfig) (seed : Nat) : Rationed limits (Engine.new config seed)
  | obey {engine next : Engine} (command : Command) : Rationed limits engine →
    command.AddsNothing → engine.obey limits command = some next → Rationed limits next

theorem rations_obey {command : Command} (adds : command.AddsNothing)
    (obeyed : engine.obey limits command = some next) :
    engine.state.pool.Rations next.state.pool := by
  refine spans_obey Pool.spans_rations ?_ obeyed
  rintro op rfl
  exact Pool.Rations.apply .refl op adds

theorem Rationed.rations (rationed : Rationed limits engine) :
    (Pool.new engine.state.config.pool).Rations engine.state.pool := by
  induction rationed with
  | new config seed => exact .refl
  | obey command _ adds obeyed ih =>
    rw [(follows_obey obeyed).config]
    exact ih.trans (rations_obey adds obeyed)

/-- In every session in which the host lets items in by touch alone, nobody ever carries more of a
class than its first entry in the catalog allows, and all of it is under the name there. Whatever
the session, a call of `give` that raises no error says whether there was room, and then the player
has one more; and an item that is no player's slot is picked up if it is in use and in the catalog
and its toucher is a player with room for it, and it is gone then and only then. The entry of a class
is the first of its name, however that is spelled. -/
theorem carried_within_caps (limits : Limits) :
    (∀ engine, Rationed limits engine →
      engine.state.pool.Within engine.state.config.pool ∧ ∀ command,
        (∀ happening ∈ commandTrace limits engine command,
          happening.world.state.pool.Within engine.state.config.pool) ∧
        ∀ use ∈ usesOfCommand limits engine command,
          use.2.state.pool.Within engine.state.config.pool) ∧
    (∀ config (g : Game) heap usage args trace outcome last, (Pool.new config).Reaches g.pool →
      callBuiltin limits usage (.entity .give) args trace ⟨g, heap⟩ = some (outcome, last) →
      Gives g ⟨"give", args, trace⟩ outcome last.state) ∧
    (∀ (p : Pool) item player, p.isReserved item = false →
      p.PicksUp item player (p.touch item player).value) ∧
    ∀ items name item, Item.find? items name = some item ↔ Item.First items name item := by
  refine ⟨fun engine rationed => ⟨rationed.rations.within, fun command => ?caps⟩, ?gives,
    fun p item player free => Pool.picksUp_touch free, fun _ _ _ => Item.find?_eq_some_iff⟩
  case caps =>
    have lasts := (endures_spans Pool.spans_rations (Pool.new engine.state.config.pool)).toLasts
    refine ⟨fun happening member => ?_, fun use member => ?_⟩
    · exact (commandTrace_sustains lasts rationed.rations command happening member).within
    · exact (usesOfCommand_sustains lasts rationed.rations command use member).within
  case gives =>
    intro config g heap usage args trace outcome last made called
    exact good_of_call (ends_gives (Pool.maxClients_lt_of_made made) _) called

def join (engine : Engine) : Engine :=
  engine.update fun g => { g with pool := g.pool.apply (.connect 0) }

/-- A request for a key, of which a player can carry one. -/
def keyRequest : List Value := [.userdata (.entity ⟨1, 0⟩) 0, .ofString "key_blue_key"]

theorem carried_within_caps_key :
    (Engine.new {} 1).join.state.pool.Within {} ∧
      ∃ last, callBuiltin ⟨9, 9, 9⟩ (fun _ _ => none) (.entity .give) keyRequest []
          (join ⟨Game.new {} 0 1, {}⟩) = some (.ok [.boolean true], last) ∧
        Gives (join ⟨Game.new {} 0 1, {}⟩).state ⟨"give", keyRequest, []⟩ (.ok [.boolean true])
          last.state := by
  obtain ⟨caps, gives, -, -⟩ := carried_within_caps ⟨9, 9, 9⟩
  have rationed : Rationed ⟨9, 9, 9⟩ (Engine.new {} 1).join :=
    .obey (.pool (.connect 0)) (.new {} 1) trivial rfl
  have answered : (callBuiltin ⟨9, 9, 9⟩ (fun _ _ => none) (.entity .give) keyRequest []
      (join ⟨Game.new {} 0 1, {}⟩)).map (·.1) = some (.ok [.boolean true]) := by decide +kernel
  obtain ⟨⟨outcome, last⟩, called, rfl⟩ := Option.map_eq_some_iff.mp answered
  have made : (Pool.new {}).Reaches (join ⟨Game.new {} 0 1, {}⟩).state.pool :=
    (Pool.Reaches.refl _).apply (.connect 0)
  exact ⟨(caps _ rationed).1, last, called, gives {} _ _ _ _ _ _ _ made called⟩

end Engine

end EntityScripting
