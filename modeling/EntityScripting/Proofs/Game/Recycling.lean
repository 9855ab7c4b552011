import EntityScripting.Proofs.Game.Spanning
import EntityScripting.Proofs.Pool.Vacancy

/-!
# Slots that are had again

Maps, scripts, delayed actions and native callbacks write to entities in use only, so the next entity
in a slot has nothing of the one before (`free_slots_vacant`). The host is not held to that: it can
write to any slot, and it is asked not to here.
-/

namespace EntityScripting

open Number Script

namespace Pool

theorem spans_tends : Spans Tends where
  refl _ := .refl
  trans := .trans
  spawn? := .spawn? .refl
  write _ id f live _ := Tends.apply .refl (.write id f) fun _ _ => inUse_of_isOccupied live
  free _ id := Tends.apply .refl (.free id) trivial
  kill _ id := Tends.apply .refl (.kill id) trivial
  touch _ item player := Tends.apply .refl (.touch item player) trivial
  centerPrint _ id text := Tends.apply .refl (.centerPrint id text) trivial
  sound _ id sample := Tends.apply .refl (.sound id sample) trivial
  setsUp spawned f := tends_useNew spawned f (.setUp _) fun live _ _ => inUse_of_isOccupied live
  schedules spawned f delay think :=
    tends_useNew spawned f (.schedule _ delay think) fun live _ _ => inUse_of_isOccupied live
  advance _ seconds := Tends.apply .refl (.advance seconds) trivial
  takeDue? := .takeDue? .refl

def foundBy : Callback → Pool → List Pool
  | .done, _ => []
  | .spawn next, p =>
    p :: match p.spawn? with
      | some (id, q) => foundBy (next (some id)) q
      | none => foundBy (next none) p
  | .free id next, p => foundBy next (p.free id).value
  | .kill id next, p => foundBy next (p.kill id).value
  | .announce id text next, p => foundBy next (p.centerPrint id text)

theorem tends_foundBy {r : Pool} (callback : Callback) {p : Pool} (tends : r.Tends p) :
    ∀ q ∈ p.foundBy callback, r.Tends q := by
  induction callback generalizing p with
  | done => exact fun _ member => nomatch member
  | spawn next ih =>
    intro q member
    unfold foundBy at member
    rcases List.mem_cons.mp member with rfl | later
    · exact tends
    · split at later
      · rename_i spawned
        exact ih _ (tends.spawn? spawned) q later
      · exact ih _ tends q later
  | free id next ih => exact ih (tends.apply (.free id) trivial)
  | kill id next ih => exact ih (tends.apply (.kill id) trivial)
  | announce id text next ih => exact ih (tends.apply (.centerPrint id text) trivial)

end Pool

namespace Engine

variable {limits : Limits} {engine next : Engine}

/-- Whether a command is none of the host's writes to a slot that is out of use. -/
def Tidies (engine : Engine) : Command → Prop
  | .pool op => engine.state.pool.Tidy op
  | _ => True

inductive Tended (limits : Limits) : Engine → Prop where
  | new (config : ScriptConfig) (seed : Nat) : Tended limits (Engine.new config seed)
  | obey {engine next : Engine} (command : Command) : Tended limits engine →
    engine.Tidies command → engine.obey limits command = some next → Tended limits next

theorem tends_obey {command : Command} (tidies : engine.Tidies command)
    (obeyed : engine.obey limits command = some next) :
    engine.state.pool.Tends next.state.pool := by
  refine spans_obey Pool.spans_tends ?_ obeyed
  rintro op rfl
  exact Pool.Tends.apply .refl op tidies

theorem Tended.tends (tended : Tended limits engine) :
    (Pool.new engine.state.config.pool).Tends engine.state.pool := by
  induction tended with
  | new config seed => exact .refl
  | obey command _ tidies obeyed ih =>
    rw [(follows_obey obeyed).config]
    exact ih.trans (tends_obey tidies obeyed)

/-- In every session in which the host writes to entities in use only, nothing is ever left in a slot
that is out of use and no player's. So whatever spawns an entity, the host, a script, a delayed action
or a native callback, the entity has nothing but the generation of its slot. -/
theorem free_slots_vacant (limits : Limits) :
    (∀ config p, (Pool.new config).Tends p → p.Vacated ∧ ∀ id q, p.spawn? = some (id, q) →
      q.entity? id = some { Entity.vacant id (((p.entity? id).map (·.generation)).getD 0) with
        inUse := true }) ∧
    ∀ engine, Tended limits engine →
      (Pool.new engine.state.config.pool).Tends engine.state.pool ∧
      ∀ command,
        (∀ happening ∈ commandTrace limits engine command,
          (Pool.new engine.state.config.pool).Tends happening.world.state.pool) ∧
        ∀ use ∈ usesOfCommand limits engine command,
          (Pool.new engine.state.config.pool).Tends use.2.state.pool ∧
          ∀ callback, behavior? use.2.state use.1.target = some (.native callback) →
            ∀ p ∈ use.2.state.pool.foundBy (callback use.1),
              (Pool.new engine.state.config.pool).Tends p := by
  refine ⟨fun config p tends => ?vacant, fun engine tended => ⟨tended.tends, fun command => ?made⟩⟩
  case vacant =>
    have vacated := tends.vacated (Pool.vacated_new config)
    exact ⟨vacated, fun id q => vacated.entity?_spawn?⟩
  case made =>
    have lasts := (endures_spans Pool.spans_tends (Pool.new engine.state.config.pool)).toLasts
    refine ⟨commandTrace_sustains lasts tended.tends command, fun use member => ?_⟩
    have tends := usesOfCommand_sustains lasts tended.tends command use member
    exact ⟨tends, fun callback _ => Pool.tends_foundBy _ tends⟩

/-- An engine whose slot 2 has had a relay with a name, which is gone. -/
def formerRelay : Engine :=
  (Engine.new {} 1).update fun g => { g with pool := g.pool.run [.spawn, .write 2 fun body =>
    { body with use := some .relay, fields := { targetname := some "door" } }, .free 2] }

theorem free_slots_vacant_again :
    Tended ⟨1, 1, 1⟩ formerRelay ∧ (formerRelay.state.pool.spawn?).map (·.1) = some 2 ∧
      ∀ q, formerRelay.state.pool.spawn? = some (2, q) →
        q.entity? 2 = some { Entity.vacant 2 1 with inUse := true } := by
  obtain ⟨vacant, made⟩ := free_slots_vacant ⟨1, 1, 1⟩
  have tended : Tended ⟨1, 1, 1⟩ formerRelay := by
    have begun : Tended ⟨1, 1, 1⟩ (Engine.new {} 1) := .new {} 1
    have spawned := begun.obey (.pool .spawn) trivial rfl
    have written := spawned.obey (.pool (.write 2 fun body =>
      { body with use := some .relay, fields := { targetname := some "door" } })) ?_ rfl
    · exact written.obey (.pool (.free 2)) trivial rfl
    · rintro - e found
      obtain rfl := Option.some.inj found
      rfl
  refine ⟨tended, rfl, fun q spawned => ?_⟩
  exact (vacant _ _ (made _ tended).1).2 2 q spawned

end Engine

end EntityScripting
