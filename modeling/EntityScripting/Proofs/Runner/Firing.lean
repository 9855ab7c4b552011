import EntityScripting.Proofs.Game.RelayCycle
import EntityScripting.Proofs.Game.Session
import EntityScripting.Runner.Basic

/-!
# What a runner fires

A runner lists the entities of a name once and uses the slots of the list one after another, without
another look at what they hold. `fired_faithful_iff` says when the slot that is used still stands for
the entity that was listed, and `fired_slot_reused` shows a level whose doors put a bell in the place
of a door that has not had its turn.
-/

namespace EntityScripting.Runner

open Number Script Engine

def usesOfAll (limits : Limits) (player : EntityId) : List EntityId → Engine → List (UseEvent × Engine)
  | [], _ => []
  | target :: rest, engine =>
    (⟨target, some player, some player⟩, engine) ::
      match engine.use limits ⟨target, some player, some player⟩ with
      | some engine => usesOfAll limits player rest engine
      | none => []

/-- The names that a runner comes to, each with the engine in which its entities are listed. -/
def listings (limits : Limits) (player : EntityId) : List String → Engine → List (String × Engine)
  | [], _ => []
  | name :: rest, engine =>
    (name, engine) ::
      match fireAll limits player [name] engine with
      | some engine => listings limits player rest engine
      | none => []

def targets (listing : String × Engine) : List EntityId :=
  listing.2.state.pool.find .targetname listing.1

def firings (limits : Limits) (player : EntityId) (listing : String × Engine) :
    List (UseEvent × Engine) :=
  usesOfAll limits player (targets listing) listing.2

section

variable {limits : Limits} {player : EntityId} {ids : List EntityId} {names : List String}
  {engine last now : Engine} {use : UseEvent} {name : String}

theorem reaches_use (used : engine.use limits use = some last) :
    engine.state.pool.Reaches last.state.pool :=
  (useWithin_keeps limits limits.nesting used).pool.reaches

theorem reaches_useAll (used : useAll limits player ids engine = some last) :
    engine.state.pool.Reaches last.state.pool := by
  induction ids generalizing engine with
  | nil =>
    cases used
    exact .refl _
  | cons target rest ih =>
    unfold useAll at used
    split at used
    · rename_i first
      exact (reaches_use first).trans (ih used)
    · cases used

/-- Nothing is listed under a name that a runner warns of, and the warning changes no pool. -/
theorem fireAll_one :
    fireAll limits player [name] engine =
      useAll limits player (targets (name, engine))
        (if (targets (name, engine)).isEmpty then
          engine.note .warn s!"no entity named {name} to fire" else engine) := by
  simp only [fireAll, targets]
  split <;> simp_all

theorem reaches_fireAll (fired : fireAll limits player [name] engine = some last) :
    engine.state.pool.Reaches last.state.pool := by
  rw [fireAll_one] at fired
  have reach := reaches_useAll fired
  split at reach
  · exact reach
  · exact reach

theorem prefix_usesOfAll : (usesOfAll limits player ids engine).map (·.1.target) <+: ids := by
  induction ids generalizing engine with
  | nil => exact List.prefix_rfl
  | cons target rest ih =>
    simp only [usesOfAll, List.map_cons, List.prefix_cons_inj]
    split
    · exact ih
    · exact List.nil_prefix

theorem usesOfAll_of_useAll (used : useAll limits player ids engine = some last) :
    (usesOfAll limits player ids engine).map (·.1.target) = ids := by
  induction ids generalizing engine with
  | nil => rfl
  | cons target rest ih =>
    unfold useAll at used
    simp only [usesOfAll, List.map_cons, List.cons_inj_right]
    cases first : engine.use limits ⟨target, some player, some player⟩ with
    | none =>
      rw [first] at used
      cases used
    | some after =>
      rw [first] at used
      exact ih used

theorem usesOfAll_spec (member : (use, now) ∈ usesOfAll limits player ids engine) :
    use = ⟨use.target, some player, some player⟩ ∧
      engine.state.pool.Reaches now.state.pool := by
  induction ids generalizing engine with
  | nil => cases member
  | cons target rest ih =>
    unfold usesOfAll at member
    rcases List.mem_cons.mp member with here | later
    · cases here
      exact ⟨rfl, .refl _⟩
    · split at later
      · rename_i first
        obtain ⟨told, reach⟩ := ih later
        exact ⟨told, (reaches_use first).trans reach⟩
      · cases later

theorem fireAll_cons {rest : List String} :
    fireAll limits player (name :: rest) engine =
      (fireAll limits player [name] engine).bind (fireAll limits player rest) := by
  simp only [fireAll]
  split <;> rfl

theorem prefix_listings : (listings limits player names engine).map Prod.fst <+: names := by
  induction names generalizing engine with
  | nil => exact List.prefix_rfl
  | cons name rest ih =>
    simp only [listings, List.map_cons, List.prefix_cons_inj]
    split
    · exact ih
    · exact List.nil_prefix

theorem reaches_of_listing (member : (name, now) ∈ listings limits player names engine) :
    engine.state.pool.Reaches now.state.pool := by
  induction names generalizing engine with
  | nil => cases member
  | cons first rest ih =>
    unfold listings at member
    rcases List.mem_cons.mp member with here | later
    · cases here
      exact .refl _
    · split at later
      · rename_i fired
        exact (reaches_fireAll fired).trans (ih later)
      · cases later

/-- If the limits suffice, every name has its list, and every entity on a list is used. -/
theorem listings_of_fireAll (fired : fireAll limits player names engine = some last) :
    (listings limits player names engine).map Prod.fst = names ∧
      ∀ listing ∈ listings limits player names engine,
        (firings limits player listing).map (·.1.target) = targets listing := by
  induction names generalizing engine with
  | nil => exact ⟨rfl, fun _ member => by cases member⟩
  | cons name rest ih =>
    rw [fireAll_cons] at fired
    obtain ⟨next, first, later⟩ := Option.bind_eq_some_iff.mp fired
    obtain ⟨all, each⟩ := ih later
    simp only [listings, first, List.map_cons, all, List.forall_mem_cons, true_and]
    refine ⟨?_, each⟩
    rw [fireAll_one] at first
    split at first
    · rename_i none
      simp [firings, usesOfAll, List.isEmpty_iff.mp none]
    · exact usesOfAll_of_useAll first

end

/-- A slot that is not in use does nothing. -/
theorem behavior?_of_unoccupied {g : Game} {id : EntityId} (free : g.pool.isOccupied id = false) :
    behavior? g id = none := by
  unfold behavior?
  split
  · rename_i e found
    have unused : e.inUse ≠ true := fun live =>
      absurd (Pool.isOccupied_iff.mpr ⟨e, found, live⟩) (by simp [free])
    rw [if_neg unused]
  · rfl

/-- What a runner uses for its names, on an engine whose pool has come about by any operations. It comes
to the names in order, lists the entities in use, other than the world, whose names are that one up to
case, and uses the slots of the list in order, each once; nothing but the limits keeps it from all of
them. A slot that is out of use then does nothing. One that is in use stands for the entity that was
listed if and only if that has not been released since its list was made. -/
theorem fired_faithful_iff {config : PoolConfig} (limits : Limits) (player : EntityId)
    (names : List String) {engine : Engine}
    (made : (Pool.new config).Reaches engine.state.pool) :
    (listings limits player names engine).map Prod.fst <+: names ∧
    (∀ last, fireAll limits player names engine = some last →
      (listings limits player names engine).map Prod.fst = names ∧
        ∀ listing ∈ listings limits player names engine,
          (firings limits player listing).map (·.1.target) = targets listing) ∧
    ∀ name listed, (name, listed) ∈ listings limits player names engine →
      (∀ id, id ∈ targets (name, listed) ↔ id ≠ worldId ∧
        ∃ e text, listed.state.pool.entity? id = some e ∧ e.inUse = true ∧
          e.fields.targetname = some text ∧ Text.sameIgnoringCase text name = true) ∧
      (firings limits player (name, listed)).map (·.1.target) <+: targets (name, listed) ∧
      ∀ use now, (use, now) ∈ firings limits player (name, listed) →
        use = ⟨use.target, some player, some player⟩ ∧
        listed.state.pool.Reaches now.state.pool ∧
        (now.state.pool.isOccupied use.target = false → behavior? now.state use.target = none) ∧
        ∀ ops, now.state.pool = listed.state.pool.run ops →
          listed.state.pool.releases use.target ops < UInt32.size - 1 →
          (now.state.pool.StandsFor use.target (listed.state.pool.wrap use.target) ↔
            now.state.pool.isOccupied use.target = false ∨
              listed.state.pool.releases use.target ops = 0) := by
  refine ⟨prefix_listings, fun last fired => listings_of_fireAll fired,
    fun name listed listing => ⟨fun id => Pool.mem_find_targetname_iff, prefix_usesOfAll,
      fun use now member => ?_⟩⟩
  obtain ⟨told, reach⟩ := usesOfAll_spec member
  refine ⟨told, reach, behavior?_of_unoccupied, fun ops led few => ?_⟩
  have begun : listed.state.pool.HasWorld :=
    Pool.hasWorld_of_made (made.trans (reaches_of_listing listing))
  have target : use.target ∈ targets (name, listed) :=
    prefix_usesOfAll.mem (List.mem_map.mpr ⟨_, member, rfl⟩)
  have occupied := Pool.isOccupied_of_mem_find target
  have exact := begun.standsFor_wrap_iff use.target ops few
  rwa [← led, and_iff_right occupied] at exact

/-- The session of a level with two doors and a bell. The first door to be used kills the second one and
spawns a relay to the bell. -/
def doorway : List Command :=
  [.loadSource "base1"
    "function swap()
      script.find('door')[2]:kill()
      script.spawn('trigger_relay', script.vector()):set('target', 'bell')
    end
    function ring() print('ring') end",
    .pool (.connect 0),
    .placeEntity ⟨"script",
      .ofList [("targetname", .string "door"), ("script_function", .string "swap")]⟩,
    .placeEntity ⟨"info_notnull", .ofList [("targetname", .string "door")]⟩,
    .placeEntity ⟨"script",
      .ofList [("targetname", .string "bell"), ("script_function", .string "ring")]⟩]

/-- The relay is used in the place of the second door. -/
theorem doorway_second :
    ∃ engine, doorway.foldlM (obey ⟨100, 100, 3⟩) (Engine.new {} 1) = some engine ∧
      ∃ listed, ("door", listed) ∈ listings ⟨100, 100, 3⟩ 1 ["door"] engine ∧
        ∃ now, (⟨3, some 1, some 1⟩, now) ∈ firings ⟨100, 100, 3⟩ 1 ("door", listed) ∧
          now.state.pool.isOccupied 3 = true ∧
          ¬ now.state.pool.StandsFor 3 (listed.state.pool.wrap 3) := by
  have second : (doorway.foldlM (obey ⟨100, 100, 3⟩) (Engine.new {} 1)).any (fun engine =>
      (firings ⟨100, 100, 3⟩ 1 ("door", engine)).any fun firing =>
        firing.1.target = 3 ∧ firing.2.state.pool.isOccupied 3 = true ∧
          ¬ firing.2.state.pool.StandsFor 3 (engine.state.pool.wrap 3)) = true := by
    decide +kernel
  obtain ⟨engine, loaded, made⟩ := (Option.any_eq_true _ _).mp second
  obtain ⟨⟨use, now⟩, member, found⟩ := List.any_eq_true.mp made
  obtain ⟨third, live, other⟩ := of_decide_eq_true found
  obtain ⟨told, -⟩ := usesOfAll_spec member
  rw [third] at told
  exact ⟨engine, loaded, engine, List.mem_cons_self, now, told ▸ member, live, other⟩

/-- A slot that is used can have been given to another entity since its list was made. -/
theorem fired_slot_reused :
    ¬ ∀ (limits : Limits) (config : ScriptConfig) (seed : Nat) (session : List Command)
        (player : EntityId) (names : List String) (engine : Engine),
      session.foldlM (obey limits) (Engine.new config seed) = some engine →
      ∀ name listed use now, (name, listed) ∈ listings limits player names engine →
        (use, now) ∈ firings limits player (name, listed) →
        now.state.pool.StandsFor use.target (listed.state.pool.wrap use.target) := by
  intro always
  obtain ⟨engine, loaded, listed, listing, now, member, -, other⟩ := doorway_second
  exact other (always _ _ _ _ _ _ engine loaded _ listed _ now listing member)

/-- However the operations of the first use have led to what the second one finds, they have released
the slot of the second door. -/
theorem fired_faithful_iff_doorway :
    ∃ engine, doorway.foldlM (obey ⟨100, 100, 3⟩) (Engine.new {} 1) = some engine ∧
      (Pool.new engine.state.config.pool).Reaches engine.state.pool ∧
      ∃ listed, ("door", listed) ∈ listings ⟨100, 100, 3⟩ 1 ["door"] engine ∧
        ∃ now, (⟨3, some 1, some 1⟩, now) ∈ firings ⟨100, 100, 3⟩ 1 ("door", listed) ∧
          listed.state.pool.Reaches now.state.pool ∧
          ∀ ops, now.state.pool = listed.state.pool.run ops →
            listed.state.pool.releases 3 ops ≠ 0 := by
  obtain ⟨engine, loaded, listed, listing, now, member, live, other⟩ := doorway_second
  have made := (Reachable.obeyAll (.new {} 1) loaded).sound.pool
  obtain ⟨-, -, each⟩ := fired_faithful_iff ⟨100, 100, 3⟩ 1 ["door"] made
  obtain ⟨-, -, uses⟩ := each "door" listed listing
  obtain ⟨-, reach, -, exact⟩ := uses _ now member
  refine ⟨engine, loaded, made, listed, listing, now, member, reach, fun ops led kept => other ?_⟩
  exact (exact ops led (by rw [kept]; decide)).mpr (.inr kept)

end EntityScripting.Runner
