import EntityScripting.Proofs.Game.RelayCycle

/-!
# Which entities a relay uses

A relay lists its targets when it is used and looks at each again when its turn comes. Whatever the
uses before it have done to the pool, an entity of the list is used exactly if it has not been
released, and nothing that is not on the list is. To use the relay is to make these uses one after the
other (`relay_uses_listed`).
-/

namespace EntityScripting

open Number Script

namespace Engine

/-- The turns of some handles, each with the engine that it finds, as far as the uses before it come
to an end. -/
def turns (usage : Usage) (other activator : Option EntityId) :
    List Handle → Engine → List (Handle × Engine)
  | [], _ => []
  | h :: rest, engine =>
    (h, engine) ::
      match h.resolve engine.state.pool with
      | none => turns usage other activator rest engine
      | some target =>
        match usage ⟨target, other, activator⟩ engine with
        | some engine => turns usage other activator rest engine
        | none => []

def useOfTurn? (other activator : Option EntityId) (turn : Handle × Engine) :
    Option (UseEvent × Engine) :=
  (turn.1.resolve turn.2.state.pool).map fun target => (⟨target, other, activator⟩, turn.2)

/-- Makes uses one after the other, as long as they come to an end. -/
def makeUses (usage : Usage) (uses : List UseEvent) (engine : Engine) : Option Engine :=
  uses.foldlM (fun now use => usage use now) engine

section

variable {usage : Usage} {other activator : Option EntityId} {handles : List Handle}
  {engine next now : Engine} {h : Handle}

@[simp] theorem makeUses_nil : makeUses usage [] engine = some engine := rfl

@[simp] theorem makeUses_cons (use : UseEvent) (uses : List UseEvent) :
    makeUses usage (use :: uses) engine = (usage use engine).bind (makeUses usage uses) := rfl

/-- To use each of the handles is to make the uses that are dispatched. -/
theorem useEach_eq_makeUses :
    useEach usage other activator handles engine =
      makeUses usage ((dispatched usage other activator handles engine).map (·.1)) engine := by
  induction handles generalizing engine with
  | nil => rfl
  | cons h rest ih =>
    unfold useEach dispatched
    cases resolved : h.resolve engine.state.pool with
    | none => exact ih
    | some target =>
      dsimp only
      rw [List.map_cons, makeUses_cons]
      cases used : usage ⟨target, other, activator⟩ engine with
      | none => rfl
      | some after => exact ih

/-- Each use is made in a turn, and there are no others. -/
theorem dispatched_eq_filterMap :
    dispatched usage other activator handles engine =
      (turns usage other activator handles engine).filterMap (useOfTurn? other activator) := by
  induction handles generalizing engine with
  | nil => rfl
  | cons h rest ih =>
    unfold dispatched turns
    cases resolved : h.resolve engine.state.pool with
    | none => simpa [List.filterMap_cons, useOfTurn?, resolved] using ih
    | some target =>
      cases used : usage ⟨target, other, activator⟩ engine with
      | none => simp [useOfTurn?, resolved, used]
      | some after => simpa [List.filterMap_cons, useOfTurn?, resolved, used] using ih

/-- A turn finds the engine that the uses of the turns before it lead to. -/
theorem makeUses_of_turns {before after : List (Handle × Engine)}
    (split : turns usage other activator handles engine = before ++ (h, now) :: after) :
    makeUses usage ((before.filterMap (useOfTurn? other activator)).map (·.1)) engine = some now := by
  induction handles generalizing engine before with
  | nil => simp [turns] at split
  | cons first rest ih =>
    unfold turns at split
    cases before with
    | nil =>
      cases (List.cons.inj split).1
      rfl
    | cons turn before =>
      obtain ⟨rfl, later⟩ := List.cons.inj split
      cases resolved : first.resolve engine.state.pool with
      | none =>
        rw [resolved] at later
        simpa [List.filterMap_cons, useOfTurn?, resolved] using ih later
      | some target =>
        rw [resolved] at later
        dsimp only at later
        cases used : usage ⟨target, other, activator⟩ engine with
        | none => simp [used] at later
        | some next =>
          rw [used] at later
          simpa [List.filterMap_cons, useOfTurn?, resolved, used] using ih later

/-- A use finds the engine that the uses before it lead to. -/
theorem makeUses_of_dispatched {use : UseEvent} {earlier later : List (UseEvent × Engine)}
    (split : dispatched usage other activator handles engine = earlier ++ (use, now) :: later) :
    makeUses usage (earlier.map (·.1)) engine = some now := by
  rw [dispatched_eq_filterMap] at split
  obtain ⟨before, rest, whole, rfl, made⟩ := List.filterMap_eq_append_iff.mp split
  obtain ⟨unused, ⟨h, found⟩, after, rfl, idle, same, -⟩ := List.filterMap_eq_cons_iff.mp made
  obtain ⟨target, -, same⟩ := Option.map_eq_some_iff.mp same
  cases same
  rw [← List.append_assoc] at whole
  have led := makeUses_of_turns whole
  rwa [List.filterMap_append, List.filterMap_eq_nil_iff.mpr idle, List.append_nil] at led

theorem prefix_turns : (turns usage other activator handles engine).map Prod.fst <+: handles := by
  induction handles generalizing engine with
  | nil => exact List.prefix_rfl
  | cons h rest ih =>
    simp only [turns, List.map_cons, List.prefix_cons_inj]
    split
    · exact ih
    · split
      · exact ih
      · exact List.nil_prefix

theorem target_of_useOfTurn {turn : Handle × Engine} {use : UseEvent × Engine}
    (made : useOfTurn? other activator turn = some use) : use.1.target = turn.1.slot := by
  obtain ⟨target, resolved, rfl⟩ := Option.map_eq_some_iff.mp made
  exact ((Handle.resolve_eq_some_iff _ _ _).mp resolved).1.symm

/-- Where the handles are in the order of their slots, a turn comes after the uses of lower slots, and
it finds the engine that these lead to. -/
theorem exists_uses_of_turn (ordered : handles.Pairwise (·.slot < ·.slot))
    (turn : (h, now) ∈ turns usage other activator handles engine) :
    ∃ earlier later, dispatched usage other activator handles engine = earlier ++ later ∧
      makeUses usage (earlier.map (·.1)) engine = some now ∧
      (∀ use ∈ earlier, use.1.target < h.slot) ∧ ∀ use ∈ later, h.slot ≤ use.1.target := by
  obtain ⟨before, after, split⟩ := List.append_of_mem turn
  have sorted : ((turns usage other activator handles engine).map Prod.fst).Pairwise
      (·.slot < ·.slot) := ordered.sublist prefix_turns.sublist
  rw [List.pairwise_map, split, List.pairwise_append, List.pairwise_cons] at sorted
  obtain ⟨-, ⟨higher, -⟩, lower⟩ := sorted
  refine ⟨before.filterMap (useOfTurn? other activator),
    ((h, now) :: after).filterMap (useOfTurn? other activator), ?_, makeUses_of_turns split,
    fun use member => ?_, fun use member => ?_⟩
  · rw [dispatched_eq_filterMap, split, List.filterMap_append]
  · obtain ⟨turn, first, made⟩ := List.mem_filterMap.mp member
    rw [target_of_useOfTurn made]
    exact lower turn first _ List.mem_cons_self
  · obtain ⟨turn, last, made⟩ := List.mem_filterMap.mp member
    rw [target_of_useOfTurn made]
    rcases List.mem_cons.mp last with rfl | last
    · exact Nat.le_refl _
    · exact Nat.le_of_lt (higher turn last)

/-- Every handle has its turn if all uses come to an end. -/
theorem turns_of_useEach (used : useEach usage other activator handles engine = some next) :
    (turns usage other activator handles engine).map Prod.fst = handles := by
  induction handles generalizing engine with
  | nil => rfl
  | cons h rest ih =>
    unfold useEach at used
    simp only [turns, List.map_cons, List.cons_inj_right]
    cases resolved : h.resolve engine.state.pool with
    | none =>
      rw [resolved] at used
      exact ih used
    | some target =>
      rw [resolved] at used
      dsimp only at used ⊢
      cases first : usage ⟨target, other, activator⟩ engine with
      | none =>
        rw [first] at used
        cases used
      | some after =>
        rw [first] at used
        exact ih used

/-- What a way to use entities does to the pool, if it ends, is operations on it. -/
def Operates (usage : Usage) : Prop :=
  ∀ ⦃event : UseEvent⦄ ⦃engine next : Engine⦄, usage event engine = some next →
    engine.state.pool.Reaches next.state.pool

theorem operates_useWithin (limits : Limits) (depth : Nat) : Operates (useWithin limits depth) :=
  fun _ _ _ used => (useWithin_keeps limits depth used).pool.reaches

theorem reaches_of_turn (operates : Operates usage)
    (turn : (h, now) ∈ turns usage other activator handles engine) :
    engine.state.pool.Reaches now.state.pool := by
  induction handles generalizing engine with
  | nil => cases turn
  | cons first rest ih =>
    unfold turns at turn
    rcases List.mem_cons.mp turn with here | later
    · cases here
      exact .refl _
    · split at later
      · exact ih later
      · split at later
        · rename_i used
          exact (operates used).trans (ih later)
        · cases later

theorem mem_dispatched_iff {use : UseEvent} :
    (use, now) ∈ dispatched usage other activator handles engine ↔
      ∃ h, (h, now) ∈ turns usage other activator handles engine ∧
        h.resolve now.state.pool = some use.target ∧ use = ⟨use.target, other, activator⟩ := by
  rw [dispatched_eq_filterMap, List.mem_filterMap]
  constructor
  · rintro ⟨⟨h, now'⟩, turn, made⟩
    obtain ⟨target, resolved, same⟩ := Option.map_eq_some_iff.mp made
    cases same
    exact ⟨h, turn, resolved, rfl⟩
  · rintro ⟨h, turn, resolved, same⟩
    refine ⟨(h, now), turn, Option.map_eq_some_iff.mpr ⟨_, resolved, ?_⟩⟩
    rw [← same]

/-- The slots that are used stand among those of the handles in the same order. -/
theorem targets_sublist :
    List.Sublist ((dispatched usage other activator handles engine).map (·.1.target))
      (handles.map (·.slot)) := by
  induction handles generalizing engine with
  | nil => exact .slnil
  | cons h rest ih =>
    unfold dispatched
    split
    · exact ih.cons _
    · rename_i target resolved
      obtain ⟨rfl, -⟩ := (h.resolve_eq_some_iff _ _).mp resolved
      refine List.Sublist.cons_cons _ ?_
      split
      · exact ih
      · exact List.nil_sublist _

end

/-! ### The targets of a relay -/

/-- The uses that a relay makes when it is used, whatever a use does. -/
def relayUses (usage : Usage) (event : UseEvent) (engine : Engine) : List (UseEvent × Engine) :=
  dispatched usage (some event.target) event.activator (relayTargets engine.state event.target) engine

def relayTurns (usage : Usage) (event : UseEvent) (engine : Engine) : List (Handle × Engine) :=
  turns usage (some event.target) event.activator (relayTargets engine.state event.target) engine

section

variable {event : UseEvent} {engine : Engine} {name : String}

/-- A target is listed by the handle that its slot has then. -/
theorem slot_wrap_of_occupied {p : Pool} {id : EntityId} (live : p.isOccupied id = true) :
    (p.wrap id).slot = id := ((Handle.resolve_eq_some_iff _ _ _).mp (Pool.resolve_wrap_self live)).1

theorem eq_wrap_of_mem_relayTargets {g : Game} {relay : EntityId} {h : Handle}
    (member : h ∈ relayTargets g relay) :
    h = g.pool.wrap h.slot ∧ h.resolve g.pool = some h.slot := by
  unfold relayTargets at member
  split at member
  · obtain ⟨id, listed, rfl⟩ := List.mem_map.mp member
    have live := Pool.isOccupied_of_mem_find listed
    rw [slot_wrap_of_occupied live]
    exact ⟨rfl, Pool.resolve_wrap_self live⟩
  · cases member

theorem slots_relayTargets
    (aimed : (engine.state.pool.entity? event.target).bind (·.fields.target) = some name) :
    (relayTargets engine.state event.target).map (·.slot) =
      engine.state.pool.find .targetname name := by
  simp only [relayTargets, aimed, List.map_map]
  refine (List.map_congr_left fun id member => ?_).trans (List.map_id _)
  exact slot_wrap_of_occupied (Pool.isOccupied_of_mem_find member)

/-- In its turn a target is used exactly if it has not been released since the relay was used. -/
theorem relayUses_iff_of_turn {usage : Usage} {h : Handle} {now : Engine}
    (turn : (h, now) ∈ relayTurns usage event engine) {ops : List Pool.Operation}
    (led : now.state.pool = engine.state.pool.run ops)
    (few : engine.state.pool.releases h.slot ops < UInt32.size) :
    (⟨h.slot, some event.target, event.activator⟩, now) ∈ relayUses usage event engine ↔
      engine.state.pool.releases h.slot ops = 0 := by
  have listed {h : Handle} (turn : (h, now) ∈ relayTurns usage event engine) :
      h = engine.state.pool.wrap h.slot ∧ h.resolve engine.state.pool = some h.slot :=
    eq_wrap_of_mem_relayTargets (prefix_turns.mem (List.mem_map_of_mem turn))
  obtain ⟨same, good⟩ := listed turn
  have later := Pool.resolve_run good ops few
  rw [← led] at later
  rw [relayUses, mem_dispatched_iff]
  constructor
  · rintro ⟨h', turn', resolved, -⟩
    -- The handle is that of the slot, since no slot is listed twice.
    obtain ⟨there, -⟩ := (Handle.resolve_eq_some_iff _ _ _).mp resolved
    obtain rfl : h' = h := by rw [(listed turn').1, there, ← same]
    rw [later] at resolved
    exact of_not_not fun released => by simp [released] at resolved
  · intro kept
    rw [if_pos kept] at later
    exact ⟨h, turn, later, rfl⟩

end

/-- What a relay that has a target name uses, whatever its uses do to the pool. It lists the entities in
use, other than the world, whose names are that one up to case. To use the relay is to use some of them,
in the order of their slots and each once, and to do nothing else; each is told of the relay and its
activator. Every entity on the list has its turn after those before it, unless a use among them does not
come to an end; in its turn it is used if and only if it has not been released since the relay was
used. -/
theorem relay_uses_listed {usage : Usage} (operates : Operates usage) {event : UseEvent}
    {engine : Engine} {name : String}
    (aimed : (engine.state.pool.entity? event.target).bind (·.fields.target) = some name) :
    (∀ id, id ∈ engine.state.pool.find .targetname name ↔
      id ≠ worldId ∧ ∃ e text, engine.state.pool.entity? id = some e ∧ e.inUse = true ∧
        e.fields.targetname = some text ∧ Text.sameIgnoringCase text name = true) ∧
    (engine.state.pool.find .targetname name).Pairwise (· < ·) ∧
    useRelay usage event engine =
      makeUses usage ((relayUses usage event engine).map (·.1)) engine ∧
    (∀ earlier use now later, relayUses usage event engine = earlier ++ (use, now) :: later →
      makeUses usage (earlier.map (·.1)) engine = some now) ∧
    (∀ usage' : Usage, (∀ use ∈ relayUses usage event engine, usage' use.1 use.2 = usage use.1 use.2) →
      useRelay usage' event engine = useRelay usage event engine) ∧
    List.Sublist ((relayUses usage event engine).map (·.1.target))
      (engine.state.pool.find .targetname name) ∧
    (∀ use ∈ relayUses usage event engine, ∃ h, (h, use.2) ∈ relayTurns usage event engine ∧
      use.1 = ⟨h.slot, some event.target, event.activator⟩) ∧
    (relayTurns usage event engine).map (·.1.slot) <+: engine.state.pool.find .targetname name ∧
    (∀ next, useRelay usage event engine = some next →
      (relayTurns usage event engine).map (·.1.slot) = engine.state.pool.find .targetname name) ∧
    ∀ h now, (h, now) ∈ relayTurns usage event engine →
      (∃ earlier later, relayUses usage event engine = earlier ++ later ∧
        makeUses usage (earlier.map (·.1)) engine = some now ∧
        (∀ use ∈ earlier, use.1.target < h.slot) ∧ ∀ use ∈ later, h.slot ≤ use.1.target) ∧
      engine.state.pool.Reaches now.state.pool ∧
      ∀ ops, now.state.pool = engine.state.pool.run ops →
        engine.state.pool.releases h.slot ops < UInt32.size →
        ((⟨h.slot, some event.target, event.activator⟩, now) ∈ relayUses usage event engine ↔
          engine.state.pool.releases h.slot ops = 0) := by
  have slots := slots_relayTargets aimed
  have rising := engine.state.pool.pairwise_find .targetname name
  have ordered := List.pairwise_map.mp (slots ▸ rising)
  refine ⟨fun id => Pool.mem_find_targetname_iff, rising, useEach_eq_makeUses,
    fun _ _ _ _ split => makeUses_of_dispatched split,
    fun usage' same => useEach_congr fun now after member => same (now, after) member,
    slots ▸ targets_sublist, fun use member => ?turn, ?started, fun next used => ?all,
    fun h now turn => ⟨exists_uses_of_turn ordered turn, reaches_of_turn operates turn,
      fun ops led few => relayUses_iff_of_turn turn led few⟩⟩
  case turn =>
    obtain ⟨h, turn, resolved, same⟩ := mem_dispatched_iff.mp member
    obtain ⟨there, -⟩ := (Handle.resolve_eq_some_iff _ _ _).mp resolved
    exact ⟨h, turn, there ▸ same⟩
  case started =>
    have begun : (relayTurns usage event engine).map Prod.fst <+: relayTargets engine.state _ :=
      prefix_turns
    simpa only [List.map_map, Function.comp_def, slots] using begun.map (·.slot)
  case all =>
    have whole : (relayTurns usage event engine).map Prod.fst = relayTargets engine.state _ :=
      turns_of_useEach used
    simpa only [List.map_map, Function.comp_def, slots] using congrArg (List.map (·.slot)) whole

/-- A relay in slot 2 with three targets, the first of which kills the second and spawns an entity in
the place of it. -/
def displacingRelay : Engine where
  state :=
    { config := {}
      pool := (Pool.new {}).run [.spawn, .spawn, .spawn, .spawn,
        .write 2 fun body => { body with use := some .relay, fields := { target := some "door" } },
        .write 3 fun body => { body with
          use := some (.native fun _ => .kill 4 (.spawn fun _ => .done))
          fields := { targetname := some "door" } },
        .write 4 fun body => { body with fields := { targetname := some "door" } },
        .write 5 fun body => { body with fields := { targetname := some "door" } }]
      api := 0 }
  heap := {}

theorem relayTargets_displacingRelay :
    relayTargets displacingRelay.state 2 = [⟨3, 0⟩, ⟨4, 0⟩, ⟨5, 0⟩] := by
  decide +kernel

/-- In its turn, the second target has given its slot to another entity. -/
theorem displacingRelay_second :
    ∃ now, (⟨4, 0⟩, now) ∈ relayTurns (useWithin ⟨1, 1, 1⟩ 1) ⟨2, none, some 1⟩ displacingRelay ∧
      now.state.pool = displacingRelay.state.pool.run [.kill 4, .spawn] := by
  have second : ∃ now, (relayTurns (useWithin ⟨1, 1, 1⟩ 1) ⟨2, none, some 1⟩ displacingRelay)[1]? =
        some (⟨4, 0⟩, now) ∧
      now.state.pool = displacingRelay.state.pool.run [.kill 4, .spawn] := by
    rw [relayTurns, relayTargets_displacingRelay]
    exact ⟨_, rfl, rfl⟩
  obtain ⟨now, found, led⟩ := second
  exact ⟨now, List.mem_of_getElem? found, led⟩

/-- The second target has its turn, but is not used. -/
theorem relay_uses_listed_displaced :
    Operates (useWithin ⟨1, 1, 1⟩ 1) ∧
    (displacingRelay.state.pool.entity? 2).bind (·.fields.target) = some "door" ∧
    displacingRelay.state.pool.find .targetname "door" = [3, 4, 5] ∧
    ∃ now, (⟨4, 0⟩, now) ∈ relayTurns (useWithin ⟨1, 1, 1⟩ 1) ⟨2, none, some 1⟩ displacingRelay ∧
      now.state.pool.isOccupied 4 = true ∧
      (⟨4, some 2, some 1⟩, now) ∉
        relayUses (useWithin ⟨1, 1, 1⟩ 1) ⟨2, none, some 1⟩ displacingRelay := by
  have operates := operates_useWithin ⟨1, 1, 1⟩ 1
  have aimed : (displacingRelay.state.pool.entity? 2).bind (·.fields.target) = some "door" := rfl
  have listed : displacingRelay.state.pool.find .targetname "door" = [3, 4, 5] := by
    rw [← @slots_relayTargets ⟨2, none, some 1⟩ _ _ aimed, relayTargets_displacingRelay]
    rfl
  obtain ⟨-, -, -, -, -, -, -, -, -, each⟩ := @relay_uses_listed _ operates ⟨2, none, some 1⟩ _ _ aimed
  obtain ⟨now, turn, led⟩ := displacingRelay_second
  have released : displacingRelay.state.pool.releases 4 [.kill 4, .spawn] = 1 := by decide
  refine ⟨operates, aimed, listed, now, turn, by rw [led]; decide, ?_⟩
  rw [(each _ _ turn).2.2 _ led (by decide), released]
  decide

end Engine

end EntityScripting
