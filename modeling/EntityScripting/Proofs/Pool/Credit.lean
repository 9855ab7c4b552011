import EntityScripting.Proofs.Pool.Layout
import EntityScripting.Proofs.SortedMap

/-!
# Credit for kills

A kill counts if what it removes is a live monster with the mark of its class. Where monsters can be
is an invariant (`Regular`), and no operation but a kill changes the count or makes a monster of what
was none (`Passes`), apart from the rule that sets a new entity up.
-/

namespace EntityScripting.Pool

open Number

structure Standing where
  inUse : Bool
  isMonster : Bool
  dead : Bool
  counted : Bool
deriving DecidableEq

def Standing.of (e : Entity) : Standing := ⟨e.inUse, e.isMonster, e.dead, e.counted⟩

def standing? (p : Pool) (id : EntityId) : Option Standing := (p.entity? id).map .of

def credits (p : Pool) (id : EntityId) : Bool := (p.entity? id).any isCreditable

def hasMonster (p : Pool) (id : EntityId) : Bool := (p.entity? id).any (·.isMonster)

theorem standing?_of_entity? {p : Pool} {id : EntityId} {e : Entity}
    (held : p.entity? id = some e) : p.standing? id = some (.of e) := by
  rw [standing?, held, Option.map_some]

theorem standing?_modify {p : Pool} {id : EntityId} {e : Entity} (held : p.entity? id = some e)
    (f : Entity → Entity) (kept : ∀ e, e.index = id → (f e).index = id) :
    (p.modify id f kept).standing? id = some (.of (f e)) := by
  refine standing?_of_entity? ?_
  rw [entity?_modify, if_pos rfl, held, Option.map_some]

theorem credits_eq (p : Pool) (id : EntityId) :
    p.credits id =
      (p.standing? id).any fun s => s.inUse && s.isMonster && !s.dead && s.counted := by
  cases held : p.entity? id <;> simp [credits, standing?, held, Standing.of, isCreditable]

theorem hasMonster_eq (p : Pool) (id : EntityId) :
    p.hasMonster id = (p.standing? id).any (·.isMonster) := by
  cases held : p.entity? id <;> simp [hasMonster, standing?, held, Standing.of]

theorem isOccupied_eq (p : Pool) (id : EntityId) :
    p.isOccupied id = (p.standing? id).any (·.inUse) := by
  cases held : p.entity? id <;> simp [isOccupied, slot?, standing?, held, Standing.of]

theorem isOccupied_of_credits {p : Pool} {id : EntityId} (credits : p.credits id = true) :
    p.isOccupied id = true := by
  rw [credits_eq, Option.any_eq_true] at credits
  obtain ⟨s, held, credited⟩ := credits
  simp only [Bool.and_eq_true] at credited
  rw [isOccupied_eq, held]
  exact credited.1.1.1

theorem credits_of_unoccupied {p : Pool} {id : EntityId} (unused : p.isOccupied id = false) :
    p.credits id = false := by
  by_contra credited
  rw [isOccupied_of_credits (by simpa using credited)] at unused
  cases unused

/-! ### Where monsters are -/

/-- Whether a slot is allocated if it is reserved, and there are no dead monsters and none but in a
slot in use that is not reserved. -/
def Proper (reserved : Bool) : Option Standing → Prop
  | none => reserved = false
  | some s => s.dead = false ∧ (s.isMonster = true → s.inUse = true ∧ reserved = false)

/-- What is no monster can be in any slot. -/
theorem proper_of_tame {reserved : Bool} {s : Standing} (alive : s.dead = false)
    (tame : s.isMonster = false) : Proper reserved (some s) :=
  ⟨alive, fun monster => absurd monster (Bool.eq_false_iff.mp tame)⟩

structure Regular (p : Pool) : Prop where
  rules : p.spawnRules = standardRules
  proper : ∀ id, Proper (p.isReserved id) (p.standing? id)

variable {p q r : Pool} {id : EntityId}

theorem regular_new (config : PoolConfig) : (Pool.new config).Regular where
  rules := rfl
  proper id := by
    rw [standing?, entity?_new]
    by_cases below : id ≤ config.maxClients
    · rw [if_pos below, Option.map_some]
      split
      · exact proper_of_tame rfl rfl
      · exact proper_of_tame rfl rfl
    · rw [if_neg below]
      exact decide_eq_false below

theorem Regular.reserved (regular : p.Regular) : p.maxClients < p.size := by
  have last := regular.proper p.maxClients
  cases held : p.entity? p.maxClients with
  | some e => exact lt_size_of_entity? held
  | none => simp [standing?, held, Proper, isReserved] at last

/-- There are no monsters in slots that are not in use or reserved. -/
theorem Regular.tame (regular : p.Regular) {s : Standing} (held : p.standing? id = some s)
    (kept : s.inUse = true → p.isReserved id = true) : s.isMonster = false := by
  have proper := regular.proper id
  rw [held] at proper
  by_contra monster
  obtain ⟨live, free⟩ := proper.2 (by simpa using monster)
  rw [kept live] at free
  cases free

theorem Regular.alive (regular : p.Regular) {s : Standing} (held : p.standing? id = some s) :
    s.dead = false := by
  have proper := regular.proper id
  rw [held] at proper
  exact proper.1

theorem Regular.credits_of_isReserved (regular : p.Regular) (reserved : p.isReserved id = true) :
    p.credits id = false := by
  rw [credits_eq]
  cases held : p.standing? id with
  | none => rfl
  | some s => simp [regular.tame held fun _ => reserved]

theorem credits_new (config : PoolConfig) (id : EntityId) : (Pool.new config).credits id = false := by
  by_cases reserved : (Pool.new config).isReserved id = true
  · exact (regular_new config).credits_of_isReserved reserved
  · have above : ¬ id ≤ config.maxClients := fun below => reserved (decide_eq_true below)
    rw [credits, entity?_new, if_neg above]
    rfl

structure Solely (id : EntityId) (p q : Pool) : Prop where
  others : ∀ other ≠ id, q.standing? other = p.standing? other
  killed : q.killed = p.killed
  rules : q.spawnRules = p.spawnRules
  maxClients : q.maxClients = p.maxClients

def Alike (p q : Pool) : Prop := ∀ id, Solely id p q

theorem Alike.refl (p : Pool) : Alike p p := fun _ => ⟨fun _ _ => rfl, rfl, rfl, rfl⟩

theorem Beside.solely (beside : Beside id p q) : Solely id p q where
  others other apart := congrArg (Option.map Standing.of) (beside.others other apart)
  killed := by rw [beside.rest]
  rules := by rw [beside.rest]
  maxClients := by rw [beside.rest]

theorem Solely.trans (first : Solely id p q) (second : Solely id q r) : Solely id p r where
  others other apart := (second.others other apart).trans (first.others other apart)
  killed := second.killed.trans first.killed
  rules := second.rules.trans first.rules
  maxClients := second.maxClients.trans first.maxClients

theorem Solely.isReserved (solely : Solely id p q) (other : EntityId) :
    q.isReserved other = p.isReserved other := by
  simp only [Pool.isReserved, solely.maxClients]

theorem Alike.standing? (alike : Alike p q) (id : EntityId) : q.standing? id = p.standing? id :=
  (alike (id + 1)).others id (Nat.ne_of_lt id.lt_succ_self)

def Harmless (f : Body → Body) : Prop :=
  ∀ body, (f body).isMonster = body.isMonster ∧ (f body).dead = body.dead ∧
    (f body).counted = body.counted

theorem standing?_modifyBody {f : Body → Body} (harmless : Harmless f) (p : Pool)
    (id other : EntityId) : (p.modifyBody id f).standing? other = p.standing? other := by
  unfold Pool.standing? modifyBody
  rw [entity?_modify]
  split
  · rw [Option.map_map]
    congr 1
    funext e
    obtain ⟨monster, dead, counted⟩ := harmless e.toBody
    simp [Standing.of, Entity.withBody, monster, dead, counted]
  · rfl

theorem alike_modifyBody {f : Body → Body} (harmless : Harmless f) (p : Pool) (id : EntityId) :
    Alike p (p.modifyBody id f) := fun _ =>
  ⟨fun other _ => standing?_modifyBody harmless p id other, rfl, rfl, rfl⟩

theorem alike_modifyFields (p : Pool) (id : EntityId) (f : Fields → Fields) :
    Alike p (p.modifyFields id f) := by
  refine alike_modifyBody ?_ p id
  exact fun _ => ⟨rfl, rfl, rfl⟩

/-! ### What passes without credit -/

structure Passes (p q : Pool) : Prop where
  killed : q.killed = p.killed
  credits : ∀ id, q.credits id = (p.credits id && q.isOccupied id)

theorem Solely.regular (solely : Solely id p q) (regular : p.Regular)
    (proper : Proper (p.isReserved id) (q.standing? id)) : q.Regular where
  rules := solely.rules.trans regular.rules
  proper other := by
    rw [solely.isReserved]
    by_cases same : other = id
    · rw [same]
      exact proper
    · rw [solely.others other same]
      exact regular.proper other

theorem credits_of_standing (same : q.standing? id = p.standing? id) :
    q.credits id = (p.credits id && q.isOccupied id) := by
  rw [isOccupied_eq, same, ← isOccupied_eq, credits_eq q, same, ← credits_eq]
  cases credited : p.credits id with
  | false => rfl
  | true => rw [isOccupied_of_credits credited, Bool.true_and]

theorem Solely.credits (solely : Solely id p q) {other : EntityId} (apart : other ≠ id) :
    q.credits other = (p.credits other && q.isOccupied other) :=
  credits_of_standing (solely.others other apart)

theorem Solely.passes (solely : Solely id p q)
    (own : q.credits id = (p.credits id && q.isOccupied id)) : p.Passes q where
  killed := solely.killed
  credits other := by
    by_cases same : other = id
    · rw [same]
      exact own
    · exact solely.credits same

theorem Alike.passes (alike : Alike p q) : p.Passes q :=
  (alike worldId).passes (credits_of_standing (alike.standing? worldId))

theorem Alike.regular (alike : Alike p q) (regular : p.Regular) : q.Regular :=
  (alike worldId).regular regular (alike.standing? worldId ▸ regular.proper worldId)

/-- Whether all passes without credit, and the pool is regular afterwards. -/
structure Conforms (p q : Pool) : Prop extends Passes p q where
  regular : q.Regular

theorem Alike.conforms (alike : Alike p q) (regular : p.Regular) : p.Conforms q :=
  ⟨alike.passes, alike.regular regular⟩

theorem Conforms.refl (regular : p.Regular) : p.Conforms p :=
  (Alike.refl p).conforms regular

theorem Alike.trans_conforms (alike : Alike p q) (conforms : q.Conforms r) : p.Conforms r where
  killed := conforms.killed.trans (alike worldId).killed
  credits id := by
    rw [conforms.credits, credits_eq q, alike.standing?, ← credits_eq]
  regular := conforms.regular

/-- What is gone afterwards does not count. -/
theorem Solely.conforms_vacated (solely : Solely id p q) (unused : q.isOccupied id = false)
    (regular : q.Regular) : p.Conforms q :=
  ⟨solely.passes (by rw [credits_of_unoccupied unused, unused, Bool.and_false]), regular⟩

/-- What is new and does not count. -/
theorem Solely.conforms_new (solely : Solely id p q) (vacant : p.isOccupied id = false)
    (uncounted : q.credits id = false) (regular : q.Regular) : p.Conforms q :=
  ⟨solely.passes (by rw [uncounted, credits_of_unoccupied vacant, Bool.false_and]), regular⟩

theorem standing?_free (p : Pool) (free : p.isReserved id = false) :
    (p.free id).value.standing? id =
      (p.standing? id).map fun s => if s.inUse then ⟨false, false, false, false⟩ else s := by
  cases held : p.entity? id with
  | none => simp [Pool.free, free, Pool.standing?, entity?_modify, held]
  | some e =>
    cases live : e.inUse <;>
      simp [Pool.free, free, Pool.standing?, entity?_modify, held, live, Standing.of, Entity.vacant]

theorem free_of_isReserved (reserved : p.isReserved id = true) : (p.free id).value = p := by
  simp [free, reserved, Logged.note]

theorem regular_free (regular : p.Regular) (id : EntityId) : (p.free id).value.Regular := by
  cases free : p.isReserved id with
  | true => rwa [free_of_isReserved free]
  | false =>
    refine (Beside.free p id).solely.regular regular ?_
    have proper := regular.proper id
    rw [standing?_free p free]
    cases held : p.standing? id with
    | none => exact free
    | some s =>
      rw [held] at proper
      cases live : s.inUse with
      | true => simp [live, Proper]
      | false => simpa [live] using proper

theorem conforms_free (regular : p.Regular) (id : EntityId) : p.Conforms (p.free id).value := by
  cases free : p.isReserved id with
  | true =>
    rw [free_of_isReserved free]
    exact .refl regular
  | false =>
    exact (Beside.free p id).solely.conforms_vacated (isOccupied_free free) (regular_free regular id)

theorem credits_free (regular : p.Regular) (id : EntityId) :
    (p.free id).value.credits id = false := by
  cases free : p.isReserved id with
  | false => exact credits_of_unoccupied (isOccupied_free free)
  | true =>
    rw [free_of_isReserved free]
    exact regular.credits_of_isReserved free

structure Kills (p : Pool) (id : EntityId) (q : Pool) : Prop where
  killed : q.killed = p.killed + if p.credits id = true then 1 else 0
  credits : ∀ other, q.credits other = (p.credits other && q.isOccupied other)
  gone : q.credits id = false
  regular : q.Regular

theorem value_kill (p : Pool) (id : EntityId) :
    (p.kill id).value =
      (({ p with
          killed := p.killed + if p.credits id = true then 1 else 0 } : Pool).free id).value := by
  unfold kill
  cases credited : p.credits id with
  | true => exact congrArg Logged.value (if_pos credited)
  | false =>
    have uncredited : (p.entity? id).any isCreditable = false := credited
    simp [uncredited]

theorem kills_kill (regular : p.Regular) (id : EntityId) : p.Kills id (p.kill id).value := by
  rw [value_kill]
  generalize counted : p.killed + (if p.credits id = true then 1 else 0) = n
  have regular' : ({ p with killed := n } : Pool).Regular := ⟨regular.rules, regular.proper⟩
  have conforms := conforms_free regular' id
  exact ⟨conforms.killed.trans counted.symm, conforms.credits, credits_free regular' id,
    conforms.regular⟩

/-! ### New entities -/

/-- What a spawn finds is no monster. -/
theorem standing?_spawn? (regular : p.Regular) (spawned : p.spawn? = some (id, q)) :
    ∃ counted, q.standing? id = some ⟨true, false, false, counted⟩ := by
  have allocates := allocates_of_spawn? regular.reserved spawned
  have unused := (claims_of_spawn? spawned).vacant
  rw [standing?_of_entity? allocates.claimed]
  cases held : p.entity? id with
  | none => exact ⟨false, rfl⟩
  | some e =>
    have idle : e.inUse = false := by simpa [isOccupied, slot?, held] using unused
    have tame : e.isMonster = false :=
      regular.tame (standing?_of_entity? held) fun live => by
        rw [show e.inUse = true from live] at idle
        cases idle
    have alive : e.dead = false := regular.alive (standing?_of_entity? held)
    exact ⟨e.counted, by simp [Standing.of, tame, alive]⟩

theorem conforms_spawn? (regular : p.Regular) (spawned : p.spawn? = some (id, q)) :
    p.Conforms q := by
  obtain ⟨counted, held⟩ := standing?_spawn? regular spawned
  have solely := (Beside.spawn? spawned).solely
  refine solely.conforms_new (claims_of_spawn? spawned).vacant ?_ (solely.regular regular ?_)
  · rw [credits_eq, held]
    rfl
  · rw [held]
    exact proper_of_tame rfl rfl

/-- A rule of the standard classes makes a monster of what it sets up, marked so that its kill
counts, or leaves alone what decides that. -/
theorem marks_of_standard {classname : String} {rule : SpawnRule}
    (found : standardRules.get? classname = some rule) (id : EntityId) (body : Body) :
    (rule id body).value.2.dead = body.dead ∧
      ((rule id body).value.2.isMonster = body.isMonster ∧
          (rule id body).value.2.counted = body.counted ∨
        (rule id body).value.2.isMonster = true ∧ (rule id body).value.2.counted = true) := by
  have listed := SortedMap.mem_of_get?_ofList found
  simp only [List.mem_cons, Prod.mk.injEq, List.not_mem_nil, or_false] at listed
  rcases listed with ⟨-, rfl⟩ | ⟨-, rfl⟩ | ⟨-, rfl⟩ | ⟨-, rfl⟩ | ⟨-, rfl⟩ | ⟨-, rfl⟩
  · unfold scriptRule
    split <;> exact ⟨rfl, .inl ⟨rfl, rfl⟩⟩
  · exact ⟨rfl, .inl ⟨rfl, rfl⟩⟩
  · exact ⟨rfl, .inl ⟨rfl, rfl⟩⟩
  · exact ⟨rfl, .inl ⟨rfl, rfl⟩⟩
  · exact ⟨rfl, .inr ⟨rfl, rfl⟩⟩
  · exact ⟨rfl, .inr ⟨rfl, rfl⟩⟩

structure Enters (p : Pool) (id : EntityId) (q : Pool) : Prop where
  solely : Solely id p q
  regular : q.Regular
  marked : ∃ monster counted, q.standing? id = some ⟨true, monster, false, counted⟩ ∧
    (monster = true → counted = true)

theorem Solely.enters (solely : Solely id p q) (regular : p.Regular) (free : p.isReserved id = false)
    {monster counted : Bool} (held : q.standing? id = some ⟨true, monster, false, counted⟩)
    (marked : monster = true → counted = true) : p.Enters id q where
  solely := solely
  regular := solely.regular regular (held ▸ ⟨rfl, fun _ => ⟨rfl, free⟩⟩)
  marked := ⟨monster, counted, held, marked⟩

/-- What becomes of a new entity: its class takes it, or it is freed. -/
theorem setUp_cases (regular : p.Regular) (free : p.isReserved id = false) {counted : Bool}
    (held : p.standing? id = some ⟨true, false, false, counted⟩) :
    ∃ q, p.Enters id q ∧
      ((p.setUp id).value = (true, q) ∨ (p.setUp id).value = (false, (q.free id).value)) := by
  obtain ⟨e, found, standing⟩ := Option.map_eq_some_iff.mp held
  obtain ⟨live, tame, alive, -⟩ := Standing.mk.inj standing
  have same : p.Enters id p := (Beside.refl id p).solely.enters regular free held nofun
  unfold setUp
  rw [found]
  dsimp only
  split
  · exact ⟨p, same, .inl rfl⟩
  split
  · exact ⟨p, same, .inr rfl⟩
  rename_i rule ruled
  rw [regular.rules] at ruled
  rw [index_of_entity? found]
  obtain ⟨unhurt, marks⟩ := marks_of_standard ruled id e.toBody
  refine ⟨p.modifyBody id fun _ => (rule id e.toBody).value.2, ?_, ?_⟩
  · have after : (p.modifyBody id fun _ => (rule id e.toBody).value.2).standing? id =
        some ⟨true, (rule id e.toBody).value.2.isMonster, false,
          (rule id e.toBody).value.2.counted⟩ := by
      rw [modifyBody, standing?_modify found]
      simp [Standing.of, Entity.withBody, live, unhurt, alive]
    refine (Beside.modifyBody p id _).solely.enters regular free after fun monster => ?_
    rcases marks with ⟨kept, -⟩ | ⟨-, counted⟩
    · rw [kept, tame] at monster
      cases monster
    · exact counted
  · simp only [Logged.value_bind]
    split
    · exact .inl rfl
    · exact .inr rfl

theorem Enters.credits (enters : p.Enters id q) : q.credits id = q.hasMonster id := by
  obtain ⟨monster, counted, held, marked⟩ := enters.marked
  rw [credits_eq, hasMonster_eq, held]
  cases monster with
  | false => rfl
  | true => simp [marked rfl]

theorem Enters.isOccupied (enters : p.Enters id q) : q.isOccupied id = true := by
  obtain ⟨monster, counted, held, -⟩ := enters.marked
  rw [isOccupied_eq, held]
  rfl

theorem Solely.trans_enters (solely : Solely id p q) (enters : q.Enters id r) : p.Enters id r :=
  ⟨solely.trans enters.solely, enters.regular, enters.marked⟩

/-- An entity that a spawn has just made. -/
theorem enters_spawn? (regular : p.Regular) (spawned : p.spawn? = some (id, q))
    (alike : Alike q r) :
    p.Enters id r ∧ ∃ counted, r.standing? id = some ⟨true, false, false, counted⟩ := by
  obtain ⟨counted, held⟩ := standing?_spawn? regular spawned
  have same := (alike.standing? id).trans held
  have solely := (Beside.spawn? spawned).solely.trans (alike id)
  have free := (claims_of_spawn? spawned).reserved regular.reserved
  exact ⟨solely.enters regular free same nofun, counted, same⟩

/-- What becomes of an entity that a spawn has just made, once it has its fields. -/
theorem setUp_spawned (regular : p.Regular) (spawned : p.spawn? = some (id, q))
    (f : Fields → Fields) :
    ∃ r, p.Enters id r ∧ (((q.modifyFields id f).setUp id).value = (true, r) ∨
      ((q.modifyFields id f).setUp id).value = (false, (r.free id).value)) := by
  obtain ⟨enters, counted, held⟩ :=
    enters_spawn? regular spawned (alike_modifyFields q id f)
  have free := (claims_of_spawn? spawned).reserved regular.reserved
  rw [← enters.solely.isReserved] at free
  obtain ⟨r, entered, cases⟩ := setUp_cases enters.regular free held
  exact ⟨r, enters.solely.trans_enters entered, cases⟩

/-- A new entity that is freed again. -/
theorem Enters.conforms_free (enters : p.Enters id q) (free : p.isReserved id = false) :
    p.Conforms (q.free id).value := by
  have solely := enters.solely.trans (Beside.free q id).solely
  rw [← enters.solely.isReserved] at free
  exact solely.conforms_vacated (isOccupied_free free) (regular_free enters.regular id)

/-- Without its mark, a new entity is none that counts. -/
theorem Enters.unmark (enters : p.Enters id q) (free : p.isReserved id = false)
    (vacant : p.isOccupied id = false) :
    p.Conforms (q.modifyBody id fun body => { body with counted := false }) := by
  obtain ⟨monster, counted, held, -⟩ := enters.marked
  obtain ⟨e, found, standing⟩ := Option.map_eq_some_iff.mp held
  obtain ⟨live, -, alive, -⟩ := Standing.mk.inj standing
  have after : (q.modifyBody id fun body => { body with counted := false }).standing? id =
      some ⟨true, e.isMonster, false, false⟩ := by
    rw [modifyBody, standing?_modify found]
    simp [Standing.of, Entity.withBody, live, alive]
  have unmarked := (Beside.modifyBody q id fun body => { body with counted := false }).solely
  refine (enters.solely.trans unmarked).conforms_new vacant ?_ (unmarked.regular enters.regular ?_)
  · rw [credits_eq, after]
    simp
  · rw [after, enters.solely.isReserved]
    exact ⟨rfl, fun _ => ⟨rfl, free⟩⟩

theorem conforms_connect? {client : Nat} (regular : p.Regular)
    (connected : p.connect? client = some (id, q)) : p.Conforms q := by
  obtain ⟨place, known, ⟨e, held⟩, rfl⟩ := connect?_eq_some connected
  have alive : e.dead = false := regular.alive (standing?_of_entity? held)
  have reserved : p.isReserved id = true := place ▸ decide_eq_true known
  have solely := (Beside.modify p id joined fun e same => (index_joined e).trans same).solely
  refine ⟨solely.passes ?_, solely.regular regular ?_⟩
  · rw [credits_eq, standing?_modify held, regular.credits_of_isReserved reserved]
    simp [Standing.of, joined]
  · rw [standing?_modify held]
    exact proper_of_tame alive rfl

theorem alike_stock (p : Pool) (holder : EntityId) (classname : String) (n : UInt32) :
    Alike p (p.stock holder classname n) := by
  refine alike_modifyBody ?_ p holder
  exact fun _ => ⟨rfl, rfl, rfl⟩

/-- An item that is touched stays or is freed. -/
theorem touch_alike (p : Pool) (item holder : EntityId) :
    ∃ q, Alike p q ∧ ((p.touch item holder).value = (false, q) ∨
      (p.touch item holder).value = (true, (q.free item).value)) := by
  rcases p.touch_cases item holder with kept | ⟨e, entry, -, -, ⟨-, kept⟩ | ⟨-, taken⟩⟩
  · exact ⟨p, .refl p, .inl kept⟩
  · exact ⟨_, alike_stock _ _ _ _, .inl kept⟩
  · exact ⟨_, alike_stock _ _ _ _, .inr taken⟩

theorem conforms_touch (regular : p.Regular) (item holder : EntityId) :
    p.Conforms (p.touch item holder).value.2 := by
  obtain ⟨q, alike, kept | taken⟩ := p.touch_alike item holder
  · rw [kept]
    exact alike.conforms regular
  · rw [taken]
    exact alike.trans_conforms (conforms_free (alike.regular regular) item)

theorem alike_schedule (p : Pool) (id : EntityId) (delay : Single) (think : Think) :
    Alike p (p.schedule id delay think) := by
  refine alike_modifyBody ?_ p id
  exact fun _ => ⟨rfl, rfl, rfl⟩

theorem alike_takeDue? {think : Think} (taken : p.takeDue? = some (id, think, q)) : Alike p q := by
  obtain ⟨-, -, rfl⟩ := takeDue?_eq_some taken
  refine alike_modifyBody ?_ p id
  exact fun _ => ⟨rfl, rfl, rfl⟩

/-- Whether a host that makes entities in the ways of the game itself can have this done. -/
def Operation.IsPlain : Operation → Prop
  | .setUp _ | .addRule .. => False
  | .write _ f => Harmless f
  | _ => True

theorem conforms_apply (regular : p.Regular) {op : Operation} (plain : op.IsPlain)
    (spared : ∀ id, op ≠ .kill id) : p.Conforms (p.apply op) := by
  have alike : Alike p (p.apply op) → p.Conforms (p.apply op) := fun alike => alike.conforms regular
  cases op with
  | spawn =>
    simp only [apply]
    cases spawned : p.spawn? with
    | none => exact .refl regular
    | some result => exact conforms_spawn? regular spawned
  | free id => exact conforms_free regular id
  | kill id => exact absurd rfl (spared id)
  | connect client =>
    simp only [apply]
    cases connected : p.connect? client with
    | none => exact .refl regular
    | some result => exact conforms_connect? regular connected
  | setUp | addRule => cases plain
  | touch item holder => exact conforms_touch regular item holder
  | schedule id delay think => exact alike (alike_schedule p id delay think)
  | takeDue =>
    simp only [apply]
    cases taken : p.takeDue? with
    | none => exact .refl regular
    | some result => exact (alike_takeDue? taken).conforms regular
  | write id f => exact alike (alike_modifyBody plain p id)
  | addItem | advance | centerPrint | sound | takeEvents =>
    exact alike fun _ => ⟨fun _ _ => rfl, rfl, rfl, rfl⟩

end EntityScripting.Pool
