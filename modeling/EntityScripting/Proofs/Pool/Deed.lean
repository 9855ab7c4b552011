import EntityScripting.Proofs.Pool.Credit
import Mathlib.Algebra.BigOperators.Group.Finset.Piecewise

/-!
# Kills over a history

What is done to a pool, deed by deed. The monsters that maps have placed are told apart by the deeds
that placed them, and `killedMonsters` counts those that leave by a kill. What the pool counts is the
same number (`Chronicle.tallies`), because each deed does to the count what it should (`Deed.Lawful`).
-/

namespace EntityScripting.Pool

/-- What is done to a pool, as far as it matters for the count of kills. -/
inductive Purpose where
  /-- A map entity comes into a slot. -/
  | place (id : EntityId)
  | kill (id : EntityId)
  | other
deriving DecidableEq

structure Deed where
  purpose : Purpose
  before : Pool
  after : Pool

namespace Deed

def monster? (d : Deed) : Option EntityId :=
  match d.purpose with
  | .place id => if d.after.hasMonster id then some id else none
  | _ => none

def victim? (d : Deed) : Option EntityId :=
  match d.purpose with
  | .kill id => some id
  | _ => none

def credited (d : Deed) : Bool := d.victim?.any d.before.credits

end Deed

def Linked : Pool → List Deed → Pool → Prop
  | p, [], q => q = p
  | p, d :: rest, q => d.before = p ∧ Linked d.after rest q

def endsKilled (id : EntityId) : List Deed → Bool
  | [] => false
  | d :: rest => if d.after.isOccupied id then endsKilled id rest else d.victim? = some id

def killedMonsters : List Deed → Nat
  | [] => 0
  | d :: rest =>
    (if d.monster?.any (endsKilled · rest) then 1 else 0) + killedMonsters rest

def creditsOf (id : EntityId) : List Deed → Nat
  | [] => 0
  | d :: rest =>
    (if d.victim? = some id ∧ d.after.killed ≠ d.before.killed then 1 else 0) +
      if d.after.isOccupied id then creditsOf id rest else 0

structure Deed.Lawful (d : Deed) : Prop where
  killed : d.after.killed = d.before.killed + if d.credited = true then 1 else 0
  credits : ∀ id, d.after.credits id =
    (d.monster? = some id || (d.before.credits id && d.after.isOccupied id))
  placed : ∀ id, d.purpose = .place id → d.before.isOccupied id = false ∧ d.after.isOccupied id = true
  gone : ∀ id, d.purpose = .kill id →
    d.after = (d.before.kill id).value ∧ d.after.credits id = false

variable {p q r : Pool} {id : EntityId} {d : Deed} {deeds more : List Deed}

theorem Conforms.lawful (conforms : p.Conforms q) : Deed.Lawful ⟨.other, p, q⟩ where
  killed := conforms.killed.trans (UInt32.add_zero _).symm
  credits id := by simpa [Deed.monster?] using conforms.credits id
  placed _ placed := nomatch placed
  gone _ killed := nomatch killed

theorem lawful_kill (regular : p.Regular) (id : EntityId) :
    Deed.Lawful ⟨.kill id, p, (p.kill id).value⟩ where
  killed := (kills_kill regular id).killed
  credits other := by simpa [Deed.monster?] using (kills_kill regular id).credits other
  placed _ placed := nomatch placed
  gone
    | _, rfl => ⟨rfl, (kills_kill regular id).gone⟩

theorem Enters.lawful (enters : p.Enters id q) (vacant : p.isOccupied id = false) :
    Deed.Lawful ⟨.place id, p, q⟩ where
  killed := enters.solely.killed.trans (UInt32.add_zero _).symm
  credits other := by
    by_cases same : other = id
    · rw [same, enters.credits, credits_of_unoccupied vacant, Bool.false_and, Bool.or_false]
      cases monster : q.hasMonster id <;> simp [Deed.monster?, monster]
    · rw [enters.solely.credits same]
      have none : Deed.monster? ⟨.place id, p, q⟩ ≠ some other := by
        simp only [Deed.monster?]
        split
        · exact fun known => same (Option.some.inj known).symm
        · nofun
      simp [none]
  placed
    | _, rfl => ⟨vacant, enters.isOccupied⟩
  gone _ killed := nomatch killed

/-! ### Counting -/

theorem Deed.purpose_of_monster? (placed : d.monster? = some id) : d.purpose = .place id := by
  unfold monster? at placed
  split at placed
  · rename_i place
    split at placed
    · rw [place, Option.some.inj placed]
    · cases placed
  · cases placed

theorem Deed.purpose_of_victim? (killed : d.victim? = some id) : d.purpose = .kill id := by
  unfold victim? at killed
  split at killed
  · rename_i kill
    rw [kill, Option.some.inj killed]
  · cases killed

/-- What counts as gone by a kill, of all that counts in a slot, before a deed and after it. -/
theorem Deed.Lawful.balance (lawful : d.Lawful) (id : EntityId) (rest : List Deed) :
    (if d.victim? = some id ∧ d.before.credits id = true then 1 else 0) +
        (if d.after.credits id = true ∧ endsKilled id rest = true then 1 else 0) =
      (if d.monster? = some id ∧ endsKilled id rest = true then 1 else 0) +
        if d.before.credits id = true ∧ endsKilled id (d :: rest) = true then 1 else 0 := by
  have after := lawful.credits id
  simp only [endsKilled]
  by_cases placed : d.monster? = some id
  · obtain ⟨vacant, taken⟩ := lawful.placed id (purpose_of_monster? placed)
    have fresh := credits_of_unoccupied vacant
    simp [after, placed, fresh, taken]
  by_cases stays : d.after.isOccupied id = true
  · -- A kill of something that counts would have emptied the slot.
    have spared : ¬(d.victim? = some id ∧ d.before.credits id = true) := by
      rintro ⟨killed, credited⟩
      rw [(lawful.gone id (purpose_of_victim? killed)).2, credited, stays] at after
      simp at after
    simp [after, placed, stays, spared]
  · simp [after, placed, stays, and_comm]

theorem sum_any {slots : Finset EntityId} {o : Option EntityId}
    (within : ∀ id, o = some id → id ∈ slots) (f : EntityId → Bool) :
    (∑ id ∈ slots, if o = some id ∧ f id = true then 1 else 0) =
      if o.any f = true then 1 else 0 := by
  cases o with
  | none => simp
  | some a => simp [ite_and, within a rfl]

/-- The kills that count, in terms of what is to be killed of what is there already and of what is
placed later. -/
theorem countP_credited (linked : Linked p deeds q) (lawful : ∀ d ∈ deeds, d.Lawful)
    (slots : Finset EntityId) (within : ∀ d ∈ deeds, ∀ id,
      d.victim? = some id ∨ d.monster? = some id → id ∈ slots) :
    deeds.countP (·.credited) = killedMonsters deeds +
      ∑ id ∈ slots, if p.credits id = true ∧ endsKilled id deeds = true then 1 else 0 := by
  induction deeds generalizing p with
  | nil => simp [killedMonsters, endsKilled]
  | cons d rest ih =>
    obtain ⟨rfl, later⟩ := linked
    obtain ⟨law, laws⟩ := List.forall_mem_cons.mp lawful
    obtain ⟨here, others⟩ := List.forall_mem_cons.mp within
    have credited :
        (∑ id ∈ slots, if d.victim? = some id ∧ d.before.credits id = true then 1 else 0) =
          if d.credited = true then 1 else 0 := sum_any (fun id known => here id (.inl known)) _
    have placed := sum_any (fun id known => here id (.inr known)) (endsKilled · rest)
    have balance := Finset.sum_congr (rfl : slots = slots) fun id _ => law.balance id rest
    rw [Finset.sum_add_distrib, Finset.sum_add_distrib, credited, placed] at balance
    rw [List.countP_cons, ih later laws others, killedMonsters]
    omega

/-- The count is raised by each kill that counts. -/
theorem killed_of_linked (linked : Linked p deeds q) (lawful : ∀ d ∈ deeds, d.Lawful) :
    q.killed = p.killed + UInt32.ofNat (deeds.countP (·.credited)) := by
  induction deeds generalizing p with
  | nil =>
    obtain rfl := linked
    exact (UInt32.add_zero _).symm
  | cons d rest ih =>
    obtain ⟨rfl, later⟩ := linked
    obtain ⟨law, laws⟩ := List.forall_mem_cons.mp lawful
    rw [ih later laws, law.killed, List.countP_cons, Nat.add_comm, UInt32.ofNat_add,
      ← UInt32.add_assoc]
    split <;> rfl

/-- Where there have been no monsters in the beginning, the kills that count are those of the monsters
that were placed. -/
theorem countP_credited_of_empty (linked : Linked p deeds q) (lawful : ∀ d ∈ deeds, d.Lawful)
    (empty : ∀ id, p.credits id = false) : deeds.countP (·.credited) = killedMonsters deeds := by
  have counted := countP_credited linked lawful
    (deeds.flatMap fun d => d.victim?.toList ++ d.monster?.toList).toFinset
    fun d member id known => by
      simp only [List.mem_toFinset, List.mem_flatMap, List.mem_append, Option.mem_toList]
      exact ⟨d, member, known⟩
  simpa [empty] using counted

theorem Deed.Lawful.killed_ne (lawful : d.Lawful) (killed : d.victim? = some id) :
    d.after.killed ≠ d.before.killed ↔ d.before.credits id = true := by
  rw [lawful.killed, credited, killed, Option.any_some]
  split
  · rename_i counts
    simp [counts]
  · rename_i counts
    simp [counts]

/-- What is in a slot is counted once if it counts and leaves by a kill, and never if not. -/
theorem creditsOf_eq (linked : Linked p deeds q) (lawful : ∀ d ∈ deeds, d.Lawful)
    (there : p.isOccupied id = true) :
    creditsOf id deeds = if p.credits id = true ∧ endsKilled id deeds = true then 1 else 0 := by
  induction deeds generalizing p with
  | nil => simp [creditsOf, endsKilled]
  | cons d rest ih =>
    obtain ⟨rfl, later⟩ := linked
    obtain ⟨law, laws⟩ := List.forall_mem_cons.mp lawful
    have balance := law.balance id rest
    have unplaced : d.monster? ≠ some id := by
      intro placed
      rw [(law.placed id (Deed.purpose_of_monster? placed)).1] at there
      cases there
    have same : (d.victim? = some id ∧ d.after.killed ≠ d.before.killed) ↔
        d.victim? = some id ∧ d.before.credits id = true := and_congr_right law.killed_ne
    simp only [creditsOf, same]
    by_cases stays : d.after.isOccupied id = true
    · rw [if_pos stays, ih later laws stays]
      simpa [unplaced] using balance
    · simpa [stays, unplaced, credits_of_unoccupied (Bool.eq_false_iff.mpr stays)] using balance

theorem Linked.append (first : Linked p deeds q) (second : Linked q more r) :
    Linked p (deeds ++ more) r := by
  induction deeds generalizing p with
  | nil =>
    obtain rfl := first
    exact second
  | cons d rest ih => exact ⟨first.1, ih first.2⟩

theorem Linked.later (linked : Linked p (deeds ++ d :: more) q) : Linked d.after more q := by
  induction deeds generalizing p with
  | nil => exact linked.2
  | cons d rest ih => exact ih linked.2

/-! ### Histories -/

/-- Whether deeds lead from one pool to another, each doing what it should, if the first pool is
regular. -/
def Chronicle (p : Pool) (deeds : List Deed) (q : Pool) : Prop :=
  p.Regular → Linked p deeds q ∧ (∀ d ∈ deeds, d.Lawful) ∧ q.Regular

theorem Chronicle.nothing (p : Pool) : p.Chronicle [] p := fun regular => ⟨rfl, nofun, regular⟩

theorem Chronicle.append (first : p.Chronicle deeds q) (second : q.Chronicle more r) :
    p.Chronicle (deeds ++ more) r := by
  intro regular
  obtain ⟨linked, lawful, regular⟩ := first regular
  obtain ⟨later, lawful', regular⟩ := second regular
  exact ⟨linked.append later, List.forall_mem_append.mpr ⟨lawful, lawful'⟩, regular⟩

theorem Chronicle.single (lawful : p.Regular → d.Lawful ∧ d.after.Regular) (begun : d.before = p) :
    p.Chronicle [d] d.after := by
  intro regular
  obtain ⟨lawful, regular⟩ := lawful regular
  exact ⟨⟨begun, rfl⟩, List.forall_mem_singleton.mpr lawful, regular⟩

theorem chronicle_kill (p : Pool) (id : EntityId) :
    p.Chronicle [⟨.kill id, p, (p.kill id).value⟩] (p.kill id).value :=
  .single (fun regular => ⟨lawful_kill regular id, (kills_kill regular id).regular⟩) rfl

theorem chronicle_other (conforms : p.Regular → p.Conforms q) : p.Chronicle [⟨.other, p, q⟩] q :=
  .single (fun regular => ⟨(conforms regular).lawful, (conforms regular).regular⟩) rfl

def Operation.purpose : Operation → Purpose
  | .kill id => .kill id
  | _ => .other

theorem chronicle_apply (p : Pool) {op : Operation} (plain : op.IsPlain) :
    p.Chronicle [⟨op.purpose, p, p.apply op⟩] (p.apply op) := by
  cases op with
  | kill id => exact chronicle_kill p id
  | _ => exact chronicle_other fun regular => conforms_apply regular plain nofun

structure Tallies (p : Pool) (deeds : List Deed) (q : Pool) : Prop where
  linked : Linked p deeds q
  placed : ∀ d ∈ deeds, ∀ id, d.purpose = .place id →
    d.before.isOccupied id = false ∧ d.after.isOccupied id = true
  killed : ∀ d ∈ deeds, ∀ id, d.purpose = .kill id → d.after = (d.before.kill id).value
  /-- The count is raised by nothing but kills, -/
  raised : ∀ d ∈ deeds, d.after.killed = d.before.killed ∨
    (∃ id, d.purpose = .kill id) ∧ d.after.killed = d.before.killed + 1
  /-- once for whatever comes into play if it is a monster of a map and leaves by a kill, and
  otherwise never, -/
  once : ∀ front d back, deeds = front ++ d :: back → ∀ id, d.before.isOccupied id = false →
    d.after.isOccupied id = true →
    creditsOf id back = if d.monster? = some id ∧ endsKilled id back = true then 1 else 0
  /-- and it is the number of these monsters in the end. -/
  total : deeds.countP (·.victim?.isSome) < UInt32.size → q.killed.toNat = killedMonsters deeds

theorem Chronicle.tallies {config : PoolConfig} (chronicle : (Pool.new config).Chronicle deeds q) :
    (Pool.new config).Tallies deeds q := by
  obtain ⟨linked, lawful, -⟩ := chronicle (regular_new config)
  refine ⟨linked, fun d member => (lawful d member).placed,
    fun d member id kill => ((lawful d member).gone id kill).1, fun d member => ?raised, ?once,
    fun few => ?total⟩
  case raised =>
    rw [(lawful d member).killed]
    split
    · rename_i counts
      obtain ⟨id, aimed, -⟩ := Option.any_eq_true .. |>.mp counts
      exact .inr ⟨⟨id, Deed.purpose_of_victim? aimed⟩, rfl⟩
    · exact .inl (UInt32.add_zero _)
  case once =>
    rintro front d back rfl id vacant there
    obtain ⟨law, laws⟩ := List.forall_mem_cons.mp (List.forall_mem_append.mp lawful).2
    rw [creditsOf_eq linked.later laws there, law.credits, credits_of_unoccupied vacant]
    simp
  case total =>
    have counted := countP_credited_of_empty linked lawful (credits_new config)
    have fewer : killedMonsters deeds ≤ deeds.countP (·.victim?.isSome) := by
      rw [← counted]
      exact List.countP_mono_left fun d _ counts => Option.isSome_of_any counts
    rw [killed_of_linked linked lawful, counted, show (Pool.new config).killed = 0 from rfl,
      UInt32.zero_add, UInt32.toNat_ofNat_of_lt' (Nat.lt_of_le_of_lt fewer few)]

end EntityScripting.Pool
