import EntityScripting.Memory
import EntityScripting.Proofs.SortedMap
import Mathlib.Tactic

/-!
# The accounts of the memory

The totals are kept from the headers alone, which are written when a block is made and read when it
is given back. They are exact over any run of calls on live blocks (`Balanced`, `Reached.balanced`).
A resize is an allocation, a copy and a free, so nothing has to be proved twice for it. Blocks that
a call does not name keep their bytes, and a call that is refused changes nothing
(`allocator_accounts`).

The totals are numbers without bound. Each is at most the sum of all live sizes, so it fits a machine
word whenever that sum does.
-/

namespace EntityScripting.Memory

namespace Work

variable {α β : Type}

theorem outcome_bind (work : Work α) (next : α → Work β) (m : Memory) :
    (work >>= next).outcome m = match work.outcome m with
      | (.ok a, m) => (next a).outcome m
      | (.error refusal, m) => (.error refusal, m) := by
  simp only [outcome, ExceptT.run_bind, StateT.run_bind]
  obtain ⟨ends, m'⟩ := work.run.run m
  cases ends <;> rfl

theorem outcome_map (f : α → β) (work : Work α) (m : Memory) :
    (f <$> work).outcome m = match work.outcome m with
      | (.ok a, m) => (.ok (f a), m)
      | (.error refusal, m) => (.error refusal, m) := by
  rw [map_eq_pure_bind, outcome_bind]
  obtain ⟨ends, m'⟩ := work.outcome m
  cases ends <;> rfl

@[simp] theorem outcome_pure (a : α) (m : Memory) : (pure a : Work α).outcome m = (.ok a, m) := rfl

@[simp] theorem outcome_get (m : Memory) : (get : Work Memory).outcome m = (.ok m, m) := rfl

@[simp] theorem outcome_modify (f : Memory → Memory) (m : Memory) :
    (modify f : Work Unit).outcome m = (.ok (), f m) := rfl

@[simp] theorem outcome_liftM (x : Except OversizedRequest α) (m : Memory) :
    (liftM x : Work α).outcome m = (x, m) := rfl

end Work

theorem blockExtent_of_le {size : Nat} (fits : size + headerSize ≤ largestExtent) :
    blockExtent size = .ok (size + headerSize) := if_neg (by omega)

theorem blockExtent_of_lt {size : Nat} (large : largestExtent < size + headerSize) :
    blockExtent size = .error ⟨size⟩ := if_pos large

def allocated (m : Memory) (size : Nat) (tag : MemoryTag) : Memory :=
  let m := m.addBlock ⟨size, tag.toByte⟩
  let m := m.setBytesInUse (m.bytesInUse tag + size) tag
  m.setLiveBlocks (m.liveBlocks + 1)

def freed (m : Memory) (id : BlockId) (b : Block) : Memory :=
  let m := m.setBytesInUse (m.bytesInUse b.tag - b.size) b.tag
  let m := m.setLiveBlocks (m.liveBlocks - 1)
  m.dropBlock id

section Fields

variable (m : Memory) (size : Nat) (tag other : MemoryTag) (id : BlockId) (b : Block)

theorem bytesInUse_setBytesInUse (n : Nat) :
    (m.setBytesInUse n tag).bytesInUse other = if other = tag then n else m.bytesInUse other := by
  cases tag <;> cases other <;> rfl

theorem blocks_allocated : (m.allocated size tag).blocks =
    m.blocks.insert m.nextId ⟨⟨size, tag.toByte⟩, List.replicate size 0⟩ := by
  cases tag <;> rfl

theorem nextId_allocated : (m.allocated size tag).nextId = m.nextId + 1 := by
  cases tag <;> rfl

theorem liveBlocks_allocated : (m.allocated size tag).liveBlocks = m.liveBlocks + 1 := by
  cases tag <;> rfl

theorem bytesInUse_allocated : (m.allocated size tag).bytesInUse other =
    m.bytesInUse other + if other = tag then size else 0 := by
  cases tag <;> cases other <;> rfl

theorem blocks_freed : (m.freed id b).blocks = m.blocks.erase id := by
  show (m.setBytesInUse _ b.tag).blocks.erase id = _
  cases b.tag <;> rfl

theorem nextId_freed : (m.freed id b).nextId = m.nextId := by
  show (m.setBytesInUse _ b.tag).nextId = _
  cases b.tag <;> rfl

theorem liveBlocks_freed : (m.freed id b).liveBlocks = m.liveBlocks - 1 := by
  show (m.setBytesInUse _ b.tag).liveBlocks - 1 = _
  cases b.tag <;> rfl

theorem bytesInUse_freed : (m.freed id b).bytesInUse other =
    m.bytesInUse other - if other = b.tag then b.size else 0 := by
  show (m.setBytesInUse _ b.tag).bytesInUse other = _
  rw [bytesInUse_setBytesInUse]
  by_cases same : other = b.tag
  · rw [if_pos same, if_pos same, same]
  · rw [if_neg same, if_neg same, Nat.sub_zero]

end Fields

theorem outcome_allocating_of_fits {m : Memory} {size : Nat} (tag : MemoryTag)
    (fits : size + headerSize ≤ largestExtent) :
    (allocating size tag).outcome m = (.ok m.nextId, m.allocated size tag) := by
  simp [allocating, Work.outcome_bind, Work.outcome_map, blockExtent_of_le fits, allocated]

theorem outcome_allocating_of_large {m : Memory} {size : Nat} (tag : MemoryTag)
    (large : largestExtent < size + headerSize) :
    (allocating size tag).outcome m = (.error ⟨size⟩, m) := by
  simp [allocating, Work.outcome_bind, blockExtent_of_lt large]

theorem outcome_freeing {m : Memory} {id : BlockId} {b : Block} (held : m.blocks.get? id = some b)
    (fits : b.size + headerSize ≤ largestExtent) :
    (freeing id).outcome m = (.ok (), m.freed id b) := by
  simp [freeing, Work.outcome_bind, held, blockExtent_of_le fits, freed]

theorem write_of_held {m : Memory} {id : BlockId} {b : Block} (held : m.blocks.get? id = some b)
    (bytes : List UInt8) :
    ∃ bytes', bytes' = bytes.take b.size ++ b.bytes.drop (bytes.take b.size).length ∧
      m.write id bytes = { m with blocks := m.blocks.insert id { b with bytes := bytes' } } := by
  refine ⟨_, rfl, ?_⟩
  rw [write, held]

/-! ### The balance -/

def live (m : Memory) (tag : MemoryTag) : List Block :=
  (m.blocks.entries.map (·.2)).filter (·.tag = tag)

structure WellMade (b : Block) : Prop where
  filled : b.bytes.length = b.size
  fits : b.size + headerSize ≤ largestExtent

structure Balanced (m : Memory) : Prop where
  sorted : m.blocks.Sorted
  issued : ∀ id b, m.blocks.get? id = some b → id < m.nextId
  made : ∀ id b, m.blocks.get? id = some b → WellMade b
  counted : m.liveBlocks = m.blocks.size
  summed : ∀ tag, m.bytesInUse tag = ((m.live tag).map Block.size).sum

/-- The sizes with a tag, put together from one block and the others. -/
theorem sum_live_of_perm {m : Memory} {id : BlockId} {b : Block} {rest : List (BlockId × Block)}
    (perm : m.blocks.entries.Perm ((id, b) :: rest)) (tag : MemoryTag) :
    ((m.live tag).map Block.size).sum =
      (if tag = b.tag then b.size else 0) +
        (((rest.map (·.2)).filter (·.tag = tag)).map Block.size).sum := by
  have same := (((perm.map (·.2)).filter (·.tag = tag)).map Block.size).sum_eq
  rw [live, same, List.map_cons, List.filter_cons]
  by_cases tagged : b.tag = tag
  · simp [tagged]
  · simp [tagged, Ne.symm tagged]

theorem Balanced.unused {m : Memory} (balanced : m.Balanced) : m.blocks.get? m.nextId = none := by
  cases held : m.blocks.get? m.nextId with
  | none => rfl
  | some b => exact absurd (balanced.issued _ b held) (lt_irrefl _)

theorem balanced_empty : Balanced {} := by
  refine ⟨SortedMap.sorted_empty, by simp, by simp, rfl, ?_⟩
  intro tag
  cases tag <;> rfl

theorem Balanced.allocated {m : Memory} (balanced : m.Balanced) {size : Nat} (tag : MemoryTag)
    (fits : size + headerSize ≤ largestExtent) : (m.allocated size tag).Balanced := by
  have perm := balanced.sorted.perm_insert m.nextId ⟨⟨size, tag.toByte⟩, List.replicate size 0⟩
  rw [SortedMap.erase_of_get?_eq_none balanced.unused, ← blocks_allocated] at perm
  constructor
  case sorted =>
    rw [blocks_allocated]
    exact balanced.sorted.insert _ _
  case issued =>
    intro id b held
    rw [blocks_allocated, SortedMap.get?_insert] at held
    rw [nextId_allocated]
    by_cases new : id = m.nextId
    · exact new ▸ Nat.lt_succ_self m.nextId
    · rw [if_neg new] at held
      exact Nat.lt_succ_of_lt (balanced.issued id b held)
  case made =>
    intro id b held
    rw [blocks_allocated, SortedMap.get?_insert] at held
    by_cases new : id = m.nextId
    · rw [if_pos new] at held
      obtain rfl := Option.some.inj held
      exact ⟨List.length_replicate, fits⟩
    · rw [if_neg new] at held
      exact balanced.made id b held
  case counted =>
    rw [liveBlocks_allocated, balanced.counted, SortedMap.size, SortedMap.size, perm.length_eq,
      List.length_cons]
  case summed =>
    intro other
    rw [bytesInUse_allocated, balanced.summed, sum_live_of_perm perm, Block.tag,
      MemoryTag.ofByte_toByte]
    exact Nat.add_comm _ _

theorem Balanced.freed {m : Memory} (balanced : m.Balanced) {id : BlockId} {b : Block}
    (held : m.blocks.get? id = some b) : (m.freed id b).Balanced := by
  have perm := balanced.sorted.perm_erase held
  rw [← blocks_freed m id b] at perm
  constructor
  case sorted =>
    rw [blocks_freed]
    exact balanced.sorted.erase id
  case issued =>
    intro other b' held'
    rw [blocks_freed, SortedMap.get?_erase] at held'
    rw [nextId_freed]
    split_ifs at held'
    exact balanced.issued other b' held'
  case made =>
    intro other b' held'
    rw [blocks_freed, SortedMap.get?_erase] at held'
    split_ifs at held'
    exact balanced.made other b' held'
  case counted =>
    have length := perm.length_eq
    rw [List.length_cons] at length
    rw [liveBlocks_freed, balanced.counted, SortedMap.size, SortedMap.size]
    omega
  case summed =>
    intro tag
    rw [bytesInUse_freed, balanced.summed, sum_live_of_perm perm, live]
    omega

theorem Balanced.write {m : Memory} (balanced : m.Balanced) {id : BlockId} {b : Block}
    (held : m.blocks.get? id = some b) (bytes : List UInt8) : (m.write id bytes).Balanced := by
  have filled := (balanced.made id b held).filled
  obtain ⟨bytes', spelled, same⟩ := write_of_held held bytes
  have length : bytes'.length = b.size := by
    rw [spelled, List.length_append, List.length_drop, List.length_take]
    omega
  have before := balanced.sorted.perm_erase held
  have perm := balanced.sorted.perm_insert id { b with bytes := bytes' }
  rw [same]
  constructor
  case sorted => exact balanced.sorted.insert _ _
  case issued =>
    intro other b' held'
    rw [SortedMap.get?_insert] at held'
    by_cases written : other = id
    · exact written ▸ balanced.issued id b held
    · rw [if_neg written] at held'
      exact balanced.issued other b' held'
  case made =>
    intro other b' held'
    rw [SortedMap.get?_insert] at held'
    by_cases written : other = id
    · rw [if_pos written] at held'
      obtain rfl := Option.some.inj held'
      exact ⟨length, (balanced.made id b held).fits⟩
    · rw [if_neg written] at held'
      exact balanced.made other b' held'
  case counted =>
    show m.liveBlocks = _
    rw [balanced.counted, SortedMap.size, SortedMap.size, perm.length_eq, before.length_eq,
      List.length_cons, List.length_cons]
  case summed =>
    intro tag
    show m.bytesInUse tag = _
    rw [balanced.summed, sum_live_of_perm before, sum_live_of_perm perm]
    rfl

/-- No total is less than what a block takes off it. -/
theorem Balanced.exact {m : Memory} (balanced : m.Balanced) {id : BlockId} {b : Block}
    (held : m.blocks.get? id = some b) : b.size ≤ m.bytesInUse b.tag ∧ 0 < m.liveBlocks := by
  have perm := balanced.sorted.perm_erase held
  constructor
  · rw [balanced.summed, sum_live_of_perm perm, if_pos rfl]
    exact Nat.le_add_right _ _
  · rw [balanced.counted, SortedMap.size, perm.length_eq, List.length_cons]
    exact Nat.succ_pos _

theorem Balanced.total {m : Memory} (balanced : m.Balanced) :
    m.bytesInUse .game + m.bytesInUse .level = (m.blocks.entries.map (·.2.size)).sum := by
  rw [balanced.summed, balanced.summed, live, live]
  induction m.blocks.entries with
  | nil => rfl
  | cons entry rest ih =>
    rw [List.map_cons, List.map_cons, List.sum_cons, ← ih, List.filter_cons, List.filter_cons]
    cases tagged : entry.2.tag <;> simp <;> omega

/-! ### Runs of calls -/

inductive Call where
  | allocate (size : Nat) (tag : MemoryTag)
  | free (id : BlockId)
  | reallocate (id : Option BlockId) (oldSize newSize : Nat)
  | write (id : BlockId) (bytes : List UInt8)
deriving DecidableEq, Repr

def Call.work : Call → Work (Option BlockId)
  | .allocate size tag => do return some (← allocating size tag)
  | .free id => do freeing id; return none
  | .reallocate id oldSize newSize => reallocating id oldSize newSize
  | .write id bytes => do modify (·.write id bytes); return none

def Call.Proper (m : Memory) : Call → Prop
  | .allocate _ _ => True
  | .free id => (m.blocks.get? id).isSome
  | .reallocate none _ _ => True
  | .reallocate (some id) oldSize _ => ∃ b, m.blocks.get? id = some b ∧ b.size = oldSize
  | .write id _ => (m.blocks.get? id).isSome

/-- The memories that calls on live blocks lead to, those that are refused included. -/
inductive Reached : Memory → Prop
  | start : Reached {}
  | call {m : Memory} (reached : Reached m) (call : Call) (proper : call.Proper m) :
    Reached (call.work.outcome m).2

theorem outcome_allocate {m : Memory} {size : Nat} {tag : MemoryTag}
    (fits : size + headerSize ≤ largestExtent) :
    (Call.allocate size tag).work.outcome m = (.ok (some m.nextId), m.allocated size tag) := by
  simp [Call.work, Work.outcome_map, outcome_allocating_of_fits tag fits]

theorem outcome_allocate_of_large {m : Memory} {size : Nat} {tag : MemoryTag}
    (large : largestExtent < size + headerSize) :
    (Call.allocate size tag).work.outcome m = (.error ⟨size⟩, m) := by
  simp [Call.work, Work.outcome_map, outcome_allocating_of_large tag large]

theorem outcome_free {m : Memory} {id : BlockId} {b : Block} (held : m.blocks.get? id = some b)
    (fits : b.size + headerSize ≤ largestExtent) :
    (Call.free id).work.outcome m = (.ok none, m.freed id b) := by
  simp [Call.work, Work.outcome_map, outcome_freeing held fits]

theorem outcome_write (m : Memory) (id : BlockId) (bytes : List UInt8) :
    (Call.write id bytes).work.outcome m = (.ok none, m.write id bytes) := rfl

theorem outcome_reallocate_zero (m : Memory) (oldSize : Nat) :
    (Call.reallocate none oldSize 0).work.outcome m = (.ok none, m) := rfl

theorem outcome_reallocate_free (m : Memory) (id : BlockId) (oldSize : Nat) :
    (Call.reallocate (some id) oldSize 0).work.outcome m = (Call.free id).work.outcome m := rfl

theorem outcome_reallocate_allocate (m : Memory) (oldSize : Nat) {newSize : Nat}
    (some_bytes : newSize ≠ 0) :
    (Call.reallocate none oldSize newSize).work.outcome m =
      (Call.allocate newSize .game).work.outcome m := by
  simp [Call.work, reallocating, some_bytes]

theorem outcome_reallocate_of_large {m : Memory} (id : BlockId) (oldSize : Nat) {newSize : Nat}
    (large : largestExtent < newSize + headerSize) :
    (Call.reallocate (some id) oldSize newSize).work.outcome m = (.error ⟨newSize⟩, m) := by
  have some_bytes : newSize ≠ 0 := by
    rintro rfl
    exact absurd large (by decide)
  simp [Call.work, reallocating, resizing, some_bytes, Work.outcome_bind,
    outcome_allocating_of_large _ large]

def copied (m : Memory) (b : Block) (oldSize newSize : Nat) : Memory :=
  (m.allocated newSize .game).write m.nextId (b.bytes.take (min oldSize newSize))

theorem Balanced.get?_allocated {m : Memory} (balanced : m.Balanced) {id : BlockId} {b : Block}
    (held : m.blocks.get? id = some b) (size : Nat) (tag : MemoryTag) :
    (m.allocated size tag).blocks.get? id = some b := by
  rw [blocks_allocated, SortedMap.get?_insert, if_neg (balanced.issued id b held).ne, held]

theorem get?_allocated_self (m : Memory) (size : Nat) (tag : MemoryTag) :
    (m.allocated size tag).blocks.get? m.nextId =
      some ⟨⟨size, tag.toByte⟩, List.replicate size 0⟩ := by
  rw [blocks_allocated, SortedMap.get?_insert, if_pos rfl]

/-- The blocks within a resize: those of before, and a new one with the bytes to keep. -/
theorem Balanced.get?_copied {m : Memory} (balanced : m.Balanced) {id : BlockId} {b : Block}
    (held : m.blocks.get? id = some b) (newSize : Nat) (other : BlockId) :
    ∃ fresh : Block, fresh.tag = .game ∧ fresh.size = newSize ∧
      fresh.bytes.take (min b.size newSize) = b.bytes.take (min b.size newSize) ∧
      (m.copied b b.size newSize).blocks.get? other =
        if other = m.nextId then some fresh else m.blocks.get? other := by
  have filled := (balanced.made id b held).filled
  obtain ⟨bytes, spelled, same⟩ := write_of_held (get?_allocated_self m newSize .game)
    (b.bytes.take (min b.size newSize))
  refine ⟨⟨⟨newSize, MemoryTag.toByte .game⟩, bytes⟩, rfl, rfl, ?_, ?_⟩
  · have whole : (b.bytes.take (min b.size newSize)).length = min b.size newSize := by
      rw [List.length_take]
      omega
    have kept : (b.bytes.take (min b.size newSize)).take newSize =
        b.bytes.take (min b.size newSize) := List.take_of_length_le (by omega)
    show bytes.take _ = _
    rw [spelled]
    show ((b.bytes.take (min b.size newSize)).take newSize ++ _).take _ = _
    rw [kept]
    exact List.take_left' whole
  · rw [copied, same]
    show ((m.allocated newSize .game).blocks.insert m.nextId _).get? other = _
    rw [SortedMap.get?_insert, blocks_allocated, SortedMap.get?_insert]
    by_cases new : other = m.nextId
    · rw [if_pos new, if_pos new]
    · rw [if_neg new, if_neg new, if_neg new]

theorem Balanced.held_copied {m : Memory} (balanced : m.Balanced) {id : BlockId} {b : Block}
    (held : m.blocks.get? id = some b) (newSize : Nat) :
    (m.copied b b.size newSize).blocks.get? id = some b := by
  obtain ⟨fresh, -, -, -, there⟩ := balanced.get?_copied held newSize id
  rw [there, if_neg (balanced.issued id b held).ne, held]

theorem outcome_reallocate_resize {m : Memory} (balanced : m.Balanced) {id : BlockId} {b : Block}
    (held : m.blocks.get? id = some b) {newSize : Nat} (some_bytes : newSize ≠ 0)
    (fits : newSize + headerSize ≤ largestExtent) :
    (Call.reallocate (some id) b.size newSize).work.outcome m =
      (.ok (some m.nextId), (m.copied b b.size newSize).freed id b) := by
  have bytes : (m.allocated newSize .game).bytes? id = some b.bytes := by
    rw [bytes?, balanced.get?_allocated held, Option.map_some]
  have frees := outcome_freeing (balanced.held_copied held newSize) (balanced.made id b held).fits
  rw [copied] at frees
  simp [Call.work, reallocating, resizing, some_bytes, Work.outcome_bind, Work.outcome_map,
    outcome_allocating_of_fits _ fits, bytes, frees, copied]

theorem Reached.copied {m : Memory} (reached : m.Reached) (b : Block) (oldSize : Nat) {newSize : Nat}
    (fits : newSize + headerSize ≤ largestExtent) : (m.copied b oldSize newSize).Reached := by
  have first : (m.allocated newSize .game).Reached := by
    have := reached.call (.allocate newSize .game) trivial
    rwa [outcome_allocate fits] at this
  have second := first.call (.write m.nextId (b.bytes.take (min oldSize newSize)))
    (by rw [Call.Proper, get?_allocated_self]; rfl)
  rwa [outcome_write] at second

theorem Balanced.copied {m : Memory} (balanced : m.Balanced) (b : Block) (oldSize : Nat)
    {newSize : Nat} (fits : newSize + headerSize ≤ largestExtent) :
    (m.copied b oldSize newSize).Balanced :=
  (balanced.allocated .game fits).write (get?_allocated_self m newSize .game) _

theorem Balanced.call {m : Memory} (balanced : m.Balanced) {call : Call} (proper : call.Proper m) :
    (call.work.outcome m).2.Balanced := by
  have allocates (size : Nat) (tag : MemoryTag) :
      ((Call.allocate size tag).work.outcome m).2.Balanced := by
    by_cases large : largestExtent < size + headerSize
    · rw [outcome_allocate_of_large large]
      exact balanced
    · rw [outcome_allocate (by omega)]
      exact balanced.allocated tag (by omega)
  have frees (id : BlockId) (b : Block) (held : m.blocks.get? id = some b) :
      ((Call.free id).work.outcome m).2.Balanced := by
    rw [outcome_free held (balanced.made id b held).fits]
    exact balanced.freed held
  cases call with
  | allocate size tag => exact allocates size tag
  | free id =>
    obtain ⟨b, held⟩ := Option.isSome_iff_exists.mp proper
    exact frees id b held
  | write id bytes =>
    obtain ⟨b, held⟩ := Option.isSome_iff_exists.mp proper
    exact balanced.write held bytes
  | reallocate id oldSize newSize =>
    by_cases zero : newSize = 0
    · subst zero
      cases id with
      | none => exact balanced
      | some id =>
        obtain ⟨b, held, -⟩ := proper
        exact frees id b held
    · cases id with
      | none =>
        rw [outcome_reallocate_allocate m oldSize zero]
        exact allocates newSize .game
      | some id =>
        obtain ⟨b, held, rfl⟩ := proper
        by_cases large : largestExtent < newSize + headerSize
        · rw [outcome_reallocate_of_large id b.size large]
          exact balanced
        · rw [outcome_reallocate_resize balanced held zero (by omega)]
          exact (balanced.copied b b.size (by omega)).freed (balanced.held_copied held newSize)

theorem Reached.balanced {m : Memory} (reached : m.Reached) : m.Balanced := by
  induction reached with
  | start => exact balanced_empty
  | call reached call proper ih => exact ih.call proper

/-! ### What each call does -/

structure Makes (m : Memory) (size : Nat) (tag : MemoryTag) (id : BlockId) (m' : Memory) : Prop where
  unused : m.blocks.get? id = none
  block : ∃ b, m'.blocks.get? id = some b ∧ b.tag = tag ∧ b.size = size
  others : ∀ other ≠ id, m'.blocks.get? other = m.blocks.get? other

/-- A block less, and nothing else. The totals are no less than what is taken off them. -/
structure Frees (m : Memory) (id : BlockId) (m' : Memory) : Prop where
  exact : ∃ b, m.blocks.get? id = some b ∧
    m'.bytesInUse b.tag + b.size = m.bytesInUse b.tag ∧ m'.liveBlocks + 1 = m.liveBlocks
  gone : m'.blocks.get? id = none
  others : ∀ other ≠ id, m'.blocks.get? other = m.blocks.get? other

/-- A new block with the bytes of an old one, as far as both reach, in place of that. The old one is
freed in a memory that calls on live blocks lead to. -/
structure Resizes (m : Memory) (id : BlockId) (newSize : Nat) (fresh : BlockId) (m' : Memory) :
    Prop where
  unused : m.blocks.get? fresh = none
  block : ∃ old new, m.blocks.get? id = some old ∧ m'.blocks.get? fresh = some new ∧
    new.tag = .game ∧ new.size = newSize ∧
    new.bytes.take (min old.size newSize) = old.bytes.take (min old.size newSize)
  within : ∃ between, between.Reached ∧ Frees between id m'
  others : ∀ other, other ≠ id → other ≠ fresh → m'.blocks.get? other = m.blocks.get? other

def Meets (m : Memory) : Call → Except OversizedRequest (Option BlockId) × Memory → Prop
  | .allocate size tag, out =>
    if largestExtent < size + headerSize then out = (.error ⟨size⟩, m)
    else ∃ fresh m', out = (.ok (some fresh), m') ∧ Makes m size tag fresh m'
  | .free id, out => ∃ m', out = (.ok none, m') ∧ Frees m id m'
  | .reallocate none _ newSize, out =>
    if newSize = 0 then out = (.ok none, m)
    else if largestExtent < newSize + headerSize then out = (.error ⟨newSize⟩, m)
    else ∃ fresh m', out = (.ok (some fresh), m') ∧ Makes m newSize .game fresh m'
  | .reallocate (some id) _ newSize, out =>
    if newSize = 0 then ∃ m', out = (.ok none, m') ∧ Frees m id m'
    else if largestExtent < newSize + headerSize then out = (.error ⟨newSize⟩, m)
    else ∃ fresh m', out = (.ok (some fresh), m') ∧ Resizes m id newSize fresh m'
  | .write id bytes, out => out = (.ok none, m.write id bytes) ∧
    ∀ other ≠ id, (m.write id bytes).blocks.get? other = m.blocks.get? other

theorem Balanced.makes {m : Memory} (balanced : m.Balanced) (size : Nat) (tag : MemoryTag) :
    Makes m size tag m.nextId (m.allocated size tag) := by
  refine ⟨balanced.unused, ⟨_, get?_allocated_self m size tag, ?_, rfl⟩, ?_⟩
  · exact MemoryTag.ofByte_toByte tag
  · intro other different
    rw [blocks_allocated, SortedMap.get?_insert, if_neg different]

theorem Balanced.frees {m : Memory} (balanced : m.Balanced) {id : BlockId} {b : Block}
    (held : m.blocks.get? id = some b) : Frees m id (m.freed id b) := by
  obtain ⟨bytes, blocks⟩ := balanced.exact held
  refine ⟨⟨b, held, ?_, ?_⟩, ?_, ?_⟩
  · rw [bytesInUse_freed, if_pos rfl]
    omega
  · rw [liveBlocks_freed]
    omega
  · rw [blocks_freed, SortedMap.get?_erase, if_pos rfl]
  · intro other different
    rw [blocks_freed, SortedMap.get?_erase, if_neg different]

theorem Reached.resizes {m : Memory} (reached : m.Reached) {id : BlockId} {b : Block}
    (held : m.blocks.get? id = some b) {newSize : Nat}
    (fits : newSize + headerSize ≤ largestExtent) :
    Resizes m id newSize m.nextId ((m.copied b b.size newSize).freed id b) := by
  have balanced := reached.balanced
  have frees := (balanced.copied b b.size fits).frees (balanced.held_copied held newSize)
  refine ⟨balanced.unused, ?_, ⟨_, reached.copied b b.size fits, frees⟩, ?_⟩
  · obtain ⟨fresh, tagged, sized, kept, there⟩ :=
      balanced.get?_copied held newSize m.nextId
    refine ⟨b, fresh, held, ?_, tagged, sized, kept⟩
    rw [frees.others m.nextId (balanced.issued id b held).ne', there, if_pos rfl]
  · intro other notOld notNew
    obtain ⟨_, -, -, -, there⟩ := balanced.get?_copied held newSize other
    rw [frees.others other notOld, there, if_neg notNew]

theorem Reached.meets {m : Memory} (reached : m.Reached) {call : Call} (proper : call.Proper m) :
    Meets m call (call.work.outcome m) := by
  have balanced := reached.balanced
  have allocates {size : Nat} (tag : MemoryTag) (fits : ¬ largestExtent < size + headerSize) :
      ∃ fresh m', (Call.allocate size tag).work.outcome m = (.ok (some fresh), m') ∧
        Makes m size tag fresh m' :=
    ⟨_, _, outcome_allocate (by omega), balanced.makes size tag⟩
  have frees {id : BlockId} {b : Block} (held : m.blocks.get? id = some b) :
      ∃ m', (Call.free id).work.outcome m = (.ok none, m') ∧ Frees m id m' :=
    ⟨_, outcome_free held (balanced.made id b held).fits, balanced.frees held⟩
  cases call with
  | allocate size tag =>
    simp only [Meets]
    split_ifs with large
    · exact outcome_allocate_of_large large
    · exact allocates tag large
  | free id =>
    obtain ⟨b, held⟩ := Option.isSome_iff_exists.mp proper
    exact frees held
  | write id bytes =>
    obtain ⟨b, held⟩ := Option.isSome_iff_exists.mp proper
    obtain ⟨bytes', -, same⟩ := write_of_held held bytes
    refine ⟨outcome_write m id bytes, ?_⟩
    intro other different
    rw [same, SortedMap.get?_insert, if_neg different]
  | reallocate id oldSize newSize =>
    cases id with
    | none =>
      simp only [Meets]
      split_ifs with zero large
      · rw [zero, outcome_reallocate_zero]
      · rw [outcome_reallocate_allocate m oldSize zero]
        exact outcome_allocate_of_large large
      · rw [outcome_reallocate_allocate m oldSize zero]
        exact allocates .game large
    | some id =>
      obtain ⟨b, held, rfl⟩ := proper
      simp only [Meets]
      split_ifs with zero large
      · rw [zero, outcome_reallocate_free]
        exact frees held
      · exact outcome_reallocate_of_large id b.size large
      · exact ⟨_, _, outcome_reallocate_resize balanced held zero (by omega),
          reached.resizes held (by omega)⟩

/-- After any calls on live blocks, the blocks have numbers of their own, their count and their sizes
by tag are the totals, and every further call does what it is for and leaves the other blocks alone.
One for too many bytes is refused with the memory as it was. -/
theorem allocator_accounts {m : Memory} (reached : m.Reached) :
    m.blocks.keys.Nodup ∧
    m.liveBlocks = m.blocks.size ∧
    (∀ tag, m.bytesInUse tag = ((m.live tag).map Block.size).sum) ∧
    m.bytesInUse .game + m.bytesInUse .level = (m.blocks.entries.map (·.2.size)).sum ∧
    (∀ id b, m.blocks.get? id = some b →
      b.size ≤ m.bytesInUse b.tag ∧ 0 < m.liveBlocks ∧ b.bytes.length = b.size) ∧
    ∀ call : Call, call.Proper m → Meets m call (call.work.outcome m) := by
  have balanced := reached.balanced
  refine ⟨balanced.sorted.nodup_keys, balanced.counted, balanced.summed, balanced.total, ?_, ?_⟩
  · intro id b held
    obtain ⟨bytes, blocks⟩ := balanced.exact held
    exact ⟨bytes, blocks, (balanced.made id b held).filled⟩
  · intro call proper
    exact reached.meets proper

/-- A block of the level that is resized becomes one of the game, and its bytes are kept. -/
theorem allocator_accounts_level :
    let m := ((Call.write 0 [1, 2, 3, 4]).work.outcome
      ((Call.allocate 4 .level).work.outcome {}).2).2
    let m' := ((Call.reallocate (some 0) 4 6).work.outcome m).2
    m.Reached ∧ m.levelBytes = 4 ∧
      Meets m (.reallocate (some 0) 4 6) ((Call.reallocate (some 0) 4 6).work.outcome m) ∧
      m'.levelBytes = 0 ∧ m'.gameBytes = 6 ∧
      (m'.bytes? 1).map (·.take 4) = some [1, 2, 3, 4] := by
  have first : ((Call.allocate 4 .level).work.outcome {}).2.Reached :=
    Reached.start.call (.allocate 4 .level) trivial
  have reached := first.call (.write 0 [1, 2, 3, 4]) rfl
  have meets := (allocator_accounts reached).2.2.2.2.2 (.reallocate (some 0) 4 6) ⟨_, rfl, rfl⟩
  exact ⟨reached, rfl, meets, rfl, rfl, rfl⟩

end EntityScripting.Memory
