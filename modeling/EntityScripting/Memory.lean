import EntityScripting.SortedMap

/-!
# Tagged memory

Blocks of bytes with a tag that says how long they live, and running totals by tag. The host can
only allocate and free; `reallocating` offers the one entry point that an embedded runtime wants on
top of that, with all its memory tagged `game`.
-/

namespace EntityScripting

/-- How long a block lives: until the engine is shut down, or until the level is unloaded. -/
inductive MemoryTag where
  | game
  | level
deriving DecidableEq, Repr, Inhabited

namespace MemoryTag

def toByte : MemoryTag → UInt8
  | game => 0
  | level => 1

def ofByte (b : UInt8) : MemoryTag := if b = 0 then game else level

@[simp] theorem ofByte_toByte (tag : MemoryTag) : ofByte tag.toByte = tag := by cases tag <;> rfl

end MemoryTag

/-- The number of a block. -/
abbrev BlockId := Nat

/-- What is written in front of a block when it is made. -/
structure Header where
  size : Nat
  tag : UInt8
deriving DecidableEq, Repr, Inhabited

structure Block where
  header : Header
  bytes : List UInt8
deriving DecidableEq, Repr, Inhabited

namespace Block

def size (b : Block) : Nat := b.header.size

def tag (b : Block) : MemoryTag := .ofByte b.header.tag

end Block

structure Memory where
  blocks : SortedMap BlockId Block := {}
  nextId : BlockId := 0
  liveBlocks : Nat := 0
  gameBytes : Nat := 0
  levelBytes : Nat := 0
deriving DecidableEq, Repr, Inhabited

/-- A request for more bytes than a block can have. -/
structure OversizedRequest where
  size : Nat
deriving DecidableEq, Repr, Inhabited

def OversizedRequest.message (e : OversizedRequest) : String :=
  s!"script allocation of {e.size} bytes overflows"

namespace Memory

/-- The bytes in front of a block. -/
def headerSize : Nat := 16

/-- The most bytes that a block and its header can have, a multiple of sixteen below `2 ^ 63`. -/
def largestExtent : Nat := 0x7FFFFFFFFFFFFFF0

/-- The bytes of a block and its header. -/
def blockExtent (size : Nat) : Except OversizedRequest Nat :=
  if largestExtent < size + headerSize then .error ⟨size⟩ else .ok (size + headerSize)

/-! ### Single blocks -/

def bytesInUse (m : Memory) : MemoryTag → Nat
  | .game => m.gameBytes
  | .level => m.levelBytes

def setBytesInUse (m : Memory) (n : Nat) : MemoryTag → Memory
  | .game => { m with gameBytes := n }
  | .level => { m with levelBytes := n }

def setLiveBlocks (m : Memory) (n : Nat) : Memory := { m with liveBlocks := n }

/-- A block that no block has been before, with a header and nothing but zeros. -/
def addBlock (m : Memory) (header : Header) : Memory :=
  { m with
    blocks := m.blocks.insert m.nextId ⟨header, List.replicate header.size 0⟩
    nextId := m.nextId + 1 }

def dropBlock (m : Memory) (id : BlockId) : Memory := { m with blocks := m.blocks.erase id }

/-- The memory with bytes written over the beginning of a block, as many as it has room for. -/
def write (m : Memory) (id : BlockId) (bytes : List UInt8) : Memory :=
  match m.blocks.get? id with
  | none => m
  | some b =>
    let written := bytes.take b.size
    let bytes := written ++ b.bytes.drop written.length
    { m with blocks := m.blocks.insert id { b with bytes } }

def bytes? (m : Memory) (id : BlockId) : Option (List UInt8) := (m.blocks.get? id).map (·.bytes)

/-! ### The host and the bridge to it -/

/-- Work on the memory. One that is refused leaves what it has done so far. -/
abbrev Work := ExceptT OversizedRequest (StateM Memory)

/-- How some work ends, and the memory it leaves. -/
def Work.outcome {α : Type} (work : Work α) (m : Memory) : Except OversizedRequest α × Memory :=
  work.run.run m

/-- The result of some work with the memory it leaves, if nothing is refused. -/
def Work.result {α : Type} (work : Work α) (m : Memory) : Except OversizedRequest (α × Memory) :=
  match work.outcome m with
  | (.ok result, m) => .ok (result, m)
  | (.error refusal, _) => .error refusal

/-- Makes a new block, unless it is too large. -/
def allocating (size : Nat) (tag : MemoryTag) : Work BlockId := do
  let _ ← blockExtent size
  let fresh := (← get).nextId
  modify (·.addBlock ⟨size, tag.toByte⟩)
  modify fun m => m.setBytesInUse (m.bytesInUse tag + size) tag
  modify fun m => m.setLiveBlocks (m.liveBlocks + 1)
  return fresh

/-- Gives a block back; its header says what to take off the totals. -/
def freeing (id : BlockId) : Work Unit := do
  if let some b := (← get).blocks.get? id then
    modify fun m => m.setBytesInUse (m.bytesInUse b.tag - b.size) b.tag
    modify fun m => m.setLiveBlocks (m.liveBlocks - 1)
    let _ ← blockExtent b.size
    modify (·.dropBlock id)

/-- A block of another size with the bytes of the old one, as far as both reach. -/
def resizing (id : BlockId) (oldSize newSize : Nat) : Work BlockId := do
  let fresh ← allocating newSize .game
  let kept := (((← get).bytes? id).getD []).take (min oldSize newSize)
  modify (·.write fresh kept)
  freeing id
  return fresh

/-- Frees a block for size zero, allocates without a block, and resizes otherwise. -/
def reallocating (id : Option BlockId) (oldSize newSize : Nat) : Work (Option BlockId) := do
  if newSize = 0 then
    if let some id := id then freeing id
    return none
  match id with
  | none => return some (← allocating newSize .game)
  | some id => return some (← resizing id oldSize newSize)

def allocate (m : Memory) (size : Nat) (tag : MemoryTag) :
    Except OversizedRequest (BlockId × Memory) :=
  (allocating size tag).result m

def free (m : Memory) (id : BlockId) : Memory := ((freeing id).outcome m).2

def reallocate (m : Memory) (id : Option BlockId) (oldSize newSize : Nat) :
    Except OversizedRequest (Option BlockId × Memory) :=
  (reallocating id oldSize newSize).result m

end Memory

end EntityScripting
