import BlockPool.Buffer.Error
import BlockPool.Chunk.Block
import BlockPool.Memory.Contents

/-!
# BlockPool — buffers

A `Buffer` is a counted reference to a block: the first `capacity` bytes of it. The block is given
back when the count falls to zero, and a buffer without a block is released.

The bytes of all blocks are in a `Heap`, so an operation on one buffer can be seen not to reach
another.
-/

namespace BlockPool

/-- The bytes of every region of an allocator, by arena and region. -/
structure Heap where
  contents : Nat → Nat → Contents

namespace Heap

/-- All memory is fresh. -/
def zeroed : Heap := ⟨fun _ _ => Contents.zeroed⟩

instance : Inhabited Heap := ⟨zeroed⟩

/-- Changes the contents of one region. -/
def modify (h : Heap) (arena region : Nat) (f : Contents → Contents) : Heap where
  contents i r :=
    if i = arena ∧ r = region then f (h.contents i r) else h.contents i r

@[simp] theorem contents_modify_self (h : Heap) (arena region : Nat) (f : Contents → Contents) :
    (h.modify arena region f).contents arena region = f (h.contents arena region) := by
  simp [modify]

theorem contents_modify_of_ne (h : Heap) {arena region i r : Nat} (f : Contents → Contents)
    (hNe : ¬ (i = arena ∧ r = region)) :
    (h.modify arena region f).contents i r = h.contents i r := by
  simp [modify, hNe]

end Heap

/-- A counted reference to a block. -/
structure Buffer where
  /-- The allocator the block came from. -/
  owner : Nat
  /-- The arena of that allocator the block came from. -/
  arena : Nat
  /-- The block, until it is released. -/
  block : Option Block
  capacity : Nat
  maxCapacity : Nat
  refCount : Nat
deriving DecidableEq, Repr

namespace Buffer

/-- The size of the block; the capacity may grow into it. -/
def maxLength (b : Buffer) : Nat :=
  match b.block with
  | some block => block.capacity
  | none => 0

/-- Whether the block is gone. -/
def isReleased (b : Buffer) : Bool := b.block.isNone

/-- Whether the block was carved from a chunk. -/
def isPooled (b : Buffer) : Bool :=
  match b.block with
  | some block => block.isPooled
  | none => false

/-- One more reference. The count is a word, and a released buffer gets none. -/
def retain (b : Buffer) : Except BufferError Buffer :=
  if b.refCount = 0 then .error (.illegalRefCount 0)
  else
    match Word.add? b.refCount 1 with
    | some count => .ok { b with refCount := count }
    | none => .error (.illegalRefCount b.refCount)

-- ---------------------------------------------------------------------------
-- Bytes
-- ---------------------------------------------------------------------------

/-- The block, unless it is released. -/
def live (b : Buffer) : Except BufferError Block :=
  match b.block with
  | some block => .ok block
  | none => .error .released

/-- Whether `size` bytes from `offset` on lie below the capacity. -/
def check (b : Buffer) (offset size : Nat) : Except BufferError Unit :=
  match Word.add? offset size with
  | some stop =>
    if stop ≤ b.capacity then .ok () else .error (.outOfBounds offset size b.capacity)
  | none => .error (.outOfBounds offset size b.capacity)

/-- The block, if the capacity lies inside its region. -/
def window (b : Buffer) : Except BufferError Block := do
  let block ← b.live
  match block.region.check block.offset b.capacity with
  | .ok () => return block
  | .error _ => throw (.outOfBounds block.offset b.capacity block.region.size)

/-- All bytes of the buffer. -/
def bytes (b : Buffer) (h : Heap) : Except BufferError (Array UInt8) := do
  let block ← b.window
  return (h.contents b.arena block.region.id).read block.offset b.capacity

/-- `size` bytes of the buffer from `offset` on. -/
def read (b : Buffer) (h : Heap) (offset size : Nat) : Except BufferError (Array UInt8) := do
  b.check offset size
  let block ← b.window
  return (h.contents b.arena block.region.id).read (block.offset + offset) size

/-- Puts bytes into the buffer from `offset` on. -/
def write (b : Buffer) (h : Heap) (offset : Nat) (bytes : Array UInt8) :
    Except BufferError Heap := do
  b.check offset bytes.size
  let block ← b.window
  return h.modify b.arena block.region.id fun c => c.write (block.offset + offset) bytes

/-- Puts one byte everywhere in the buffer. -/
def fill (b : Buffer) (h : Heap) (byte : UInt8) : Except BufferError Heap := do
  let block ← b.window
  return h.modify b.arena block.region.id fun c => c.fill block.offset b.capacity byte

-- ---------------------------------------------------------------------------
-- Resizing
-- ---------------------------------------------------------------------------

/-- Whether the block serves another capacity too. One with a region of its own serves its
capacity only; one from a chunk serves every larger capacity it has room for, and a smaller one
unless that wastes half of it or, among tiny blocks, a whole step. -/
def fitsInPlace (b : Buffer) (capacity : Nat) : Bool :=
  match b.block with
  | none => false
  | some block =>
    if !block.isPooled then capacity == b.capacity
    else if capacity ≥ b.capacity then capacity ≤ block.capacity
    else if capacity ≤ block.capacity / 2 then false
    else block.capacity > Geometry.tinyLimit
      || capacity > block.capacity - Geometry.tinyQuantum

/-- The state of the buffer, for a reader of diagnostics. -/
def diagnose (b : Buffer) : String :=
  "PooledBuffer \x7b capacity: " ++ toString b.capacity
    ++ ", max_capacity: " ++ toString b.maxCapacity
    ++ ", max_length: " ++ toString b.maxLength
    ++ ", ref_cnt: " ++ toString b.refCount
    ++ ", arena: " ++ toString b.arena ++ " \x7d"

end Buffer

end BlockPool
