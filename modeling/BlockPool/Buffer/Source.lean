import BlockPool.Buffer.Basic
import BlockPool.Thread.Caller

/-!
# BlockPool — what buffers ask for

A buffer asks for memory, for blocks, and that its blocks be taken back. What is done to buffers is
written here over anything that answers these calls. An allocator answers them, and so does one that
writes down what it was asked.

* `BlockSource` — what answers the calls of a buffer.
* `BlockSource.drop`, `BlockSource.release`, `BlockSource.discard` — drop a reference, or all.
* `BlockSource.reallocate` — another capacity for a buffer, in place or with a new block.
* `BlockSource.write`, `BlockSource.fill` — bytes for a buffer.
-/

namespace BlockPool

/-- What answers the calls of a buffer, in some state. -/
structure BlockSource (σ : Type) where
  /-- The name that the buffers bear. -/
  id : σ → Nat
  heap : σ → Heap
  setHeap : σ → Heap → σ
  /-- A block for a capacity, with the index of its arena. -/
  allocateBlock : σ → Caller → Nat → Except ArenaError (Nat × Block) × σ
  /-- Takes a block of an arena back. -/
  freeBlock : σ → Caller → Nat → Block → Except ArenaError Unit × σ

namespace BlockSource

variable {σ : Type} (source : BlockSource σ) (a : σ) (caller : Caller) (b : Buffer) (capacity : Nat)

-- ---------------------------------------------------------------------------
-- References
-- ---------------------------------------------------------------------------

/-- Gives the block of a buffer back. -/
def deallocate : Except BufferError Unit × Buffer × σ :=
  match b.block with
  | none => (.error .released, b, a)
  | some block =>
    let (result, a) := source.freeBlock a caller b.arena block
    (result.mapError fun cause => .alloc (.arena cause), { b with block := none }, a)

/-- Drops a reference to a buffer of this source. The answer is whether that gave its block back. -/
def drop : Except BufferError Bool × Buffer × σ :=
  match b.refCount with
  | 0 => (.error (.illegalRefCount 0), b, a)
  | 1 =>
    let (result, b, a) := source.deallocate a caller { b with refCount := 0 }
    (result.map fun _ => true, b, a)
  | count + 2 => (.ok false, { b with refCount := count + 1 }, a)

/-- Drops a reference to a buffer, which must be one of this source's. -/
def release : Except BufferError Bool × Buffer × σ :=
  if b.owner ≠ source.id a then (.error .foreignAllocator, b, a) else source.drop a caller b

/-- Ends the life of a buffer of this source, whatever its count. A block that it still has is given
back. -/
def discard : σ := (source.deallocate a caller b).2.2

-- ---------------------------------------------------------------------------
-- Another capacity
-- ---------------------------------------------------------------------------

/-- Gives the block of a buffer back, if it has one. -/
def giveBack : Except ArenaError Unit × σ :=
  match b.block with
  | some old => source.freeBlock a caller b.arena old
  | none => (.ok (), a)

/-- Moves a buffer into a new block: its first bytes are copied, and the old block is given back. -/
def move : Except BufferError Unit × Buffer × σ :=
  match source.allocateBlock a caller capacity with
  | (.error cause, a) => (.error (.alloc (.arena cause)), b, a)
  | (.ok (arena, block), a) =>
    match b.read (source.heap a) 0 (min b.capacity capacity) with
    | .error e => (.error e, b, a)
    | .ok bytes =>
      let moved := { b with arena, block := some block, capacity }
      let (freed, a) := source.giveBack a caller b
      match freed with
      | .error cause => (.error (.alloc (.arena cause)), moved, a)
      | .ok () =>
        match moved.write (source.heap a) 0 bytes with
        | .error e => (.error e, moved, a)
        | .ok heap => (.ok (), moved, source.setHeap a heap)

/-- Gives a buffer another capacity. Its bytes stay, up to the smaller of the two capacities. -/
def reallocate : Except BufferError Unit × Buffer × σ :=
  if b.owner ≠ source.id a then (.error .foreignAllocator, b, a)
  else if b.isReleased then (.error .released, b, a)
  else if capacity > b.maxCapacity then
    (.error (.alloc (.capacity capacity b.maxCapacity)), b, a)
  else if b.fitsInPlace capacity then (.ok (), { b with capacity }, a)
  else source.move a caller b capacity

-- ---------------------------------------------------------------------------
-- Bytes
-- ---------------------------------------------------------------------------

/-- Puts bytes into a buffer of this source. -/
def write (offset : Nat) (bytes : Array UInt8) : Except BufferError σ :=
  (b.write (source.heap a) offset bytes).map (source.setHeap a)

/-- Puts one byte everywhere in a buffer of this source. -/
def fill (byte : UInt8) : Except BufferError σ :=
  (b.fill (source.heap a) byte).map (source.setHeap a)

end BlockSource

end BlockPool
