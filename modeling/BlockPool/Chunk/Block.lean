import BlockPool.Chunk.Handle
import BlockPool.Memory.Region
import BlockPool.Store.Slab

/-!
# BlockPool — blocks

A `Block` is memory handed out: a window of a region. It remembers where it came from, which is
where it goes back to.
-/

namespace BlockPool

/-- The identity of a chunk in its arena. -/
abbrev ChunkId := Slab.Key

/-- The short form of a chunk's identity. -/
def ChunkId.short (id : ChunkId) : String := s!"{id.index}.{id.generation}"

/-- Where a block came from. -/
inductive Origin where
  /-- Carved from a chunk, at the place the handle names. -/
  | pooled (chunk : ChunkId) (handle : Handle)
  /-- A region of its own. -/
  | unpooled
deriving DecidableEq, Repr

/-- A window of a region: `capacity` bytes from `offset` on. -/
structure Block where
  region : Region
  offset : Nat
  capacity : Nat
  origin : Origin
deriving DecidableEq, Repr

namespace Block

/-- A block carved from a chunk. -/
def pooled (region : Region) (offset capacity : Nat) (chunk : ChunkId) (handle : Handle) : Block :=
  ⟨region, offset, capacity, .pooled chunk handle⟩

/-- A block that is a whole region. -/
def unpooled (region : Region) (capacity : Nat) : Block :=
  ⟨region, 0, capacity, .unpooled⟩

/-- Whether the block was carved from a chunk. -/
def isPooled (b : Block) : Bool :=
  match b.origin with
  | .pooled _ _ => true
  | .unpooled => false

end Block

end BlockPool
