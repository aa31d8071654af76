import BlockPool.Chunk.Band
import BlockPool.Chunk.Buddy
import BlockPool.Chunk.Subpage

/-!
# BlockPool — chunks

A `Chunk` is a region with a buddy tree over its pages. A page can be handed to a subpage pool, to
be divided into slots; the chunk then records, for that leaf, the pool and the key of its subpage.

* `Chunk.allocate` — a run of pages for a normal size, and the first slot of a new subpage for a
  tiny or small one.
* `Chunk.free` — takes a run or a slot back; a page comes back when its subpage leaves its pool.
* `Chunk.usage` — how much of the chunk is in use, in percent.
-/

namespace BlockPool

/-- Where the subpage of a leaf is found. -/
structure Chunk.LeafRecord where
  pool : Nat
  key : Slab.Key
deriving DecidableEq, Repr

/-- A region with a buddy tree over its pages. -/
structure Chunk where
  id : ChunkId
  /-- The band whose list holds the chunk. -/
  band : Option Band
  geometry : Geometry
  region : Region
  tree : Buddy
  /-- For each page, the subpage it is divided into. -/
  leaves : Array (Option Chunk.LeafRecord)
  freeBytes : Nat

namespace Chunk

/-- The size of the chunk. -/
def size (c : Chunk) : Nat := c.geometry.chunkSize

/-- A chunk over a region of the chunk size, with every page free. -/
def ofRegion (id : ChunkId) (g : Geometry) (region : Region) : Chunk where
  id := id
  band := none
  geometry := g
  region := region
  tree := Buddy.fresh g.maxOrder
  leaves := Array.replicate (1 <<< g.maxOrder) none
  freeBytes := g.chunkSize

instance : Inhabited Chunk := ⟨ofRegion default ⟨4096, 0, 0⟩ default⟩

/-- Makes a chunk over memory from the provider. -/
def allocateNew (provider : Provider) (request : Nat) (id : ChunkId) (g : Geometry) :
    Except RegionError Chunk := do
  return ofRegion id g (← Region.allocate provider request g.chunkSize g.pageSize)

/-- How much of the chunk is in use, in percent: the free part is rounded down, but a chunk that is
not quite full counts as 99 at most. -/
def usage (c : Chunk) : Int :=
  if c.freeBytes = 0 then 100
  else
    let freePercent := c.freeBytes * 100 / c.size
    if freePercent = 0 then 99 else 100 - (freePercent : Int)

/-- The bytes of a node's run. -/
def runLength (c : Chunk) (node : Nat) : Nat :=
  1 <<< (c.size.log2 - Buddy.depthOf node)

/-- Where a node's run starts: as many runs in as the node stands from the left at its depth. -/
def runOffset (c : Chunk) (node : Nat) : Nat :=
  (node - 1 <<< Buddy.depthOf node) * c.runLength node

/-- The subpage record of a leaf node. -/
def leafRecord? (c : Chunk) (node : Nat) : Option LeafRecord :=
  if node ≥ c.tree.numPages then (c.leaves[node - c.tree.numPages]?).join else none

-- ---------------------------------------------------------------------------
-- Allocation
-- ---------------------------------------------------------------------------

/-- Takes a run of pages. -/
def allocateRun (c : Chunk) (size : Nat) : Option (Block × Chunk) := do
  let (node, tree) ← c.tree.take? (c.geometry.runDepth size)
  let length := c.runLength node
  return (Block.pooled c.region (c.runOffset node) length c.id (Handle.run (UInt32.ofNat node)),
    { c with tree, freeBytes := c.freeBytes - length })

/-- Takes a page, divides it for the pool of the size and takes its first slot. -/
def allocateSubpage (c : Chunk) (pools : SubpagePools) (size : Nat) :
    Option (Block × Chunk × SubpagePools) := do
  let index := Geometry.poolIndex size
  let pool ← pools[index]?
  let (node, tree) ← c.tree.take? c.geometry.maxOrder
  let subpage := Subpage.divide c.id (UInt32.ofNat node) (c.runOffset node) c.geometry.pageSize
    size c.region
  let (key, pool) := pool.insert subpage
  let (block, pool) ← pool.takeIn? key
  return (block,
    { c with
      tree
      freeBytes := c.freeBytes - c.geometry.pageSize
      leaves := c.leaves.setIfInBounds (node - c.tree.numPages) (some ⟨index, key⟩) },
    pools.setIfInBounds index pool)

/-- A block for a normalized size, or none if the chunk has no room for it. -/
def allocate (c : Chunk) (pools : SubpagePools) (size : Nat) :
    Option (Block × Chunk × SubpagePools) :=
  if c.geometry.isTinyOrSmall size then c.allocateSubpage pools size
  else
    match c.allocateRun size with
    | some (block, c) => some (block, c, pools)
    | none => none

-- ---------------------------------------------------------------------------
-- Giving back
-- ---------------------------------------------------------------------------

/-- Gives a node back to the tree. -/
def freeNode (c : Chunk) (handle : Handle) : Except ChunkError Chunk :=
  let node := handle.node.toNat
  match c.tree.give node with
  | .error _ => .error (.notAllocated handle)
  | .ok tree => .ok { c with tree, freeBytes := c.freeBytes + c.runLength node }

/-- Gives a slot back to its subpage, and the page back to the tree if the subpage is gone. -/
def freeSlot (c : Chunk) (pools : SubpagePools) (handle : Handle) (record : LeafRecord) :
    Except ChunkError (Chunk × SubpagePools) :=
  match pools[record.pool]? with
  | none => .error (.noSubpage handle)
  | some pool =>
    match pool.give record.key handle with
    | .error e => .error e
    | .ok (stays, pool) =>
      let pools := pools.setIfInBounds record.pool pool
      if stays then .ok (c, pools)
      else
        let leaf := handle.node.toNat - c.tree.numPages
        match { c with leaves := c.leaves.setIfInBounds leaf none }.freeNode handle with
        | .error e => .error e
        | .ok c => .ok (c, pools)

/-- Takes a block back. A slot must name a leaf with a subpage, and a run a node without one. -/
def free (c : Chunk) (pools : SubpagePools) (handle : Handle) :
    Except ChunkError (Chunk × SubpagePools) :=
  let node := handle.node.toNat
  if node = 0 ∨ node ≥ c.tree.numNodes then .error (.invalidNode handle.node)
  else
    match handle.isSubpage, c.leafRecord? node with
    | true, some record => c.freeSlot pools handle record
    | true, none => .error (.noSubpage handle)
    | false, some _ => .error (.notAllocated handle)
    | false, none =>
      match c.freeNode handle with
      | .error e => .error e
      | .ok c => .ok (c, pools)

-- ---------------------------------------------------------------------------
-- Checking and showing
-- ---------------------------------------------------------------------------

/-- Checks every entry of the tree. -/
def verify (c : Chunk) : Except ChunkError Unit :=
  match c.tree.mismatch? with
  | some node => .error (.corrupted node (c.tree.expectedRoom node) (c.tree.roomAt node))
  | none => .ok ()

/-- The chunk in one line. -/
def describe (c : Chunk) : String :=
  "Chunk(#" ++ c.id.short ++ ": " ++ toString c.usage ++ "%, "
    ++ toString (c.size - c.freeBytes) ++ "/" ++ toString c.size ++ ")"

/-- The state of the chunk, for a reader of diagnostics. -/
def diagnose (c : Chunk) : String :=
  let band := match c.band with
    | some band => "Some(" ++ band.tag ++ ")"
    | none => "None"
  "Chunk \x7b id: " ++ c.id.describe ++ ", list: " ++ band
    ++ ", usage: " ++ toString c.usage
    ++ ", free_bytes: " ++ toString c.freeBytes ++ " \x7d"

end Chunk

end BlockPool
