import BlockPool.Chunk.Block
import BlockPool.Chunk.Error
import BlockPool.Chunk.Geometry
import BlockPool.Store.Chain

/-!
# BlockPool — subpages and their pools

A `Subpage` is one page of a chunk, divided into slots of one size. A `SubpagePool` holds the
subpages of one slot size, whichever chunks they come from, and has those with a free slot in a
chain.

* `Subpage.take?`, `Subpage.give` — one slot out and back.
* `SubpagePool.take?`, `SubpagePool.takeIn?` — a slot of any subpage, or of a given one.
* `SubpagePool.give` — a slot back; a subpage that becomes empty beside another with room leaves
  the pool.
-/

namespace BlockPool

/-- A page divided into slots of one size. -/
structure Subpage where
  chunk : ChunkId
  node : UInt32
  /-- Where the page starts in the region. -/
  runOffset : Nat
  elemSize : Nat
  maxElems : Nat
  numFree : Nat
  /-- A slot that is known to be free. -/
  hint : Option Nat
  used : Bitmap
  region : Region

instance : Inhabited Subpage := ⟨⟨default, 0, 0, 0, 0, 0, none, default, default⟩⟩

namespace Subpage

/-- A page of `pageSize` bytes with as many slots of `elemSize` bytes as it has room for. -/
def divide (chunk : ChunkId) (node : UInt32) (runOffset pageSize elemSize : Nat)
    (region : Region) : Subpage where
  chunk := chunk
  node := node
  runOffset := runOffset
  elemSize := elemSize
  maxElems := pageSize / elemSize
  numFree := pageSize / elemSize
  hint := some 0
  used := Bitmap.withCapacity (pageSize / elemSize) (pageSize / Geometry.tinyQuantum)
  region := region

/-- Whether no slot is in use. -/
def isEmpty (p : Subpage) : Bool := p.numFree == p.maxElems

/-- Whether a slot is in use. -/
def isUsed (p : Subpage) (slot : Nat) : Bool :=
  match p.used.get slot with
  | .ok used => used
  | .error _ => false

/-- The block of a slot. -/
def blockAt (p : Subpage) (slot : Nat) : Block :=
  Block.pooled p.region (p.runOffset + slot * p.elemSize) p.elemSize p.chunk
    (Handle.subpage p.node (UInt32.ofNat slot))

/-- Takes a free slot: the one that is known, or else the first. -/
def take? (p : Subpage) : Option (Block × Subpage) :=
  if p.numFree = 0 then none
  else
    match p.hint.or p.used.findClear? with
    | none => none
    | some slot =>
      match p.used.set slot with
      | .error _ => none
      | .ok used =>
        some (p.blockAt slot, { p with used, hint := none, numFree := p.numFree - 1 })

/-- Takes a slot back. -/
def give (p : Subpage) (slot : Nat) : Except ChunkError Subpage :=
  match p.used.clear slot with
  | .error cause => .error (.slot (Handle.subpage p.node (UInt32.ofNat slot)) cause)
  | .ok used => .ok { p with used, hint := some slot, numFree := p.numFree + 1 }

/-- Whether the count of free slots agrees with the slots in use. -/
def verify (p : Subpage) : Except ChunkError Unit :=
  let inUse := p.maxElems - p.numFree
  if p.used.used ≠ inUse then .error (.corrupted p.node.toNat inUse p.used.used) else .ok ()

/-- The page in one line. -/
def describe (p : Subpage) : String :=
  "(" ++ toString p.node ++ ": " ++ toString (p.maxElems - p.numFree) ++ "/"
    ++ toString p.maxElems ++ ", offset: " ++ toString p.runOffset
    ++ ", length: " ++ toString (p.maxElems * p.elemSize)
    ++ ", elemSize: " ++ toString p.elemSize ++ ")"

end Subpage

/-- The subpages of one slot size. -/
structure SubpagePool where
  elemSize : Nat
  subpages : Nodes Subpage
  /-- The subpages with a free slot. -/
  available : Chain

namespace SubpagePool

/-- The pool of a slot size, without subpages. -/
def empty (elemSize : Nat) : SubpagePool := ⟨elemSize, Slab.empty, Chain.empty⟩

instance : Inhabited SubpagePool := ⟨empty 0⟩

/-- The number of subpages. -/
def size (pool : SubpagePool) : Nat := pool.subpages.size

/-- Whether the pool has no subpages. -/
def isEmpty (pool : SubpagePool) : Bool := pool.subpages.isEmpty

/-- The subpage under a key. -/
def get? (pool : SubpagePool) (key : Slab.Key) : Option Subpage :=
  (pool.subpages.get? key).map (·.value)

/-- Every subpage, by slot of the slab. -/
def toList (pool : SubpagePool) : List Subpage :=
  pool.subpages.entries.map fun entry => entry.2.value

/-- Makes a subpage available, in front of the others. -/
def link (pool : SubpagePool) (index : Nat) : SubpagePool :=
  match pool.available.pushFront pool.subpages index with
  | some (available, subpages) => { pool with available, subpages }
  | none => pool

/-- Makes a subpage unavailable. -/
def unlink (pool : SubpagePool) (index : Nat) : SubpagePool :=
  match pool.available.unlink pool.subpages index with
  | some (available, subpages) => { pool with available, subpages }
  | none => pool

/-- Adds a subpage and makes it available. -/
def insert (pool : SubpagePool) (subpage : Subpage) : Slab.Key × SubpagePool :=
  let (key, subpages) := pool.subpages.insertValue subpage
  (key, { pool with subpages }.link key.index)

/-- Takes a slot of the subpage at an index. A subpage that is full after that is no longer
available. -/
def takeAt? (pool : SubpagePool) (index : Nat) : Option (Block × SubpagePool) := do
  let subpage ← pool.subpages.value? index
  let (block, subpage) ← subpage.take?
  let pool := { pool with subpages := pool.subpages.putValue index subpage }
  return (block, if subpage.numFree = 0 then pool.unlink index else pool)

/-- Takes a slot of the first subpage with room. -/
def take? (pool : SubpagePool) : Option (Block × SubpagePool) := do
  pool.takeAt? (← pool.available.head)

/-- Takes a slot of the subpage under a key. -/
def takeIn? (pool : SubpagePool) (key : Slab.Key) : Option (Block × SubpagePool) := do
  let _ ← pool.subpages.get? key
  pool.takeAt? key.index

/-- Takes a slot back. The answer is whether the subpage stays: one that was full becomes
available again, and one that becomes empty leaves the pool unless it is the only available one,
which is kept for the next request. -/
def give (pool : SubpagePool) (key : Slab.Key) (handle : Handle) :
    Except ChunkError (Bool × SubpagePool) :=
  match handle.slot, pool.get? key with
  | some slot, some subpage =>
    if subpage.node ≠ handle.node then .error (.noSubpage handle)
    else
      match subpage.give slot.toNat with
      | .error e => .error e
      | .ok subpage =>
        let pool := { pool with subpages := pool.subpages.putValue key.index subpage }
        if subpage.numFree = 1 then .ok (true, pool.link key.index)
        else if !subpage.isEmpty then .ok (true, pool)
        else if pool.available.length = 1 then .ok (true, pool)
        else
          let pool := pool.unlink key.index
          match pool.subpages.remove key with
          | some (_, subpages) => .ok (false, { pool with subpages })
          | none => .ok (false, pool)
  | _, _ => .error (.noSubpage handle)

end SubpagePool

/-- The pools of a geometry, by index. -/
abbrev SubpagePools := Array SubpagePool

/-- One empty pool for each slot size. -/
def SubpagePools.empty (g : Geometry) : SubpagePools :=
  Array.ofFn fun index : Fin g.numPools => SubpagePool.empty (Geometry.poolElemSize index)

end BlockPool
