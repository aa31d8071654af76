import BlockPool.Arena.Basic
import BlockPool.Config.Pool
import BlockPool.Store.Ring

/-!
# BlockPool — thread caches

A `Cache` stands in front of one arena, for one thread. It holds freed blocks, in one queue for
each normalized size, and hands them out again without asking the arena. From time to time it
gives back what was not used again lately.

* `Cache.take` — a held block of a size; every call counts towards the next trim.
* `Cache.park?` — holds a block, if there is a queue for its size with room.
* `Cache.trim`, `Cache.dissolve` — give blocks back to the arena, some or all.
-/

namespace BlockPool

/-- Freed blocks of one size, oldest first, and how many were handed out again since the last
trim. -/
structure CacheQueue where
  blocks : Ring Block
  hits : Nat

namespace CacheQueue

/-- A queue with room for `size` blocks. -/
def empty (size : Nat) : CacheQueue := ⟨Ring.empty size, 0⟩

instance : Inhabited CacheQueue := ⟨empty 0⟩

/-- The number of blocks held. -/
def length (q : CacheQueue) : Nat := q.blocks.length

/-- Hands out the oldest block. -/
def take? (q : CacheQueue) : Option (Block × CacheQueue) :=
  match q.blocks.pop with
  | (some block, blocks) => some (block, ⟨blocks, q.hits + 1⟩)
  | (none, _) => none

/-- Holds a block, if there is room. -/
def park? (q : CacheQueue) (block : Block) : Option CacheQueue :=
  match q.blocks.push block with
  | .ok blocks => some { q with blocks }
  | .error _ => none

/-- Takes out as many blocks as the queue has room for, less those handed out since the last trim,
oldest first. -/
def trim (q : CacheQueue) : List Block × CacheQueue :=
  let (surplus, blocks) := q.blocks.take (q.blocks.capacity - q.hits)
  (surplus, ⟨blocks, 0⟩)

/-- Takes out every block, oldest first. -/
def drain (q : CacheQueue) : List Block × CacheQueue :=
  let (all, blocks) := q.blocks.drain
  (all, { q with blocks })

end CacheQueue

/-- So many queues of a size; none at all for size zero. -/
def CacheQueue.array (size count : Nat) : Array CacheQueue :=
  if size = 0 then #[] else Array.replicate count (CacheQueue.empty size)

/-- The front of an arena for one thread. -/
structure Cache where
  geometry : Geometry
  tiny : Array CacheQueue
  small : Array CacheQueue
  normal : Array CacheQueue
  /-- The largest normal size that is held. -/
  maxCached : Nat
  trimInterval : Nat
  /-- The calls of `take` since the last trim. -/
  attempts : Nat

namespace Cache

/-- The number of queues for normal sizes: one for each power of two from a page up to the largest
size that is held, and one where that is below a page. -/
def numNormalQueues (g : Geometry) (maxCached : Nat) : Nat :=
  let largest := min g.chunkSize maxCached
  if largest < g.pageSize then 1 else (largest / g.pageSize).log2 + 1

/-- A cache that holds nothing. -/
def empty (g : Geometry) (c : PoolConfig) : Cache where
  geometry := g
  tiny := CacheQueue.array c.tinyCacheSize Geometry.numTinyPools
  small := CacheQueue.array c.smallCacheSize g.numSmallPools
  normal := CacheQueue.array c.normalCacheSize (numNormalQueues g c.maxCachedCapacity)
  maxCached := c.maxCachedCapacity
  trimInterval := max c.cacheTrimInterval 1
  attempts := 0

instance : Inhabited Cache := ⟨empty ⟨4096, 0, 0⟩ (PoolConfig.defaults 1)⟩

-- ---------------------------------------------------------------------------
-- Queues by size
-- ---------------------------------------------------------------------------

/-- The queues of a class. Huge blocks have none. -/
def queuesOf (c : Cache) : SizeClass → Array CacheQueue
  | .tiny => c.tiny
  | .small => c.small
  | .normal => c.normal
  | .huge => #[]

/-- Puts other queues in place of a class's. -/
def setQueues (c : Cache) (k : SizeClass) (queues : Array CacheQueue) : Cache :=
  match k with
  | .tiny => { c with tiny := queues }
  | .small => { c with small := queues }
  | .normal => { c with normal := queues }
  | .huge => c

/-- The place of a size among the queues of its class. -/
def queueIndex? (c : Cache) (k : SizeClass) (size : Nat) : Option Nat :=
  match k with
  | .tiny => some (Geometry.tinyIndex size)
  | .small => some (Geometry.smallIndex size)
  | .normal =>
    if size > c.maxCached ∨ size.log2 < c.geometry.pageShift then none
    else some (size.log2 - c.geometry.pageShift)
  | .huge => none

/-- The queue for a size, with its place. -/
def queueFor? (c : Cache) (k : SizeClass) (size : Nat) : Option (Nat × CacheQueue) := do
  let index ← c.queueIndex? k size
  let queue ← (c.queuesOf k)[index]?
  return (index, queue)

/-- Puts another queue in place of one. -/
def setQueue (c : Cache) (k : SizeClass) (index : Nat) (queue : CacheQueue) : Cache :=
  c.setQueues k ((c.queuesOf k).setIfInBounds index queue)

/-- The number of blocks held. -/
def size (c : Cache) : Nat :=
  total ((c.tiny.toList ++ c.small.toList ++ c.normal.toList).map (·.length))

/-- Runs an operation over every queue and gathers the blocks that come out, tiny sizes first. -/
def gather (c : Cache) (f : CacheQueue → List Block × CacheQueue) : List Block × Cache :=
  let part (queues : Array CacheQueue) := (queues.toList.flatMap fun q => (f q).1,
    queues.map fun q => (f q).2)
  let (tinyOut, tiny) := part c.tiny
  let (smallOut, small) := part c.small
  let (normalOut, normal) := part c.normal
  (tinyOut ++ smallOut ++ normalOut, { c with tiny, small, normal })

-- ---------------------------------------------------------------------------
-- Giving blocks back
-- ---------------------------------------------------------------------------

/-- Gives blocks back to the arena, one after the other. -/
def release (a : Arena) (blocks : List Block) : Arena :=
  blocks.foldl (fun a block => (a.free block).2) a

/-- Gives back what was not handed out again since the last trim. -/
def trim (c : Cache) (a : Arena) : Cache × Arena :=
  let (surplus, c) := c.gather CacheQueue.trim
  (c, release a surplus)

/-- Gives every block back, and frees the arena from the cache. -/
def dissolve (c : Cache) (a : Arena) : Arena :=
  (release a (c.gather CacheQueue.drain).1).unbindCache

-- ---------------------------------------------------------------------------
-- Holding and handing out
-- ---------------------------------------------------------------------------

/-- Hands out a held block of a size. Every call counts, hit or miss, and the call that completes
the interval trims the cache, after it has taken its block. -/
def take (c : Cache) (a : Arena) (k : SizeClass) (size : Nat) : Option Block × Cache × Arena :=
  let (block?, c) := match c.queueFor? k size with
    | none => (none, c)
    | some (index, queue) =>
      match queue.take? with
      | none => (none, c)
      | some (block, queue) => (some block, c.setQueue k index queue)
  if c.attempts + 1 ≥ c.trimInterval then
    let (c, a) := { c with attempts := 0 }.trim a
    (block?, c, a)
  else (block?, { c with attempts := c.attempts + 1 }, a)

/-- Holds a block carved from a chunk, if its size has a queue with room. -/
def park? (c : Cache) (k : SizeClass) (block : Block) : Option Cache :=
  if block.isPooled then
    match c.queueFor? k block.capacity with
    | none => none
    | some (index, queue) => (queue.park? block).map fun queue => c.setQueue k index queue
  else none

end Cache

-- ---------------------------------------------------------------------------
-- An arena behind a cache
-- ---------------------------------------------------------------------------

/-- A block for a request, from the cache if it holds one of the size. Huge requests and the
request of no bytes do not ask it. -/
def Arena.allocateCached (a : Arena) (c : Cache) (request : Nat) :
    Except ArenaError Block × Cache × Arena :=
  let size := a.geometry.normalize request
  if size = 0 then (.ok Arena.emptyBlock, c, a)
  else
    let k := a.geometry.sizeClass size
    match k with
    | .huge =>
      let (result, a) := a.allocateUnpooled size
      (result, c, a)
    | _ =>
      match c.take a k size with
      | (some block, c, a) => (.ok block, c, a)
      | (none, c, a) =>
        let (result, a) := a.allocateClass k size
        (result, c, a)

/-- Takes a block back, into the cache if it can hold it. -/
def Arena.freeCached (a : Arena) (c : Cache) (block : Block) :
    Except ArenaError Unit × Cache × Arena :=
  match c.park? (a.geometry.sizeClass block.capacity) block with
  | some c => (.ok (), c, a)
  | none =>
    let (result, a) := a.free block
    (result, c, a)

end BlockPool
