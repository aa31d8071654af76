import BlockPool.Arena.Cache
import BlockPool.Arena.Metrics
import BlockPool.Buffer.Source

/-!
# BlockPool — allocators

An `Allocator` is a set of arenas with one cache for each thread. A thread gets its cache, bound
to the arena with the fewest caches, when it first allocates, and keeps it until it exits; the
cache then gives its blocks back. A thread that is already tearing down has no cache and goes to
an arena directly.

* `Allocator.allocate` — a buffer of a capacity, which may later grow to a maximum.
* `Allocator.release`, `Allocator.discard` — drop a reference, or all of them at once.
* `Allocator.reallocate` — another capacity for a buffer, in place or with a new block.
* `Allocator.exitThread` — the end of a thread.
-/

namespace BlockPool

/-- A cache and the arena it is bound to. -/
structure BoundCache where
  arena : Nat
  cache : Cache

instance : Inhabited BoundCache := ⟨⟨0, default⟩⟩

/-- Arenas with a cache for each thread. -/
structure Allocator where
  id : Nat
  config : PoolConfig
  arenas : Array Arena
  /-- The caches of the threads that have one. -/
  caches : List (Nat × BoundCache)
  heap : Heap

namespace Allocator

/-- The largest capacity of a buffer. -/
def maxCapacity : Nat := Word.maxSigned

/-- An allocator without caches. There is always one arena. -/
def build (id : Nat) (config : PoolConfig) (supply : Nat → Supply) : Allocator where
  id := id
  config := config
  arenas := Array.ofFn fun index : Fin (max config.numArenas 1) =>
    Arena.empty index config.geometry (supply index)
  caches := []
  heap := Heap.zeroed

instance : Inhabited Allocator :=
  ⟨build 0 (PoolConfig.defaults 1) fun _ _ => Provider.unsupported⟩

/-- An allocator of a configuration that passes its checks. -/
def create (id : Nat) (config : PoolConfig) (supply : Nat → Supply) :
    Except AllocError Allocator :=
  match config.validate with
  | .ok () => .ok (build id config supply)
  | .error cause => .error (.config cause)

-- ---------------------------------------------------------------------------
-- Arenas and caches
-- ---------------------------------------------------------------------------

/-- The arena of an index. -/
def arenaAt (a : Allocator) (index : Nat) : Arena := a.arenas.getD index default

/-- Puts another arena in place of one. -/
def setArena (a : Allocator) (index : Nat) (arena : Arena) : Allocator :=
  { a with arenas := a.arenas.setIfInBounds index arena }

/-- The first arena with the fewest caches. -/
def leastUsed (a : Allocator) : Nat :=
  (a.arenas.toList.zipIdx.foldl
    (fun best (arena, index) =>
      if arena.numCaches < (a.arenaAt best).numCaches then index else best) 0)

/-- The cache of a thread, if it has one. -/
def cacheOf? (a : Allocator) (thread : Nat) : Option BoundCache := a.caches.lookup thread

/-- Puts another cache in place of a thread's. -/
def setCache (a : Allocator) (thread : Nat) (bound : BoundCache) : Allocator :=
  { a with
    caches := a.caches.map fun entry => if entry.1 = thread then (thread, bound) else entry }

/-- Sees to it that a thread has a cache: one that is bound to the least used arena, with queues
only if the configuration asks for them. -/
def ensureCache (a : Allocator) (thread : Nat) : Allocator × BoundCache :=
  match a.cacheOf? thread with
  | some bound => (a, bound)
  | none =>
    let index := a.leastUsed
    let arena := a.arenaAt index
    let config := if a.config.useThreadCache then a.config else a.config.withoutCache
    let bound : BoundCache := ⟨index, Cache.empty arena.geometry config⟩
    ({ a.setArena index arena.bindCache with caches := a.caches ++ [(thread, bound)] }, bound)

/-- Changes the state of a thread's cache and of its arena. -/
def withCache {ρ : Type} (a : Allocator) (thread : Nat) (bound : BoundCache)
    (f : Cache → Arena → ρ × Cache × Arena) : ρ × Allocator :=
  let (result, cache, arena) := f bound.cache (a.arenaAt bound.arena)
  (result, (a.setArena bound.arena arena).setCache thread { bound with cache })

-- ---------------------------------------------------------------------------
-- Blocks
-- ---------------------------------------------------------------------------

/-- A block for a capacity, with the index of its arena. -/
def allocateBlock (a : Allocator) (caller : Caller) (capacity : Nat) :
    Except ArenaError (Nat × Block) × Allocator :=
  match caller with
  | .thread thread =>
    let (a, bound) := a.ensureCache thread
    let (result, a) := a.withCache thread bound fun cache arena =>
      arena.allocateCached cache capacity
    (result.map fun block => (bound.arena, block), a)
  | .exiting =>
    let index := a.leastUsed
    let (result, arena) := (a.arenaAt index).allocate capacity
    (result.map fun block => (index, block), a.setArena index arena)

/-- Takes a block back without asking a cache. -/
def freeDirect (a : Allocator) (index : Nat) (block : Block) :
    Except ArenaError Unit × Allocator :=
  let (result, arena) := (a.arenaAt index).free block
  (result, a.setArena index arena)

/-- Takes a block back: into the caller's cache if that is bound to the block's arena, and else
into the arena directly. -/
def freeBlock (a : Allocator) (caller : Caller) (index : Nat) (block : Block) :
    Except ArenaError Unit × Allocator :=
  match caller with
  | .exiting => a.freeDirect index block
  | .thread thread =>
    match a.cacheOf? thread with
    | none => a.freeDirect index block
    | some bound =>
      if bound.arena = index then
        a.withCache thread bound fun cache arena => arena.freeCached cache block
      else a.freeDirect index block

-- ---------------------------------------------------------------------------
-- Buffers
-- ---------------------------------------------------------------------------

/-- A buffer of a capacity, which may later grow to a maximum. -/
def allocate (a : Allocator) (caller : Caller) (capacity : Nat)
    (limit : Nat := Allocator.maxCapacity) : Except AllocError Buffer × Allocator :=
  if limit > Allocator.maxCapacity ∨ capacity > limit then
    (.error (.capacity capacity (min limit Allocator.maxCapacity)), a)
  else
    match a.allocateBlock caller capacity with
    | (.error cause, a) => (.error (.arena cause), a)
    | (.ok (arena, block), a) =>
      (.ok
        { owner := a.id
          arena := arena
          block := some block
          capacity := capacity
          maxCapacity := limit
          refCount := 1 }, a)

/-- An allocator answers the calls of its buffers. -/
def source : BlockSource Allocator where
  id a := a.id
  heap a := a.heap
  setHeap a heap := { a with heap }
  allocateBlock := allocateBlock
  freeBlock := freeBlock

/-- Drops a reference to a buffer of this allocator. The answer is whether that gave its block
back. -/
def drop (a : Allocator) (caller : Caller) (b : Buffer) :
    Except BufferError Bool × Buffer × Allocator :=
  source.drop a caller b

/-- Drops a reference to a buffer, which must be one of this allocator's. -/
def release (a : Allocator) (caller : Caller) (b : Buffer) :
    Except BufferError Bool × Buffer × Allocator :=
  source.release a caller b

/-- Ends the life of a buffer of this allocator, whatever its count. A block that it still has is
given back. -/
def discard (a : Allocator) (caller : Caller) (b : Buffer) : Allocator := source.discard a caller b

/-- Gives a buffer another capacity. Its bytes stay, up to the smaller of the two capacities. -/
def reallocate (a : Allocator) (caller : Caller) (b : Buffer) (capacity : Nat) :
    Except BufferError Unit × Buffer × Allocator :=
  source.reallocate a caller b capacity

/-- Puts bytes into a buffer of this allocator. -/
def write (a : Allocator) (b : Buffer) (offset : Nat) (bytes : Array UInt8) :
    Except BufferError Allocator :=
  source.write a b offset bytes

/-- Puts one byte everywhere in a buffer of this allocator. -/
def fill (a : Allocator) (b : Buffer) (byte : UInt8) : Except BufferError Allocator :=
  source.fill a b byte

-- ---------------------------------------------------------------------------
-- Threads
-- ---------------------------------------------------------------------------

/-- Trims the cache of a thread. The answer is whether it has one. -/
def trimCache (a : Allocator) (thread : Nat) : Bool × Allocator :=
  match a.cacheOf? thread with
  | none => (false, a)
  | some bound =>
    a.withCache thread bound fun cache arena =>
      let (cache, arena) := cache.trim arena
      (true, cache, arena)

/-- The blocks that a thread's cache holds. -/
def cachedBlocks (a : Allocator) (thread : Nat) : Nat :=
  match a.cacheOf? thread with
  | some bound => bound.cache.size
  | none => 0

/-- The arena a thread is bound to. -/
def boundArena? (a : Allocator) (thread : Nat) : Option Nat :=
  (a.cacheOf? thread).map (·.arena)

/-- Ends a thread: its cache gives every block back. -/
def exitThread (a : Allocator) (thread : Nat) : Allocator :=
  match a.cacheOf? thread with
  | none => a
  | some bound =>
    let arena := bound.cache.dissolve (a.arenaAt bound.arena)
    { a.setArena bound.arena arena with
      caches := a.caches.filter fun entry => entry.1 ≠ thread }

-- ---------------------------------------------------------------------------
-- Looking in
-- ---------------------------------------------------------------------------

/-- The number of arenas. -/
def numArenas (a : Allocator) : Nat := a.arenas.size

/-- The metrics of every arena. -/
def metrics (a : Allocator) : List ArenaMetrics := a.arenas.toList.map Arena.metrics

/-- Checks every arena; the first fault is the error. -/
def verify (a : Allocator) : Except AllocError Unit :=
  (a.arenas.toList.forM Arena.verify).mapError .arena

/-- The allocator in several lines, some for each arena. -/
def describe (a : Allocator) : String :=
  toString a.numArenas ++ " arena(s)\n"
    ++ String.join (a.metrics.map fun m => m.describe ++ "\n")

/-- The allocator in one line, for a reader of diagnostics. -/
def diagnose (a : Allocator) : String :=
  "PooledAllocator \x7b config: " ++ a.config.describe
    ++ ", arenas: " ++ toString a.numArenas ++ " \x7d"

end Allocator

end BlockPool
