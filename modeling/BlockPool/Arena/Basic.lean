import BlockPool.Arena.Counts
import BlockPool.Chunk.BandLists
import BlockPool.Total

/-!
# BlockPool — arenas

An `Arena` owns chunks, the pools of the subpages carved from them, and the count of what it has
handed out. Tiny and small requests try their pool first; what no pool and no listed chunk can
serve gets a new chunk, and what is larger than a chunk a region of its own. When no chunk can be
had, a region of its own serves a smaller request too.

* `Arena.allocate` — a block for a request.
* `Arena.free` — takes a block back; a chunk that drops out of its bands is given up.
* `Arena.verify` — checks the trees of all chunks and the counts of all subpages.
-/

namespace BlockPool

/-- Why an arena refused a request or a block. -/
inductive ArenaError where
  | staleChunk (id : ChunkId)
  | chunk (cause : ChunkError)
  | region (cause : RegionError)
  | exhausted (size : Nat)
deriving DecidableEq, Repr

/-- The text of the error, where its cause has one. -/
def ArenaError.message? : ArenaError → Option String
  | .staleChunk id => some ("chunk #" ++ id.short ++ " no longer exists")
  | .chunk cause => some cause.message
  | .region cause => cause.message?.map ("memory region: " ++ ·)
  | .exhausted size => some s!"a fresh chunk could not serve {size} bytes"

/-- The kind of the error, with that of its cause. -/
def ArenaError.kind : ArenaError → String
  | .staleChunk _ => "StaleChunk"
  | .chunk cause => "Chunk." ++ cause.kind
  | .region cause => "Region." ++ cause.kind
  | .exhausted _ => "Exhausted"

/-- Chunks, pools, and the count of what was handed out. -/
structure Arena where
  index : Nat
  geometry : Geometry
  /-- Decides which requests for memory are met. -/
  supply : Supply
  /-- The requests for memory made so far; each names the region it asks for. -/
  requests : Nat
  chunks : Nodes Chunk
  lists : BandLists
  pools : SubpagePools
  /-- The thread caches bound to the arena. -/
  numCaches : Nat
  allocations : ClassCounts
  deallocations : ClassCounts
  /-- The bytes of the regions handed out whole. -/
  hugeBytes : Nat

namespace Arena

/-- An arena without chunks. -/
def empty (index : Nat) (g : Geometry) (supply : Supply) : Arena where
  index := index
  geometry := g
  supply := supply
  requests := 0
  chunks := Slab.empty
  lists := BandLists.empty g.chunkSize
  pools := SubpagePools.empty g
  numCaches := 0
  allocations := {}
  deallocations := {}
  hugeBytes := 0

instance : Inhabited Arena := ⟨empty 0 ⟨4096, 0, 0⟩ fun _ => Provider.unsupported⟩

/-- One more cache is bound to the arena. -/
def bindCache (a : Arena) : Arena := { a with numCaches := a.numCaches + 1 }

/-- One cache fewer is bound to the arena. -/
def unbindCache (a : Arena) : Arena := { a with numCaches := a.numCaches - 1 }

-- ---------------------------------------------------------------------------
-- Allocation
-- ---------------------------------------------------------------------------

/-- Counts a block of a class as handed out. -/
def countAllocation (a : Arena) (k : SizeClass) : Arena :=
  { a with allocations := a.allocations.increment k }

/-- Serves a size with a region of its own. -/
def allocateUnpooled (a : Arena) (size : Nat) : Except ArenaError Block × Arena :=
  let request := a.requests
  let a := { a with requests := request + 1 }
  match Region.allocate (a.supply request) request size (max a.geometry.alignment 1) with
  | .error cause => (.error (.region cause), a)
  | .ok region =>
    (.ok (Block.unpooled region size),
      { a.countAllocation .huge with hugeBytes := a.hugeBytes + size })

/-- Asks the bands one after the other for room. -/
def allocateListed (a : Arena) (size : Nat) : List Band → Option (Block × Arena)
  | [] => none
  | band :: rest =>
    match a.lists.allocate a.chunks a.pools band size with
    | some (block, lists, chunks, pools) => some (block, { a with lists, chunks, pools })
    | none => allocateListed a size rest

/-- Takes a new chunk in and serves a size from it. -/
def allocateFrom (a : Arena) (k : SizeClass) (size : Nat) (chunk : Chunk) :
    Except ArenaError Block × Arena :=
  let (block?, chunk, pools) := match chunk.allocate a.pools size with
    | some (block, chunk, pools) => (some block, chunk, pools)
    | none => (none, chunk, a.pools)
  let (key, chunks) := a.chunks.insertValue chunk
  let (lists, chunks) := a.lists.add chunks .fresh key.index
  let a := { a with lists, chunks, pools }
  match block? with
  | some block => (.ok block, a.countAllocation k)
  | none => (.error (.exhausted size), a)

/-- Serves a size from a chunk: one with room, or else a new one. Where no chunk can be had, a
region of its own serves it. -/
def allocateChunked (a : Arena) (k : SizeClass) (size : Nat) : Except ArenaError Block × Arena :=
  match a.allocateListed size Band.searchOrder with
  | some (block, a) => (.ok block, a.countAllocation k)
  | none =>
    let request := a.requests
    let a := { a with requests := request + 1 }
    match Chunk.allocateNew (a.supply request) request a.chunks.nextKey a.geometry with
    | .error _ => a.allocateUnpooled size
    | .ok chunk => a.allocateFrom k size chunk

/-- A slot of the pool that serves a tiny or small size. -/
def allocateSlot (a : Arena) (k : SizeClass) (size : Nat) : Option (Block × Arena) := do
  let index := Geometry.poolIndex size
  let pool ← a.pools[index]?
  let (block, pool) ← pool.take?
  return (block, { a with pools := a.pools.setIfInBounds index pool }.countAllocation k)

/-- Serves a normalized size of a class without any cache. -/
def allocateClass (a : Arena) (k : SizeClass) (size : Nat) : Except ArenaError Block × Arena :=
  match k with
  | .tiny | .small =>
    match a.allocateSlot k size with
    | some (block, a) => (.ok block, a)
    | none => a.allocateChunked k size
  | .normal => a.allocateChunked k size
  | .huge => a.allocateUnpooled size

/-- The block of no bytes, which no count knows of. -/
def emptyBlock : Block := Block.unpooled Region.nothing 0

/-- A block for a request. -/
def allocate (a : Arena) (request : Nat) : Except ArenaError Block × Arena :=
  let size := a.geometry.normalize request
  if size = 0 then (.ok emptyBlock, a)
  else a.allocateClass (a.geometry.sizeClass size) size

-- ---------------------------------------------------------------------------
-- Giving back
-- ---------------------------------------------------------------------------

/-- Counts a block of a class as given back. -/
def countDeallocation (a : Arena) (k : SizeClass) : Arena :=
  { a with deallocations := a.deallocations.increment k }

/-- Gives a block back to its chunk. A chunk that drops out of its bands leaves the arena. -/
def freeChunk (a : Arena) (id : ChunkId) (handle : Handle) (k : SizeClass) :
    Except ArenaError Unit × Arena :=
  match a.chunks.get? id with
  | none => (.error (.staleChunk id), a)
  | some _ =>
    match a.lists.free a.chunks a.pools id.index handle with
    | .error cause => (.error (.chunk cause), a)
    | .ok (fate, lists, chunks, pools) =>
      let chunks := match fate, chunks.remove id with
        | .dropped, some (_, chunks) => chunks
        | _, _ => chunks
      (.ok (), { a with lists, chunks, pools }.countDeallocation k)

/-- Takes back a region that was handed out whole. The block of no bytes counts nowhere. -/
def freeUnpooled (a : Arena) (capacity : Nat) : Arena :=
  if capacity > 0 then
    { a.countDeallocation .huge with hugeBytes := a.hugeBytes - capacity }
  else a

/-- Takes a block back, past any cache. -/
def free (a : Arena) (block : Block) : Except ArenaError Unit × Arena :=
  match block.origin with
  | .unpooled => (.ok (), a.freeUnpooled block.capacity)
  | .pooled id handle => a.freeChunk id handle (a.geometry.sizeClass block.capacity)

-- ---------------------------------------------------------------------------
-- Checking
-- ---------------------------------------------------------------------------

/-- The number of chunks. -/
def numChunks (a : Arena) : Nat := a.chunks.size

/-- Every chunk, by slot. -/
def chunkList (a : Arena) : List Chunk := a.chunks.entries.map fun entry => entry.2.value

/-- The bytes that are free in some chunk. The pages of subpages are not. -/
def freeBytes (a : Arena) : Nat := total (a.chunkList.map (·.freeBytes))

/-- Checks the tree of every chunk and the count of every subpage; the first fault is the error. -/
def verify (a : Arena) : Except ArenaError Unit :=
  let checks : Except ChunkError Unit := do
    a.chunkList.forM Chunk.verify
    a.pools.toList.forM fun pool => pool.toList.forM Subpage.verify
  checks.mapError .chunk

/-- The arena in one line, for a reader of diagnostics. -/
def diagnose (a : Arena) : String :=
  "Arena \x7b index: " ++ toString a.index
    ++ ", chunk_size: " ++ toString a.geometry.chunkSize
    ++ ", num_thread_caches: " ++ toString a.numCaches ++ " \x7d"

end Arena

end BlockPool
