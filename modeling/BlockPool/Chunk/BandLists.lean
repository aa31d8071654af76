import BlockPool.Chunk.Basic

/-!
# BlockPool — chunks by utilization

`BandLists` holds a chain of chunks for each band. The chunks themselves are in a slab.

* `BandLists.allocate` — asks the chunks of one band for room; the one that serves the request
  moves up when it has become too full for its band.
* `BandLists.add` — takes a chunk in, in the band its usage asks for.
* `BandLists.free` — gives a block back; the chunk moves down when its usage has fallen below its
  band, and drops out below the lowest one.
-/

namespace BlockPool

/-- The chains of the six bands. -/
structure BandLists where
  chunkSize : Nat
  chains : Vector Chain 6

namespace BandLists

/-- Six chains without chunks. -/
def empty (chunkSize : Nat) : BandLists := ⟨chunkSize, Vector.replicate 6 Chain.empty⟩

instance : Inhabited BandLists := ⟨empty 0⟩

/-- The chain of a band. -/
def chain (lists : BandLists) (band : Band) : Chain := lists.chains.get band.index

/-- Puts another chain in place of a band's. -/
def setChain (lists : BandLists) (band : Band) (chain : Chain) : BandLists :=
  { lists with chains := lists.chains.set band.index chain }

/-- The chunks of a band, from the front on. -/
def members (lists : BandLists) (chunks : Nodes Chunk) (band : Band) : List Nat :=
  (lists.chain band).toList chunks

/-- Names the band that holds a chunk. -/
def label (chunks : Nodes Chunk) (index : Nat) (band : Option Band) : Nodes Chunk :=
  match chunks.value? index with
  | some chunk => chunks.putValue index { chunk with band }
  | none => chunks

/-- Puts a chunk in front of a band's chain, unless it is in a chain already. -/
def link (lists : BandLists) (chunks : Nodes Chunk) (band : Band) (index : Nat) :
    BandLists × Nodes Chunk :=
  match (lists.chain band).pushFront chunks index with
  | some (chain, chunks) => (lists.setChain band chain, label chunks index (some band))
  | none => (lists, chunks)

/-- Takes a chunk out of the chain of its band. -/
def remove (lists : BandLists) (chunks : Nodes Chunk) (band : Band) (index : Nat) :
    BandLists × Nodes Chunk :=
  match (lists.chain band).unlink chunks index with
  | some (chain, chunks) => (lists.setChain band chain, label chunks index none)
  | none => (lists, chunks)

/-- Takes a chunk in: into the band it is meant for, or a fuller one if its usage asks for it. -/
def add (lists : BandLists) (chunks : Nodes Chunk) (band : Band) (index : Nat) :
    BandLists × Nodes Chunk :=
  match chunks.value? index with
  | some chunk => lists.link chunks (band.accept chunk.usage) index
  | none => (lists, chunks)

-- ---------------------------------------------------------------------------
-- Allocation
-- ---------------------------------------------------------------------------

/-- The first of some chunks with room for a size. A slot without a chunk ends the search. -/
def firstFit (chunks : Nodes Chunk) (pools : SubpagePools) (size : Nat) :
    List Nat → Option (Nat × Block × Chunk × SubpagePools)
  | [] => none
  | index :: rest =>
    match chunks.value? index with
    | none => none
    | some chunk =>
      match chunk.allocate pools size with
      | some (block, chunk, pools) => some (index, block, chunk, pools)
      | none => firstFit chunks pools size rest

/-- Asks the chunks of a band for room, unless the size is more than any of them can be expected
to have. A chunk that reaches the band's upper bound moves on. -/
def allocate (lists : BandLists) (chunks : Nodes Chunk) (pools : SubpagePools) (band : Band)
    (size : Nat) : Option (Block × BandLists × Nodes Chunk × SubpagePools) :=
  if (lists.chain band).isEmpty ∨ size > band.maxCapacity lists.chunkSize then none
  else
    match firstFit chunks pools size (lists.members chunks band) with
    | none => none
    | some (index, block, chunk, pools) =>
      let chunks := chunks.putValue index chunk
      if chunk.usage ≥ band.maxUsage then
        let (lists, chunks) := lists.remove chunks band index
        match band.next? with
        | some above =>
          let (lists, chunks) := lists.add chunks above index
          some (block, lists, chunks, pools)
        | none => some (block, lists, chunks, pools)
      else some (block, lists, chunks, pools)

-- ---------------------------------------------------------------------------
-- Giving back
-- ---------------------------------------------------------------------------

/-- What became of the chunk that a block was given back to. -/
inductive Fate where
  | kept
  /-- The chunk fell out of the lowest band. -/
  | dropped
deriving DecidableEq, Repr

/-- Gives a block back to a chunk. A chunk that is in a band and has fallen below it moves down. -/
def free (lists : BandLists) (chunks : Nodes Chunk) (pools : SubpagePools) (index : Nat)
    (handle : Handle) : Except ChunkError (Fate × BandLists × Nodes Chunk × SubpagePools) :=
  match chunks.value? index with
  | none => .error (.notAllocated handle)
  | some chunk =>
    match chunk.free pools handle with
    | .error e => .error e
    | .ok (chunk, pools) =>
      let chunks := chunks.putValue index chunk
      match chunk.band with
      | none => .ok (.kept, lists, chunks, pools)
      | some band =>
        if chunk.usage < band.minUsage then
          let (lists, chunks) := lists.remove chunks band index
          match band.demote? chunk.usage with
          | some below =>
            let (lists, chunks) := lists.link chunks below index
            .ok (.kept, lists, chunks, pools)
          | none => .ok (.dropped, lists, chunks, pools)
        else .ok (.kept, lists, chunks, pools)

end BandLists

end BlockPool
