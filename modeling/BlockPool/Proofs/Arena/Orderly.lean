import BlockPool.Proofs.Arena.Exchange
import BlockPool.Proofs.Chunk.Sorted
import BlockPool.Proofs.Chunk.Tidy

/-!
# BlockPool — order in an arena

In between two requests the chunks of an arena are in order of usage and its pools are tidy. Neither
depends on which blocks are out: a block that comes out or goes back changes one chunk and one pool,
and a chunk that comes in or leaves takes its place in the bands, or gives it up.

* `Arena.Orderly` — the chunks are sorted and the pools are tidy.
* `Arena.Orderly.allocate`, `Arena.Orderly.free` — and are so after every request and return.
-/

namespace BlockPool

namespace Arena

variable {a a' : Arena} {id : ChunkId} {c : Chunk} {block : Block} {k : SizeClass} {size : Nat}
  {handle : Handle}

/-- What an arena satisfies in between two requests, besides being sound. -/
structure Orderly (a : Arena) : Prop where
  bands : a.lists.Sorted a.chunks
  pools : SubpagePools.Tidy a.pools

theorem orderly_empty (index : Nat) (g : Geometry) (supply : Supply) :
    (empty index g supply).Orderly :=
  ⟨BandLists.sorted_empty g.chunkSize, SubpagePools.tidy_empty g⟩

/-- A chunk of the arena has the geometry of the arena. -/
theorem Sound.geometry_of_value? (h : a.Sound) {i : Nat} (hValue : a.chunks.value? i = some c) :
    c.geometry = a.geometry := by
  obtain ⟨id, -, hFound⟩ := Nodes.exists_find?_of_value? hValue
  obtain ⟨-, hGeometry, -⟩ := h.hosts_of_find? hFound
  exact hGeometry

-- ---------------------------------------------------------------------------
-- Requests
-- ---------------------------------------------------------------------------

theorem Orderly.allocateUnpooled (h : a.Orderly) (size : Nat) :
    (a.allocateUnpooled size).2.Orderly := by
  unfold Arena.allocateUnpooled
  dsimp only
  split
  · exact ⟨h.bands, h.pools⟩
  · exact ⟨h.bands, h.pools⟩

theorem Orderly.allocateSlot (h : a.Orderly) (hSound : a.Sound)
    (hSlot : a.allocateSlot k size = some (block, a')) : a'.Orderly := by
  obtain ⟨pool, pool', hPool, hTake, rfl⟩ := allocateSlot_eq_some hSlot
  exact ⟨h.bands, h.pools.take hSound.pools hPool hTake⟩

theorem Orderly.allocateListed (h : a.Orderly) (hSound : a.Sound) (hPos : 0 < size)
    {bands : List Band} (hListed : a.allocateListed size bands = some (block, a')) :
    a'.Orderly := by
  obtain ⟨band, -, lists, chunks, pools, hBand, rfl⟩ := allocateListed_eq_some hListed
  obtain ⟨index, c, c', -, hValue, hServed, -⟩ := BandLists.allocate_cases hBand
  have hPools : SubpagePools.Sound c.geometry a.pools :=
    hSound.geometry_of_value? hValue ▸ hSound.pools
  exact ⟨h.bands.allocate hBand, h.pools.allocate hPools hPos hServed⟩

/-- A new chunk comes in, whether or not it can serve the request. -/
theorem Orderly.allocateFrom (h : a.Orderly) (hSound : a.Sound) (hPos : 0 < size)
    (hGeometry : c.geometry = a.geometry) (hNone : c.band = none) (hFree : c.freeBytes ≤ c.size)
    (k : SizeClass) : (a.allocateFrom k size c).2.Orderly := by
  unfold Arena.allocateFrom
  cases hAllocate : c.allocate a.pools size with
  | none => exact ⟨h.bands.enter hSound.slab hNone hFree, h.pools⟩
  | some served =>
    obtain ⟨block, c', pools'⟩ := served
    obtain ⟨hBand, hSize, hBytes⟩ := Chunk.allocate_frame hAllocate
    have hPools : SubpagePools.Sound c.geometry a.pools := hGeometry ▸ hSound.pools
    refine ⟨h.bands.enter hSound.slab (hBand.trans hNone) ?_,
      h.pools.allocate hPools hPos hAllocate⟩
    rw [hSize]
    exact hBytes.trans hFree

theorem Orderly.allocateChunked (h : a.Orderly) (hSound : a.Sound) (hPos : 0 < size)
    (k : SizeClass) : (a.allocateChunked k size).2.Orderly := by
  unfold Arena.allocateChunked
  split
  · rename_i block listed hListed
    obtain ⟨hBands, hPools⟩ := h.allocateListed hSound hPos hListed
    exact ⟨hBands, hPools⟩
  · have hAsked : Orderly { a with requests := a.requests + 1 } := ⟨h.bands, h.pools⟩
    have hSame : a.Resembles { a with requests := a.requests + 1 } :=
      ⟨rfl, rfl, rfl, Nat.le_succ _⟩
    dsimp only
    split
    · exact hAsked.allocateUnpooled size
    · rename_i hNew
      obtain ⟨region, -, rfl⟩ := Chunk.allocateNew_eq_ok hNew
      exact hAsked.allocateFrom (hSame.sound hSound) hPos rfl rfl (Nat.le_refl _) k

/-- Every request leaves the arena in order, whichever way it is served. -/
theorem Orderly.allocate (h : a.Orderly) (hSound : a.Sound) (request : Nat) :
    (a.allocate request).2.Orderly := by
  unfold Arena.allocate
  dsimp only
  split
  · exact h
  · rename_i hPos
    have hChunked := fun k => h.allocateChunked hSound (Nat.pos_of_ne_zero hPos) k
    unfold allocateClass
    split
    · split
      · rename_i hSlot
        exact h.allocateSlot hSound hSlot
      · exact hChunked _
    · split
      · rename_i hSlot
        exact h.allocateSlot hSound hSlot
      · exact hChunked _
    · exact hChunked _
    · exact h.allocateUnpooled _

-- ---------------------------------------------------------------------------
-- Returns
-- ---------------------------------------------------------------------------

/-- A block goes back to its chunk, which moves down or leaves the arena if it has to. -/
theorem Orderly.freeChunk (h : a.Orderly) (hSound : a.Sound) (id : ChunkId) (handle : Handle)
    (k : SizeClass) : (a.freeChunk id handle k).2.Orderly := by
  unfold Arena.freeChunk
  split
  · exact h
  · rename_i node hNode
    split
    · exact h
    · rename_i fate lists chunks pools hFree
      have hFound : a.chunks.find? id = some node.value := by rw [Nodes.find?, hNode]; rfl
      obtain ⟨c', hTaken, hRebanded, -⟩ := BandLists.free_eq_ok hFound hFree
      have hGeometry : node.value.geometry = a.geometry :=
        hSound.geometry_of_value? (Nodes.value?_of_find? hFound)
      have hSlab := hRebanded.sound ((Nodes.sameKeys_putValue ..).sound hSound.slab)
      have hPools : SubpagePools.Tidy pools :=
        h.pools.free (hGeometry ▸ hSound.geometry) (hGeometry ▸ hSound.pools) hTaken
      rcases h.bands.free hFree with ⟨rfl, hSorted⟩ | ⟨rfl, hFiled, c, hNone, hPuts⟩
      · exact ⟨hSorted, hPools⟩
      · -- the chunk that dropped out is still in its slot, and goes
        obtain ⟨last, hLast, -⟩ := Option.map_eq_some_iff.mp
          ((hRebanded.chunkAt?_of_putValue hFound id).trans (if_pos rfl))
        obtain ⟨gone, rest, hRemove, -⟩ := Nodes.exists_remove hLast
        have hLeft := h.bands.leave hFiled hSlab hNone hPuts hRemove
        rw [hRemove]
        exact ⟨hLeft, hPools⟩

/-- Every return leaves the arena in order, whether or not the block is accepted. -/
theorem Orderly.free (h : a.Orderly) (hSound : a.Sound) (block : Block) :
    (a.free block).2.Orderly := by
  unfold Arena.free
  split
  · dsimp only
    unfold freeUnpooled
    split
    · exact ⟨h.bands, h.pools⟩
    · exact h
  · exact h.freeChunk hSound ..

end Arena

end BlockPool
