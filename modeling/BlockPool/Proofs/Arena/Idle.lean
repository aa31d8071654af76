import BlockPool.Proofs.Arena.Bookkeeping
import BlockPool.Proofs.Arena.Tally

/-!
# BlockPool — an arena with nothing out

Once every block has come back, from callers and from caches alike, no node of a chunk is taken for
a run and no slot of a subpage is in use. What is left are the pages that the pools keep for the
next request, one for each pool at most, so each chunk is free but for the pages that it hosts.

* `Chunk.Idle` — a chunk that names no block.
* `Arena.hostedBy` — the subpages that are pages of a chunk.
* `Session.run_nothing_left` — nothing leaks.
-/

namespace BlockPool

open SubpagePools (subpageAt?)

-- ---------------------------------------------------------------------------
-- Chunks that name no block
-- ---------------------------------------------------------------------------

namespace Chunk

variable {c : Chunk} {pools : SubpagePools} {record : LeafRecord} {p : Subpage} {node : Nat}

/-- No handle of the chunk names a block. -/
def Idle (c : Chunk) (pools : SubpagePools) : Prop := ∀ handle, c.blockAt? pools handle = none

/-- A slot in use would be a block. -/
theorem Sound.isUsed_of_idle (h : c.Sound pools) (hPools : SubpagePools.Sound c.geometry pools)
    (hIdle : c.Idle pools) (hFound : subpageAt? pools record = some p) (hChunk : p.chunk = c.id)
    (slot : Nat) : p.isUsed slot = false := by
  obtain ⟨hSub, -⟩ := hPools.subpage record p hFound
  by_contra hFree
  have hUsed : p.isUsed slot = true := by simpa using hFree
  have hNumber := h.slot_toNat hSub (hSub.slot_lt hUsed)
  have hNone := hIdle (Handle.subpage p.node (UInt32.ofNat slot))
  rw [h.blockAt?_page hFound hChunk (show (Handle.subpage ..).node = p.node from rfl),
    Handle.subpage, Option.bind_some, Subpage.live?, hNumber, if_pos hUsed] at hNone
  exact absurd hNone (by simp)

/-- A taken node that is not divided would be a block. -/
theorem Sound.exists_record_of_idle (h : c.Sound pools) (hIdle : c.Idle pools)
    (hTaken : c.tree.isTaken node = true) : ∃ record, c.leafRecord? node = some record := by
  refine Option.ne_none_iff_exists'.mp fun hNone => ?_
  have hNumber := h.toNat_ofNat (h.tree.lt_of_isTaken hTaken)
  have hBlock := hIdle (Handle.run (UInt32.ofNat node))
  rw [blockAt?_run (by rw [Handle.run, hNumber, hNone]), if_pos ⟨rfl, by rwa [Handle.run, hNumber]⟩]
    at hBlock
  exact absurd hBlock (by simp)

/-- Subpages of the chunk under different records are pages of different nodes. -/
theorem Sound.node_ne (h : c.Sound pools) {record' : LeafRecord} {q : Subpage}
    (hp : subpageAt? pools record = some p) (hq : subpageAt? pools record' = some q)
    (hpChunk : p.chunk = c.id) (hqChunk : q.chunk = c.id) (hNe : record ≠ record') :
    p.node.toNat ≠ q.node.toNat := by
  intro hEq
  have hRecord := h.recorded record p hp hpChunk
  rw [hEq, h.recorded record' q hq hqChunk] at hRecord
  exact hNe (Option.some.inj hRecord).symm

/-- A chunk that names no block is free but for its divided pages. -/
theorem Sound.freeBytes_of_idle (h : c.Sound pools) (hIdle : c.Idle pools) {pages : List Nat}
    (hNodup : pages.Nodup)
    (hPages : ∀ node, node ∈ pages ↔ ∃ record, c.leafRecord? node = some record) :
    c.freeBytes + c.geometry.pageSize * pages.length = c.size := by
  have hTaken : c.tree.taken.members = pages.toFinset := by
    ext node
    rw [Buddy.mem_taken, List.mem_toFinset, hPages]
    exact ⟨h.exists_record_of_idle hIdle,
      fun ⟨record, hRecord⟩ => (h.divided node record hRecord).1⟩
  have hLength : ∀ node ∈ pages.toFinset, c.runLength node = c.geometry.pageSize := by
    intro node hMem
    obtain ⟨record, hRecord⟩ := (hPages node).mp (List.mem_toFinset.mp hMem)
    exact h.runLength_of_leaf (h.divided node record hRecord).1
      (numPages_le_of_leafRecord? hRecord)
  have hCount := h.freeBytes
  rw [takenBytes, hTaken, Finset.sum_const_nat hLength, List.toFinset_card_of_nodup hNodup,
    mul_comm] at hCount
  exact hCount

end Chunk

-- ---------------------------------------------------------------------------
-- Pages of one chunk
-- ---------------------------------------------------------------------------

namespace Arena

variable {a : Arena} {id : ChunkId} {c : Chunk} {p : Subpage}

/-- The subpages that are pages of a chunk, pool by pool. -/
def hostedBy (a : Arena) (id : ChunkId) : List Subpage :=
  a.pools.toList.flatMap fun pool => pool.toList.filter fun p => decide (p.chunk = id)

theorem mem_hostedBy :
    p ∈ a.hostedBy id ↔ (∃ record, subpageAt? a.pools record = some p) ∧ p.chunk = id := by
  simp only [hostedBy, List.mem_flatMap, List.mem_filter, SubpagePool.mem_toList, decide_eq_true_eq]
  constructor
  · rintro ⟨pool, hMem, ⟨key, hKey⟩, hChunk⟩
    obtain ⟨i, hAt⟩ := List.mem_iff_getElem?.mp hMem
    rw [Array.getElem?_toList] at hAt
    exact ⟨⟨⟨i, key⟩, (SubpagePools.subpageAt?_of_pool hAt key).trans hKey⟩, hChunk⟩
  · rintro ⟨⟨record, hFound⟩, hChunk⟩
    obtain ⟨pool, hAt, hKey⟩ := Option.bind_eq_some_iff.mp hFound
    refine ⟨pool, ?_, ⟨record.key, hKey⟩, hChunk⟩
    rw [← Array.getElem?_toList] at hAt
    exact List.mem_of_getElem? hAt

/-- No two subpages of a chunk are pages of one node. -/
theorem pairwise_hostedBy (hChunk : c.Sound a.pools) :
    (a.hostedBy c.id).Pairwise fun p q => p.node.toNat ≠ q.node.toNat := by
  have hGet : ∀ {i : Nat} {pool : SubpagePool}, a.pools.toList[i]? = some pool → ∀ key,
      subpageAt? a.pools ⟨i, key⟩ = pool.get? key := by
    intro i pool hAt
    rw [Array.getElem?_toList] at hAt
    exact SubpagePools.subpageAt?_of_pool hAt
  refine List.pairwise_flatMap.mpr ⟨fun pool hMem => ?_, List.pairwise_iff_getElem.mpr ?_⟩
  · -- in one pool the keys are different
    obtain ⟨i, hAt⟩ := List.mem_iff_getElem?.mp hMem
    refine List.pairwise_filter.mpr (List.pairwise_map.mpr ?_)
    refine pool.subpages.pairwise_entries.imp_of_mem fun {e e'} he he' hNe hp hq => ?_
    refine hChunk.node_ne ((hGet hAt e.1).trans (SubpagePool.get?_of_mem_entries he))
      ((hGet hAt e'.1).trans (SubpagePool.get?_of_mem_entries he')) (by simpa using hp)
      (by simpa using hq) ?_
    intro hEq
    exact hNe (congrArg (fun record => record.key.index) hEq)
  · -- subpages of different pools are under records of different pools
    intro i j hi hj hLt p hp q hq
    simp only [List.mem_filter, decide_eq_true_eq] at hp hq
    obtain ⟨⟨key, hKey⟩, hpChunk⟩ := hp.imp_left SubpagePool.mem_toList.mp
    obtain ⟨⟨key', hKey'⟩, hqChunk⟩ := hq.imp_left SubpagePool.mem_toList.mp
    refine hChunk.node_ne ((hGet (List.getElem?_eq_getElem hi) key).trans hKey)
      ((hGet (List.getElem?_eq_getElem hj) key').trans hKey') hpChunk hqChunk fun hEq => ?_
    exact hLt.ne (congrArg (·.pool) hEq)

/-- The nodes of the subpages of a chunk are those that it has on record. -/
theorem mem_nodes_hostedBy (hChunk : c.Sound a.pools) {node : Nat} :
    node ∈ (a.hostedBy c.id).map (·.node.toNat) ↔ ∃ record, c.leafRecord? node = some record := by
  rw [List.mem_map]
  constructor
  · rintro ⟨p, hMem, rfl⟩
    obtain ⟨⟨record, hFound⟩, hHost⟩ := mem_hostedBy.mp hMem
    exact ⟨record, hChunk.recorded record p hFound hHost⟩
  · rintro ⟨record, hRecord⟩
    obtain ⟨hTaken, p, hFound, hPage⟩ := hChunk.divided node record hRecord
    refine ⟨p, mem_hostedBy.mpr ⟨⟨record, hFound⟩, hPage.chunk⟩, ?_⟩
    rw [hPage.node, hChunk.toNat_ofNat (hChunk.tree.lt_of_isTaken hTaken)]

-- ---------------------------------------------------------------------------
-- Nothing out
-- ---------------------------------------------------------------------------

/-- If the arena owes nothing, its chunks name no block. -/
theorem Owes.idle (h : a.Owes []) (hFound : a.chunks.find? id = some c) : c.Idle a.pools := by
  intro handle
  by_contra hSome
  obtain ⟨block, hBlock⟩ := Option.ne_none_iff_exists'.mp hSome
  have hHere : a.blockAt? id handle = some block :=
    (blockAt?_of_chunkAt? (BandLists.chunkAt?_of_find? hFound) handle).trans hBlock
  exact absurd ((h.pooled id handle block).mp hHere).1 (by simp)

/-- If the arena owes nothing, a chunk is free but for the pages of its subpages. -/
theorem Sound.freeBytes_of_owes_nil (h : a.Sound) (hOwes : a.Owes [])
    (hFound : a.chunks.find? id = some c) :
    c.freeBytes + a.geometry.pageSize * (a.hostedBy id).length = a.geometry.chunkSize := by
  obtain ⟨rfl, hGeometry, hChunk⟩ := h.hosts_of_find? hFound
  have hPages := hChunk.freeBytes_of_idle (hOwes.idle hFound)
    (List.pairwise_map.mpr (pairwise_hostedBy hChunk)) fun _ => mem_nodes_hostedBy hChunk
  rwa [List.length_map, Chunk.size, hGeometry] at hPages

/-- If the arena owes nothing, no slot of a subpage is in use. -/
theorem Sound.isUsed_of_owes_nil (h : a.Sound) (hOwes : a.Owes []) {i : Nat} {pool : SubpagePool}
    (hPool : a.pools[i]? = some pool) (hMem : p ∈ pool.toList) (slot : Nat) :
    p.isUsed slot = false := by
  obtain ⟨key, hKey⟩ := SubpagePool.mem_toList.mp hMem
  have hFound : subpageAt? a.pools ⟨i, key⟩ = some p :=
    (SubpagePools.subpageAt?_of_pool hPool key).trans hKey
  have hOwner := h.owner _ p hFound
  rw [isSome_chunkAt?] at hOwner
  obtain ⟨c, hChunkFound⟩ := Option.isSome_iff_exists.mp hOwner
  obtain ⟨hId, hGeometry, hChunk⟩ := h.hosts_of_find? hChunkFound
  exact hChunk.isUsed_of_idle (hGeometry ▸ h.pools) (hOwes.idle hChunkFound) hFound hId.symm slot

/-- If the arena owes nothing, every pool has one subpage at most. -/
theorem Sound.length_toList_of_owes_nil (h : a.Sound) (hOwes : a.Owes [])
    (hTidy : SubpagePools.Tidy a.pools) {i : Nat} {pool : SubpagePool}
    (hPool : a.pools[i]? = some pool) : pool.toList.length ≤ 1 := by
  refine (hTidy.pool i pool hPool).length_toList_le_one fun p hMem => ?_
  obtain ⟨key, hKey⟩ := SubpagePool.mem_toList.mp hMem
  exact (h.pools.slots h.geometry hPool hKey).1.isEmpty_iff.mpr
    (h.isUsed_of_owes_nil hOwes hPool hMem)

/-- A chunk with all its bytes free is in the first band. -/
theorem Orderly.fresh_of_free (h : a.Orderly) (hSize : 0 < c.size)
    (hFound : a.chunks.find? id = some c) (hFree : c.freeBytes = c.size) :
    c.band = some .fresh ∧ id.index ∈ a.lists.members a.chunks .fresh := by
  have hValue := Nodes.value?_of_find? hFound
  obtain ⟨band, hBand, hCovers⟩ := h.bands.placed id.index c hValue
  rw [Chunk.usage_eq_zero hSize hFree] at hCovers
  obtain rfl := Band.Covers.eq_fresh hCovers
  exact ⟨hBand, h.bands.mem_members.mpr ⟨c, hValue, hBand⟩⟩

end Arena

namespace Session

variable {g : Geometry}

/-- Nothing leaks. Once callers hold no block and all caches are dropped, each pool has one subpage
at most, with no slot in use; each chunk is free but for the pages of its subpages, and is in the
first band if it is all free; no bytes of regions handed out whole are out; and of each class as
many blocks were given back as handed out. -/
theorem run_nothing_left (hg : g.WellFormed) (index : Nat) (supply : Supply) (ops : List Op)
    (hHeld : ((start index g supply).run ops).held = [])
    (hCaches : ((start index g supply).run ops).caches = []) :
    let a := ((start index g supply).run ops).arena
    (∀ (i : Nat) (pool : SubpagePool), a.pools[i]? = some pool →
      pool.toList.length = pool.size ∧ pool.toList.length ≤ 1 ∧
        ∀ p ∈ pool.toList, ∀ slot, p.isUsed slot = false) ∧
    (∀ id c, a.chunks.find? id = some c →
      c.freeBytes ≤ g.chunkSize ∧
      g.chunkSize - c.freeBytes = g.pageSize * (a.hostedBy id).length ∧
      (c.freeBytes = g.chunkSize →
        c.band = some .fresh ∧ id.index ∈ a.lists.members a.chunks .fresh)) ∧
    a.hugeBytes = 0 ∧ ∀ k, a.allocations.get k = a.deallocations.get k := by
  intro a
  have hRun : ((start index g supply).run ops).Sound g := (sound_start hg index supply).run ops
  -- with no holder and no cache nothing is owed
  have hBlocks : ((start index g supply).run ops).blocks = [] := by
    rw [blocks, hHeld, hCaches]
    rfl
  have hSound : a.Sound := hRun.arena
  have hGeometry : a.geometry = g := hRun.geometry
  have hOwes : a.Owes [] := hBlocks ▸ hRun.owes
  have hOrderly : a.Orderly := orderly_run hg index supply ops
  have hTallied : a.Tallied [] := hBlocks ▸ tallied_run hg index supply ops
  refine ⟨fun i pool hPool => ⟨?_, ?_, fun p hMem => ?_⟩, fun id c hFound => ?_,
    hTallied.hugeBytes, hTallied.classes⟩
  · exact (hOrderly.pools.pool i pool hPool).length_toList (hSound.pools.slab i pool hPool)
  · exact hSound.length_toList_of_owes_nil hOwes hOrderly.pools hPool
  · exact hSound.isUsed_of_owes_nil hOwes hPool hMem
  -- the bytes in use are those of the pages that are left
  · have hPages := hSound.freeBytes_of_owes_nil hOwes hFound
    obtain ⟨-, hSame, hChunk⟩ := hSound.hosts_of_find? hFound
    rw [hGeometry] at hPages hSame
    refine ⟨by omega, by omega, fun hFree => hOrderly.fresh_of_free ?_ hFound ?_⟩
    · rw [Chunk.size, hSame, hg.chunkSize_eq]
      exact Nat.two_pow_pos _
    · rw [Chunk.size, hSame, hFree]

/-- All blocks came back, one of them through a cache that was then dropped, and one page is left
that is divided into slots. -/
theorem run_nothing_left_one_page :
    (⟨4096, 1, 0⟩ : Geometry).WellFormed ∧ ∃ s : Session,
      s = (start 0 ⟨4096, 1, 0⟩ fun _ => Provider.below (2 ^ 20)).run
        [.bind (PoolConfig.defaults 1), .allocateVia 0 100, .allocate 4096, .allocate 20000,
          .free 0, .free 0, .freeVia 0 0, .drop 0] ∧
      s.held = [] ∧ s.caches = [] ∧ s.arena.hugeBytes = 0 ∧
        s.arena.allocations.get .huge = s.arena.deallocations.get .huge ∧
        ∃ c, s.arena.chunks.find? ⟨0, 0⟩ = some c ∧ c.freeBytes = 4096 ∧
          (s.arena.hostedBy ⟨0, 0⟩).length = 1 := by
  have hLeft := run_nothing_left Geometry.wellFormed_two_pages 0
    (fun _ => Provider.below (2 ^ 20)) [.bind (PoolConfig.defaults 1), .allocateVia 0 100,
      .allocate 4096, .allocate 20000, .free 0, .free 0, .freeVia 0 0, .drop 0]
  generalize hRun : (start 0 ⟨4096, 1, 0⟩ fun _ => Provider.below (2 ^ 20)).run
    [.bind (PoolConfig.defaults 1), .allocateVia 0 100, .allocate 4096, .allocate 20000,
      .free 0, .free 0, .freeVia 0 0, .drop 0] = s at hLeft ⊢
  have hHeld : s.held = [] := by
    rw [← hRun]
    exact List.length_eq_zero_iff.mp (by decide +kernel)
  have hCaches : s.caches = [] := by
    rw [← hRun]
    exact List.length_eq_zero_iff.mp (by decide +kernel)
  obtain ⟨c, hFound, hFree⟩ : ∃ c, s.arena.chunks.find? ⟨0, 0⟩ = some c ∧ c.freeBytes = 4096 := by
    rw [← Option.map_eq_some_iff, ← hRun]
    decide +kernel
  obtain ⟨-, hChunks, hHuge, hClasses⟩ := hLeft hHeld hCaches
  obtain ⟨-, hPages, -⟩ := hChunks ⟨0, 0⟩ c hFound
  -- of the 8192 bytes 4096 are missing, which are those of one page
  rw [hFree, show (⟨4096, 1, 0⟩ : Geometry).chunkSize = 8192 from by decide] at hPages
  have hLength : (s.arena.hostedBy ⟨0, 0⟩).length = 1 :=
    (Nat.eq_of_mul_eq_mul_left (by decide : 0 < 4096) hPages).symm
  exact ⟨Geometry.wellFormed_two_pages, s, rfl, hHeld, hCaches, hHuge, hClasses .huge, c, hFound,
    hFree, hLength⟩

end Session

end BlockPool
