import BlockPool.Arena.Metrics
import BlockPool.Proofs.Arena.Run
import BlockPool.Proofs.Total

/-!
# BlockPool — the books of an arena

What an arena writes down about itself agrees, after every run, with what is there: the bands hold
the chunks by their usage, and the leaf records of the chunks and the subpages of the pools point at
each other. No caller can spoil this, whatever blocks it gives back.

* `Arena.run_bands_sorted` — every chunk is in the one band that covers its usage.
* `Arena.run_leaves_match` — leaf records and subpages correspond one to one.
-/

namespace BlockPool

open SubpagePools (subpageAt?)

-- ---------------------------------------------------------------------------
-- Chunks and bands
-- ---------------------------------------------------------------------------

namespace Arena

variable {a : Arena} {g : Geometry} {id : ChunkId} {c : Chunk} {pool : SubpagePool} {i : Nat}

/-- The metrics show as many chunks as there are. -/
theorem Orderly.numChunks_metrics (h : a.Orderly) (hSound : a.Sound) :
    a.metrics.numChunks = a.numChunks := by
  have hLength : ∀ band, (a.bandMetrics band).chunks.length =
      (a.lists.members a.chunks band).length := by
    intro band
    refine List.filterMap_length_eq_length.mpr fun i hMem => ?_
    obtain ⟨c, hValue, -⟩ := h.bands.mem_members.mp hMem
    rw [hValue]
    rfl
  calc a.metrics.numChunks
      = total (Band.all.map fun band => (a.bandMetrics band).chunks.length) := by
        rw [ArenaMetrics.numChunks, metrics, List.map_map]
        rfl
    _ = (Band.all.flatMap fun band => a.lists.members a.chunks band).length := by
        rw [total_eq_sum, List.length_flatMap]
        simp only [hLength]
    _ = a.chunks.indices.length := h.bands.members_perm.length_eq
    _ = a.numChunks := by
        rw [Slab.indices, List.length_map, hSound.slab.length_entries h.bands.counted, numChunks]

/-- In every state, each chunk is in the chain of exactly one band, the one it names, and the chains
link nothing but chunks, each once; so the metrics show all chunks. The usage of a chunk lies within
the bounds of its band, and in the last band no byte of it is free. -/
theorem run_bands_sorted (hg : g.WellFormed) (index : Nat) (supply : Supply) (ops : List Op) :
    let a := (empty index g supply).run ops
    (∀ id c, a.chunks.find? id = some c →
      ∃ band, c.band = some band ∧
        (∀ other, id.index ∈ a.lists.members a.chunks other ↔ other = band) ∧
        band.minUsage ≤ c.usage ∧ c.usage < band.maxUsage ∧
        (band = .q100 → c.usage = 100 ∧ c.freeBytes = 0)) ∧
    (∀ band, (a.lists.chain band).Spells a.chunks (a.lists.members a.chunks band) ∧
      ∀ i ∈ a.lists.members a.chunks band, ∃ id c, id.index = i ∧ a.chunks.find? id = some c) ∧
    a.metrics.numChunks = a.numChunks := by
  intro a
  obtain ⟨-, hSound, h⟩ : a.Regular g := (regular_empty hg index supply).run ops
  refine ⟨fun id c hFound => ?_, fun band => ⟨h.bands.spells_members band, fun i hMem => ?_⟩,
    h.numChunks_metrics hSound⟩
  · have hValue := Nodes.value?_of_find? hFound
    obtain ⟨band, hBand, hLow, hHigh⟩ := h.bands.placed id.index c hValue
    refine ⟨band, hBand, fun other => ?_, hLow, hHigh, ?_⟩
    -- a chain links the chunks that name its band, and a chunk names one
    · rw [h.bands.mem_members, hValue]
      constructor
      · rintro ⟨c', hc', hOther⟩
        obtain rfl := Option.some.inj hc'
        exact Option.some.inj (hOther.symm.trans hBand)
      · rintro rfl
        exact ⟨c, rfl, hBand⟩
    · rintro rfl
      -- the last band begins where usage ends
      have hFull : c.usage = 100 := Int.le_antisymm (Chunk.usage_le_hundred c) hLow
      exact ⟨hFull, Chunk.hundred_le_usage_iff.mp hLow⟩
  · obtain ⟨c, hValue, -⟩ := h.bands.mem_members.mp hMem
    obtain ⟨id, hIndex, hFound⟩ := Nodes.exists_find?_of_value? hValue
    exact ⟨id, c, hIndex, hFound⟩

/-- Of two chunks of two pages each, one is full and the other is used by half. A page that is not
out came back as well. -/
theorem run_bands_sorted_full_and_half :
    (⟨4096, 1, 0⟩ : Geometry).WellFormed ∧
      let a := (empty 0 ⟨4096, 1, 0⟩ fun _ => Provider.below (2 ^ 20)).run
        [.allocate 8192, .allocate 4096, .freeChunk ⟨1, 0⟩ (.run 3) .normal]
      a.lists.members a.chunks .q100 = [0] ∧ a.lists.members a.chunks .q025 = [1] ∧
        a.metrics.numChunks = 2 ∧ ∃ c, a.chunks.find? ⟨0, 0⟩ = some c ∧ c.freeBytes = 0 := by
  refine ⟨Geometry.wellFormed_two_pages, ?_⟩
  intro a
  obtain ⟨hPlaced, -, hCount⟩ := run_bands_sorted Geometry.wellFormed_two_pages 0
    (fun _ => Provider.below (2 ^ 20))
    [.allocate 8192, .allocate 4096, .freeChunk ⟨1, 0⟩ (.run 3) .normal]
  have hFull : a.lists.members a.chunks .q100 = [0] := by decide +kernel
  obtain ⟨c, hFound⟩ : ∃ c, a.chunks.find? ⟨0, 0⟩ = some c :=
    Option.isSome_iff_exists.mp (by decide +kernel)
  obtain ⟨band, -, hMembers, -, -, hLast⟩ := hPlaced ⟨0, 0⟩ c hFound
  have hBand : Band.q100 = band := (hMembers .q100).mp (hFull ▸ List.mem_singleton_self 0)
  refine ⟨hFull, by decide +kernel, hCount.trans (by decide +kernel), c, hFound, ?_⟩
  exact (hLast hBand.symm).2

-- ---------------------------------------------------------------------------
-- Leaf records and subpages
-- ---------------------------------------------------------------------------

variable {node : Nat} {key : Slab.Key} {record : Chunk.LeafRecord} {p : Subpage}

/-- A leaf is recorded exactly if its record leads to the subpage of its page. -/
theorem Sound.leafRecord?_iff (h : a.Sound) (hTidy : SubpagePools.Tidy a.pools)
    (hFound : a.chunks.find? id = some c) :
    c.leafRecord? node = some record ↔
      ∃ pool p, a.pools[record.pool]? = some pool ∧ pool.get? record.key = some p ∧
        p.chunk = id ∧ p.node.toNat = node ∧ p.runOffset = c.runOffset node ∧
        p.elemSize = pool.elemSize := by
  obtain ⟨hId, -, hChunk⟩ := h.hosts_of_find? hFound
  constructor
  · intro hRecord
    obtain ⟨hTaken, p, hPage, hHas⟩ := hChunk.divided node record hRecord
    obtain ⟨pool, hPool, hKey⟩ := Option.bind_eq_some_iff.mp hPage
    have hElem := (h.pools.subpage record p hPage).2
    refine ⟨pool, p, hPool, hKey, hHas.chunk.trans hId, ?_, hHas.runOffset,
      hElem.trans (hTidy.elemSize _ pool hPool).symm⟩
    rw [hHas.node, hChunk.toNat_ofNat (hChunk.tree.lt_of_isTaken hTaken)]
  · rintro ⟨pool, p, hPool, hKey, hHost, rfl, -, -⟩
    have hPage : subpageAt? a.pools record = some p := by
      rw [subpageAt?, hPool, Option.bind_some, hKey]
    exact hChunk.recorded record p hPage (hHost.trans hId.symm)

/-- Every subpage is recorded by one leaf of one chunk. -/
theorem Sound.existsUnique_leaf (h : a.Sound) (hTidy : SubpagePools.Tidy a.pools)
    (hPool : a.pools[i]? = some pool) (hKey : pool.get? key = some p) :
    ∃! leaf : ChunkId × Nat, ∃ c, a.chunks.find? leaf.1 = some c ∧
      c.leafRecord? leaf.2 = some ⟨i, key⟩ := by
  have hPage : subpageAt? a.pools ⟨i, key⟩ = some p :=
    (SubpagePools.subpageAt?_of_pool hPool key).trans hKey
  have hOwner := h.owner _ p hPage
  rw [isSome_chunkAt?] at hOwner
  obtain ⟨c, hFound⟩ := Option.isSome_iff_exists.mp hOwner
  obtain ⟨hId, -, hChunk⟩ := h.hosts_of_find? hFound
  refine ⟨(p.chunk, p.node.toNat), ⟨c, hFound, hChunk.recorded _ p hPage hId.symm⟩, ?_⟩
  rintro ⟨id, node⟩ ⟨c', hFound', hRecord⟩
  obtain ⟨pool', p', hPool', hKey', hHost, hNode, -, -⟩ :=
    (h.leafRecord?_iff hTidy hFound').mp hRecord
  obtain rfl : pool = pool' := by simpa [hPool] using hPool'
  obtain rfl : p = p' := by simpa [hKey] using hKey'
  rw [hHost, hNode]

/-- The available subpages of a pool are those with a free slot. -/
theorem Sound.mem_available_iff (h : a.Sound) (hTidy : SubpagePools.Tidy a.pools)
    (hPool : a.pools[i]? = some pool) {j : Nat} :
    j ∈ pool.available.toList pool.subpages ↔ ∃ key p, key.index = j ∧ pool.get? key = some p ∧
      ∃ slot < p.maxElems, p.isUsed slot = false := by
  have hRoom : ∀ {key p}, pool.get? key = some p →
      (p.numFree ≠ 0 ↔ ∃ slot < p.maxElems, p.isUsed slot = false) := fun hKey =>
    (h.pools.slots h.geometry hPool hKey).1.numFree_ne_zero_iff
  rw [(hTidy.pool i pool hPool).mem_available]
  constructor
  · rintro ⟨p, hValue, hSome⟩
    obtain ⟨key, hIndex, hKey⟩ := Nodes.exists_find?_of_value? hValue
    exact ⟨key, p, hIndex, hKey, (hRoom hKey).mp hSome⟩
  · rintro ⟨key, p, rfl, hKey, hFree⟩
    exact ⟨p, Nodes.value?_of_find? hKey, (hRoom hKey).mpr hFree⟩

/-- Two subpages of a pool without a slot in use are one. -/
theorem Sound.key_eq_of_unused (h : a.Sound) (hTidy : SubpagePools.Tidy a.pools)
    (hPool : a.pools[i]? = some pool) {key' : Slab.Key} {p' : Subpage}
    (hKey : pool.get? key = some p) (hKey' : pool.get? key' = some p')
    (hNone : ∀ slot, p.isUsed slot = false) (hNone' : ∀ slot, p'.isUsed slot = false) :
    key = key' :=
  (hTidy.pool i pool hPool).lone key key' p p' hKey hKey'
    ((h.pools.slots h.geometry hPool hKey).1.isEmpty_iff.mpr hNone)
    ((h.pools.slots h.geometry hPool hKey').1.isEmpty_iff.mpr hNone')

/-- In every state, the leaf records of the chunks and the subpages of the pools correspond one to
one: a leaf is recorded exactly if the pool holds under the key the subpage of that page, and is
taken then; and every subpage is recorded by one leaf of one chunk. In each pool exactly the
subpages with a free slot are available, the count of free slots is exact, and at most one subpage
has no slot in use. -/
theorem run_leaves_match (hg : g.WellFormed) (index : Nat) (supply : Supply) (ops : List Op) :
    let a := (empty index g supply).run ops
    (∀ id c, a.chunks.find? id = some c → ∀ node record,
      (c.leafRecord? node = some record ↔
        ∃ pool p, a.pools[record.pool]? = some pool ∧ pool.get? record.key = some p ∧
          p.chunk = id ∧ p.node.toNat = node ∧ p.runOffset = c.runOffset node ∧
          p.elemSize = pool.elemSize) ∧
      (c.leafRecord? node = some record → c.tree.isTaken node = true)) ∧
    (∀ (i : Nat) (pool : SubpagePool), a.pools[i]? = some pool →
      (∀ key p, pool.get? key = some p →
        (∃! leaf : ChunkId × Nat, ∃ c, a.chunks.find? leaf.1 = some c ∧
          c.leafRecord? leaf.2 = some ⟨i, key⟩) ∧
        p.numFree + p.usedSlots.card = p.maxElems) ∧
      pool.available.Spells pool.subpages (pool.available.toList pool.subpages) ∧
      (∀ j, j ∈ pool.available.toList pool.subpages ↔
        ∃ key p, key.index = j ∧ pool.get? key = some p ∧
          ∃ slot < p.maxElems, p.isUsed slot = false) ∧
      ∀ key key' p p', pool.get? key = some p → pool.get? key' = some p' →
        (∀ slot, p.isUsed slot = false) → (∀ slot, p'.isUsed slot = false) → key = key') := by
  intro a
  obtain ⟨-, hSound, hOrderly⟩ : a.Regular g := (regular_empty hg index supply).run ops
  have hTidy : SubpagePools.Tidy a.pools := hOrderly.pools
  refine ⟨fun id c hFound node record => ⟨hSound.leafRecord?_iff hTidy hFound, fun hRecord => ?_⟩,
    fun i pool hPool => ?_⟩
  -- a page that is divided is taken
  · obtain ⟨-, -, hChunk⟩ := hSound.hosts_of_find? hFound
    exact (hChunk.divided node record hRecord).1
  · refine ⟨fun key p hKey => ⟨hSound.existsUnique_leaf hTidy hPool hKey,
      (hSound.pools.slots hSound.geometry hPool hKey).1.numFree_add_card⟩,
      (hTidy.pool i pool hPool).files.spells_toList (),
      fun j => hSound.mem_available_iff hTidy hPool, ?_⟩
    exact fun key key' p p' => hSound.key_eq_of_unused hTidy hPool

/-- One page of a chunk is divided into slots of 112 bytes, and one of these is in use. -/
theorem run_leaves_match_first_slot :
    (⟨4096, 1, 0⟩ : Geometry).WellFormed ∧
      let a := (empty 0 ⟨4096, 1, 0⟩ fun _ => Provider.below (2 ^ 20)).run [.allocate 100]
      ∃ c p pool, a.chunks.find? ⟨0, 0⟩ = some c ∧ c.leafRecord? 2 = some ⟨7, ⟨0, 0⟩⟩ ∧
        c.tree.isTaken 2 = true ∧ a.pools[7]? = some pool ∧ pool.get? ⟨0, 0⟩ = some p ∧
        p.chunk = ⟨0, 0⟩ ∧ p.node.toNat = 2 ∧ p.numFree + p.usedSlots.card = p.maxElems := by
  refine ⟨Geometry.wellFormed_two_pages, ?_⟩
  intro a
  obtain ⟨hLeaves, hPools⟩ := run_leaves_match Geometry.wellFormed_two_pages 0
    (fun _ => Provider.below (2 ^ 20)) [.allocate 100]
  obtain ⟨c, hFound, hRecord⟩ : ∃ c, a.chunks.find? ⟨0, 0⟩ = some c ∧
      c.leafRecord? 2 = some ⟨7, ⟨0, 0⟩⟩ := by
    have hHere : ((a.chunks.find? ⟨0, 0⟩).bind (·.leafRecord? 2)) = some ⟨7, ⟨0, 0⟩⟩ := by
      decide +kernel
    exact Option.bind_eq_some_iff.mp hHere
  obtain ⟨hIff, hTaken⟩ := hLeaves ⟨0, 0⟩ c hFound 2 ⟨7, ⟨0, 0⟩⟩
  obtain ⟨pool, p, hPool, hKey, hHost, hNode, -, -⟩ := hIff.mp hRecord
  obtain ⟨hSubpages, -⟩ := hPools 7 pool hPool
  exact ⟨c, p, pool, hFound, hRecord, hTaken hRecord, hPool, hKey, hHost, hNode,
    (hSubpages ⟨0, 0⟩ p hKey).2⟩

end Arena

end BlockPool
