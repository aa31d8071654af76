import BlockPool.Arena.Basic
import BlockPool.Proofs.Chunk.BandLists

/-!
# BlockPool — what an arena owes

An arena owes the blocks that it has handed out and not got back. Which blocks carved from chunks
those are can be read off the chunks and the pools; the regions handed out whole leave no trace in
the arena but are told apart by their numbers. `Owes` says that a list holds exactly the blocks
owed, each once, so handing out adds a block to the list and getting back takes one off.

* `Arena.Sound` — every chunk is sound, in its place, with a region of its own.
* `Arena.Owes` — the blocks that are out.
* `Arena.Sound.grant`, `Arena.Sound.regain` — a block comes out of a chunk, or goes back.
* `Arena.Sound.enter`, `Arena.Sound.drop` — a chunk comes, or goes.
-/

namespace BlockPool

open SubpagePools (subpageAt? Beside)

/-- A block that covers a region of its own, which was asked for before. -/
structure Block.Whole (b : Block) (requests : Nat) : Prop where
  offset : b.offset = 0
  size : b.region.size = b.capacity
  fits : b.capacity < Word.limit
  region : 0 < b.capacity → b.region.id < requests

/-- Two blocks of one arena that have no byte in common. -/
def Block.Disjoint (b b' : Block) : Prop := b.region.id ≠ b'.region.id ∨ b.Apart b'

theorem Block.Disjoint.symm {b b' : Block} (h : b.Disjoint b') : b'.Disjoint b :=
  h.imp Ne.symm Block.Apart.symm

namespace Arena

variable {a a' : Arena} {id other : ChunkId} {c c' : Chunk} {handle : Handle} {block : Block}
  {blocks blocks' : List Block}

/-- The chunk under an identity, without the name of its band. -/
def chunkAt? (a : Arena) (id : ChunkId) : Option Chunk := BandLists.chunkAt? a.chunks id

/-- The block that a handle of a chunk names, while it is handed out. -/
def blockAt? (a : Arena) (id : ChunkId) (handle : Handle) : Option Block :=
  (a.chunkAt? id).bind (·.blockAt? a.pools handle)

/-- A chunk that stands where it belongs. -/
structure Hosts (a : Arena) (id : ChunkId) (c : Chunk) : Prop where
  id : c.id = id
  geometry : c.geometry = a.geometry
  size : c.region.size = a.geometry.chunkSize
  region : c.region.id < a.requests
  sound : c.Sound a.pools

/-- What every reachable arena satisfies. -/
structure Sound (a : Arena) : Prop where
  geometry : a.geometry.WellFormed
  slab : a.chunks.Sound
  pools : SubpagePools.Sound a.geometry a.pools
  chunk : ∀ id c, a.chunkAt? id = some c → a.Hosts id c
  /-- No two chunks share a region. -/
  regions : ∀ id id' c c', a.chunkAt? id = some c → a.chunkAt? id' = some c' →
    c.region.id = c'.region.id → id = id'
  /-- Every subpage is a page of a chunk of the arena. -/
  owner : ∀ record p, subpageAt? a.pools record = some p → (a.chunkAt? p.chunk).isSome = true

/-- The blocks that are out: those the chunks know of, and regions handed out whole. -/
structure Owes (a : Arena) (blocks : List Block) : Prop where
  pooled : ∀ id handle block, a.blockAt? id handle = some block ↔
    block ∈ blocks ∧ block.origin = .pooled id handle
  once : (blocks.filter (·.isPooled)).Nodup
  whole : ∀ b ∈ blocks, b.isPooled = false → b.Whole a.requests ∧
    ∀ id c, a.chunkAt? id = some c → 0 < b.capacity → c.region.id ≠ b.region.id
  /-- No two regions handed out whole are the same. -/
  regions : ((blocks.filter fun b => !b.isPooled && decide (0 < b.capacity)).map
    (·.region.id)).Nodup

theorem Owes.perm (h : a.Owes blocks) (hPerm : blocks.Perm blocks') : a.Owes blocks' where
  pooled id handle block := by rw [h.pooled, hPerm.mem_iff]
  once := (hPerm.filter _).nodup_iff.mp h.once
  whole b hb := h.whole b (hPerm.mem_iff.mpr hb)
  regions := ((hPerm.filter _).map _).nodup_iff.mp h.regions

theorem isPooled_of_origin (h : block.origin = .pooled id handle) : block.isPooled = true := by
  simp [Block.isPooled, h]

theorem blockAt?_of_chunkAt? (h : a.chunkAt? id = some c) (handle : Handle) :
    a.blockAt? id handle = c.blockAt? a.pools handle := by
  rw [blockAt?, h, Option.bind_some]

theorem exists_chunkAt?_of_blockAt? (h : a.blockAt? id handle = some block) :
    ∃ c, a.chunkAt? id = some c ∧ c.blockAt? a.pools handle = some block :=
  Option.bind_eq_some_iff.mp h

/-- A chunk of the arena stands where it belongs. -/
theorem Sound.hosts_of_find? (h : a.Sound) (hFound : a.chunks.find? id = some c) :
    c.id = id ∧ c.geometry = a.geometry ∧ c.Sound a.pools := by
  have hHosts := h.chunk id c.unbanded (BandLists.chunkAt?_of_find? hFound)
  exact ⟨hHosts.id, hHosts.geometry, Chunk.sound_unbanded.mp hHosts.sound⟩

-- ---------------------------------------------------------------------------
-- What owed blocks are like
-- ---------------------------------------------------------------------------

/-- An owed block carved from a chunk is a live block of that chunk. -/
theorem Owes.live (h : a.Owes blocks) (hMem : block ∈ blocks)
    (hOrigin : block.origin = .pooled id handle) :
    ∃ c, a.chunkAt? id = some c ∧ c.blockAt? a.pools handle = some block :=
  exists_chunkAt?_of_blockAt? ((h.pooled id handle block).mpr ⟨hMem, hOrigin⟩)

theorem Sound.offset_le (h : a.Sound) (hOwes : a.Owes blocks) (hMem : block ∈ blocks)
    (hPooled : block.isPooled = true) : block.offset + block.capacity ≤ a.geometry.chunkSize := by
  cases hOrigin : block.origin with
  | unpooled => simp [Block.isPooled, hOrigin] at hPooled
  | pooled id handle =>
    obtain ⟨c, hChunk, hBlock⟩ := hOwes.live hMem hOrigin
    have hHosts := h.chunk id c hChunk
    have hEnd := hHosts.sound.offset_le (hHosts.geometry ▸ h.pools) hBlock
    rwa [Chunk.size, hHosts.geometry] at hEnd

theorem Sound.carved (h : a.Sound) (hOwes : a.Owes blocks) (hMem : block ∈ blocks)
    (hPooled : block.isPooled = true) : a.geometry.Carved block.capacity := by
  cases hOrigin : block.origin with
  | unpooled => simp [Block.isPooled, hOrigin] at hPooled
  | pooled id handle =>
    obtain ⟨c, hChunk, hBlock⟩ := hOwes.live hMem hOrigin
    have hHosts := h.chunk id c hChunk
    exact hHosts.geometry ▸ hHosts.sound.carved (hHosts.geometry ▸ h.pools) hBlock

/-- Owed blocks of one chunk under different handles do not overlap. -/
theorem Sound.apart (h : a.Sound) (hOwes : a.Owes blocks) {block' : Block} {handle' : Handle}
    (hMem : block ∈ blocks) (hMem' : block' ∈ blocks) (hOrigin : block.origin = .pooled id handle)
    (hOrigin' : block'.origin = .pooled id handle') (hNe : block ≠ block') :
    block.Apart block' := by
  obtain ⟨c, hChunk, hBlock⟩ := hOwes.live hMem hOrigin
  obtain ⟨c', hChunk', hBlock'⟩ := hOwes.live hMem' hOrigin'
  obtain rfl : c = c' := by simpa [hChunk] using hChunk'
  have hHosts := h.chunk id c hChunk
  refine hHosts.sound.apart (hHosts.geometry ▸ h.pools) hBlock hBlock' ?_
  rintro rfl
  exact hNe (by simpa [hBlock] using hBlock')

/-- An owed block carved from a chunk lies in the region of that chunk. -/
theorem Sound.exists_region (h : a.Sound) (hOwes : a.Owes blocks) (hMem : block ∈ blocks)
    (hOrigin : block.origin = .pooled id handle) :
    ∃ c, a.chunkAt? id = some c ∧ block.region = c.region := by
  obtain ⟨c, hChunk, hBlock⟩ := hOwes.live hMem hOrigin
  have hHosts := h.chunk id c hChunk
  exact ⟨c, hChunk, (hHosts.sound.inside (hHosts.geometry ▸ h.pools) hBlock).region⟩

/-- An owed block lies inside its region. -/
theorem Sound.stop_le (h : a.Sound) (hOwes : a.Owes blocks) (hMem : block ∈ blocks) :
    block.offset + block.capacity ≤ block.region.size ∧
      block.offset + block.capacity < Word.limit := by
  cases hOrigin : block.origin with
  | unpooled =>
    obtain ⟨hWhole, -⟩ := hOwes.whole block hMem (by simp [Block.isPooled, hOrigin])
    rw [hWhole.offset, hWhole.size, Nat.zero_add]
    exact ⟨Nat.le_refl _, hWhole.fits⟩
  | pooled id handle =>
    obtain ⟨c, hChunk, hRegion⟩ := h.exists_region hOwes hMem hOrigin
    have hStop := h.offset_le hOwes hMem (isPooled_of_origin hOrigin)
    have hChunkSize := h.geometry.chunkSize_le
    rw [hRegion, (h.chunk id c hChunk).size]
    exact ⟨hStop, (hStop.trans hChunkSize).trans_lt (by decide)⟩

/-- A block without bytes that starts its region is disjoint from every block. -/
theorem disjoint_of_empty {block' : Block} (hOffset : block.offset = 0)
    (hEmpty : ¬ 0 < block.capacity) : block.Disjoint block' :=
  .inr (.inl (by omega))

/-- Two owed blocks are disjoint. -/
theorem Sound.disjoint (h : a.Sound) {block' : Block} (hOwes : a.Owes (block :: block' :: blocks)) :
    block.Disjoint block' := by
  have hMem : block ∈ block :: block' :: blocks := List.mem_cons_self
  have hMem' : block' ∈ block :: block' :: blocks := List.mem_cons_of_mem _ List.mem_cons_self
  -- a pooled block against a region of its own
  have hMixed : ∀ {b b' : Block} {id handle}, b ∈ block :: block' :: blocks →
      b' ∈ block :: block' :: blocks → b.origin = .pooled id handle → b'.isPooled = false →
        b.Disjoint b' := by
    intro b b' id handle hb hb' hOrigin hWhole'
    obtain ⟨c, hChunk, hRegion⟩ := h.exists_region hOwes hb hOrigin
    obtain ⟨hWhole, hApart⟩ := hOwes.whole b' hb' hWhole'
    by_cases hPos : 0 < b'.capacity
    · refine .inl ?_
      rw [hRegion]
      exact hApart id c hChunk hPos
    · exact (disjoint_of_empty hWhole.offset hPos).symm
  cases hOrigin : block.origin with
  | pooled id handle =>
    cases hOrigin' : block'.origin with
    | pooled id' handle' =>
      have hPooled := isPooled_of_origin hOrigin
      have hPooled' := isPooled_of_origin hOrigin'
      -- live blocks of one chunk lie apart in it, and two chunks have two regions
      by_cases hId : id = id'
      · subst hId
        have hOnce := hOwes.once
        rw [List.filter_cons_of_pos hPooled, List.nodup_cons, List.mem_filter] at hOnce
        refine .inr (h.apart hOwes hMem hMem' hOrigin hOrigin' ?_)
        rintro rfl
        exact hOnce.1 ⟨List.mem_cons_self, hPooled⟩
      · obtain ⟨c, hChunk, hRegion⟩ := h.exists_region hOwes hMem hOrigin
        obtain ⟨c', hChunk', hRegion'⟩ := h.exists_region hOwes hMem' hOrigin'
        refine .inl fun hEq => hId ?_
        rw [hRegion, hRegion'] at hEq
        exact h.regions id id' c c' hChunk hChunk' hEq
    | unpooled => exact hMixed hMem hMem' hOrigin (by simp [Block.isPooled, hOrigin'])
  | unpooled =>
    have hNotPooled : block.isPooled = false := by simp [Block.isPooled, hOrigin]
    cases hOrigin' : block'.origin with
    | pooled id' handle' => exact (hMixed hMem' hMem hOrigin' hNotPooled).symm
    | unpooled =>
      have hNotPooled' : block'.isPooled = false := by simp [Block.isPooled, hOrigin']
      -- regions handed out whole differ, unless one of them has no bytes
      by_cases hPos : 0 < block.capacity
      · by_cases hPos' : 0 < block'.capacity
        · have hRegions := hOwes.regions
          rw [List.filter_cons_of_pos (by simp [hNotPooled, hPos]), List.map_cons,
            List.nodup_cons, List.filter_cons_of_pos (by simp [hNotPooled', hPos']),
            List.map_cons] at hRegions
          exact .inl fun hEq => hRegions.1 (hEq ▸ List.mem_cons_self)
        · obtain ⟨hWhole', -⟩ := hOwes.whole block' hMem' hNotPooled'
          exact (disjoint_of_empty hWhole'.offset hPos').symm
      · obtain ⟨hWhole, -⟩ := hOwes.whole block hMem hNotPooled
        exact disjoint_of_empty hWhole.offset hPos

-- ---------------------------------------------------------------------------
-- One chunk changes
-- ---------------------------------------------------------------------------

/-- The arena after the chunk under one identity was replaced, put in or taken out. -/
structure Sets (a : Arena) (id : ChunkId) (c? : Option Chunk) (a' : Arena) : Prop where
  geometry : a'.geometry = a.geometry
  slab : a'.chunks.Sound
  chunkAt? : ∀ other, a'.chunkAt? other = if other = id then c? else a.chunkAt? other

theorem Sets.chunkAt?_self {c? : Option Chunk} (h : a.Sets id c? a') : a'.chunkAt? id = c? := by
  rw [h.chunkAt?, if_pos rfl]

/-- If a chunk goes, it is the one taken out. -/
theorem Sets.departed {c? : Option Chunk} (h : a.Sets id c? a')
    (hSome : (a.chunkAt? other).isSome = true) (hNone : a'.chunkAt? other = none) :
    other = id ∧ c? = none := by
  rw [h.chunkAt?] at hNone
  split at hNone
  · rename_i hEq
    exact ⟨hEq, hNone⟩
  · rw [hNone] at hSome
    exact absurd hSome (by simp)

/-- The regions of the chunks are those of before, or later ones. -/
structure Continues (a a' : Arena) : Prop where
  requests : a.requests ≤ a'.requests
  regions : ∀ id c', a'.chunkAt? id = some c' →
    (∃ c, a.chunkAt? id = some c ∧ c'.region = c.region) ∨ a.requests ≤ c'.region.id

theorem Continues.whole (hContinues : a.Continues a') (h : a.Owes blocks) :
    ∀ b ∈ blocks, b.isPooled = false → b.Whole a'.requests ∧
      ∀ id c, a'.chunkAt? id = some c → 0 < b.capacity → c.region.id ≠ b.region.id := by
  intro b hb hWhole
  obtain ⟨hOwn, hApart⟩ := h.whole b hb hWhole
  refine ⟨⟨hOwn.offset, hOwn.size, hOwn.fits, fun hPos =>
    (hOwn.region hPos).trans_le hContinues.requests⟩, ?_⟩
  intro id c hChunk hPos
  rcases hContinues.regions id c hChunk with ⟨c₀, hChunk₀, hRegion⟩ | hLater
  · rw [hRegion]
    exact hApart id c₀ hChunk₀ hPos
  · have := hOwn.region hPos
    omega

/-- Where the live blocks are the same, the same blocks are owed. -/
theorem Owes.congr (h : a.Owes blocks) (hContinues : a.Continues a')
    (hSame : ∀ id handle, a'.blockAt? id handle = a.blockAt? id handle) : a'.Owes blocks where
  pooled id handle block := by rw [hSame, h.pooled]
  once := h.once
  whole := hContinues.whole h
  regions := h.regions

/-- A new live block is owed beside the others. -/
theorem Owes.cons (h : a.Owes blocks) (hContinues : a.Continues a')
    (hOrigin : block.origin = .pooled id handle) (hNone : a.blockAt? id handle = none)
    (hLive : ∀ other number, a'.blockAt? other number =
      if other = id ∧ number = handle then some block else a.blockAt? other number) :
    a'.Owes (block :: blocks) := by
  have hPooled := isPooled_of_origin hOrigin
  -- its handle was not live, so it is not among those owed before
  have hNew : block ∉ blocks := by
    intro hMem
    rw [(h.pooled id handle block).mpr ⟨hMem, hOrigin⟩] at hNone
    exact absurd hNone (by simp)
  refine ⟨fun other number found => ?_, ?_, fun b hb hWhole => ?_, ?_⟩
  · rw [hLive, List.mem_cons]
    -- under that handle the new block is live, under all others what was live before
    by_cases hHere : other = id ∧ number = handle
    · obtain ⟨rfl, rfl⟩ := hHere
      rw [if_pos ⟨rfl, rfl⟩]
      constructor
      · intro hEq
        obtain rfl := Option.some.inj hEq
        exact ⟨.inl rfl, hOrigin⟩
      · rintro ⟨rfl | hMem, hFound⟩
        · rfl
        · rw [(h.pooled other number found).mpr ⟨hMem, hFound⟩] at hNone
          exact absurd hNone (by simp)
    · rw [if_neg hHere, h.pooled]
      constructor
      · exact fun hBoth => ⟨.inr hBoth.1, hBoth.2⟩
      · rintro ⟨rfl | hMem, hFound⟩
        · rw [hOrigin, Origin.pooled.injEq] at hFound
          exact absurd ⟨hFound.1.symm, hFound.2.symm⟩ hHere
        · exact ⟨hMem, hFound⟩
  · rw [List.filter_cons_of_pos hPooled, List.nodup_cons, List.mem_filter]
    exact ⟨fun hMem => hNew hMem.1, h.once⟩
  · rcases List.mem_cons.mp hb with rfl | hMem
    · rw [hPooled] at hWhole
      exact absurd hWhole (by simp)
    · exact hContinues.whole h b hMem hWhole
  · rw [List.filter_cons_of_neg (by simp [hPooled])]
    exact h.regions

/-- A block that is live no more is owed no more. -/
theorem Owes.uncons (h : a.Owes (block :: blocks)) (hContinues : a.Continues a')
    (hOrigin : block.origin = .pooled id handle)
    (hLive : ∀ other number, a'.blockAt? other number =
      if other = id ∧ number = handle then none else a.blockAt? other number) :
    a'.Owes blocks := by
  have hPooled := isPooled_of_origin hOrigin
  have hOnce := h.once
  rw [List.filter_cons_of_pos hPooled, List.nodup_cons, List.mem_filter] at hOnce
  have hRegions := h.regions
  rw [List.filter_cons_of_neg (by simp [hPooled])] at hRegions
  refine ⟨fun other number found => ?_, hOnce.2, fun b hb =>
    hContinues.whole h b (List.mem_cons_of_mem _ hb), hRegions⟩
  rw [hLive]
  by_cases hHere : other = id ∧ number = handle
  · obtain ⟨rfl, rfl⟩ := hHere
    rw [if_pos ⟨rfl, rfl⟩]
    constructor
    · exact fun hEq => absurd hEq (by simp)
    · rintro ⟨hMem, hFound⟩
      -- two owed blocks of one origin are the same, and the first was owed once
      have hFirst := (h.pooled other number block).mpr ⟨List.mem_cons_self, hOrigin⟩
      have hSecond := (h.pooled other number found).mpr ⟨List.mem_cons_of_mem _ hMem, hFound⟩
      obtain rfl : block = found := by simpa [hFirst] using hSecond
      exact absurd ⟨hMem, hPooled⟩ hOnce.1
  · rw [if_neg hHere, h.pooled, List.mem_cons]
    constructor
    · rintro ⟨rfl | hMem, hFound⟩
      · rw [hOrigin, Origin.pooled.injEq] at hFound
        exact absurd ⟨hFound.1.symm, hFound.2.symm⟩ hHere
      · exact ⟨hMem, hFound⟩
    · exact fun hBoth => ⟨.inr hBoth.1, hBoth.2⟩

/-- A chunk in another state, with pools that differ in its pages only. -/
theorem Sound.sets (h : a.Sound) (hChunk : a.chunkAt? id = some c) (hSame : c.SameMemory c')
    (hSound : c'.Sound a'.pools) (hPools : SubpagePools.Sound c.geometry a'.pools)
    (hBeside : Beside c.id a.pools a'.pools) (hSets : a.Sets id (some c') a')
    (hRequests : a'.requests = a.requests) :
    a'.Sound ∧ a.Continues a' ∧
      ∀ other, other ≠ id → ∀ number, a'.blockAt? other number = a.blockAt? other number := by
  have hHosts := h.chunk id c hChunk
  -- another chunk has other pages, and sees the pools as they were
  have hOther : ∀ {other c₀}, other ≠ id → a.chunkAt? other = some c₀ →
      c₀.Sound a'.pools ∧ ∀ number, c₀.blockAt? a'.pools number = c₀.blockAt? a.pools number := by
    intro other c₀ hNe hFound
    have hHosts₀ := h.chunk other c₀ hFound
    exact hHosts₀.sound.frame hBeside (by rw [hHosts₀.id, hHosts.id]; exact hNe)
  -- the chunks have the regions that they had
  have hRegion : ∀ other c₁, a'.chunkAt? other = some c₁ →
      ∃ c₀, a.chunkAt? other = some c₀ ∧ c₁.region = c₀.region := by
    intro other c₁ hFound
    rw [hSets.chunkAt?] at hFound
    split at hFound
    · rename_i hEq
      obtain rfl := Option.some.inj hFound
      exact ⟨c, hEq ▸ hChunk, hSame.region⟩
    · exact ⟨c₁, hFound, rfl⟩
  refine ⟨⟨hSets.geometry ▸ h.geometry, hSets.slab, ?_, ?_, ?_, ?_⟩,
    ⟨hRequests.ge, fun other c₁ hFound => .inl (hRegion other c₁ hFound)⟩, ?_⟩
  · rw [hSets.geometry, ← hHosts.geometry]
    exact hPools
  · intro other c₁ hFound
    rw [hSets.chunkAt?] at hFound
    split at hFound
    · rename_i hEq
      obtain rfl := Option.some.inj hFound
      refine ⟨hSame.id.trans (hHosts.id.trans hEq.symm), ?_, ?_, ?_, hSound⟩
      · rw [hSame.geometry, hHosts.geometry, hSets.geometry]
      · rw [hSame.region, hHosts.size, hSets.geometry]
      · rw [hSame.region, hRequests]
        exact hHosts.region
    · rename_i hNe
      have hHosts₁ := h.chunk other c₁ hFound
      exact ⟨hHosts₁.id, hHosts₁.geometry.trans hSets.geometry.symm,
        by rw [hHosts₁.size, hSets.geometry], by rw [hRequests]; exact hHosts₁.region,
        (hOther hNe hFound).1⟩
  · intro i j ci cj hi hj hEq
    obtain ⟨ci₀, hi₀, hRegionI⟩ := hRegion i ci hi
    obtain ⟨cj₀, hj₀, hRegionJ⟩ := hRegion j cj hj
    exact h.regions i j ci₀ cj₀ hi₀ hj₀ (by rw [← hRegionI, ← hRegionJ, hEq])
  · intro record p hFound
    rw [hSets.chunkAt?]
    split
    · rfl
    · rename_i hNe
      exact h.owner record p ((hBeside record p (by rw [hHosts.id]; exact hNe)).mp hFound)
  · intro other hNe number
    unfold Arena.blockAt?
    rw [hSets.chunkAt?, if_neg hNe]
    cases hFound : a.chunkAt? other with
    | none => rfl
    | some c₀ => exact (hOther hNe hFound).2 number

/-- If what one handle of a chunk names changes, then only that changes in the arena. -/
theorem Sets.blockAt?_eq {found? : Option Block} (hSets : a.Sets id (some c') a')
    (hChunk : a.chunkAt? id = some c)
    (hBlocks : ∀ number, c'.blockAt? a'.pools number =
      if number = handle then found? else c.blockAt? a.pools number)
    (hOthers : ∀ other, other ≠ id → ∀ number, a'.blockAt? other number = a.blockAt? other number)
    (other : ChunkId) (number : Handle) :
    a'.blockAt? other number =
      if other = id ∧ number = handle then found? else a.blockAt? other number := by
  by_cases hOther : other = id
  · subst hOther
    rw [blockAt?_of_chunkAt? hSets.chunkAt?_self, hBlocks, blockAt?_of_chunkAt? hChunk]
    by_cases hNumber : number = handle <;> simp [hNumber]
  · rw [if_neg (fun hBoth => hOther hBoth.1), hOthers other hOther]

/-- A block that comes out of a chunk is owed beside the others. -/
theorem Sound.grant (h : a.Sound) (hChunk : a.chunkAt? id = some c)
    (hGrants : c.Grants a.pools block c' a'.pools) (hSets : a.Sets id (some c') a')
    (hRequests : a'.requests = a.requests) :
    a'.Sound ∧ ∀ blocks, a.Owes blocks → a'.Owes (block :: blocks) := by
  obtain ⟨hSound, hContinues, hOthers⟩ := h.sets hChunk hGrants.same hGrants.sound hGrants.store
    hGrants.beside hSets hRequests
  refine ⟨hSound, fun blocks hOwes => ?_⟩
  obtain ⟨handle, hOrigin, hNone, hBlocks⟩ := hGrants.blocks
  rw [(h.chunk id c hChunk).id] at hOrigin
  refine hOwes.cons hContinues hOrigin ((blockAt?_of_chunkAt? hChunk handle).trans hNone) ?_
  exact hSets.blockAt?_eq hChunk hBlocks hOthers

/-- A block that goes back into its chunk is owed no more. -/
theorem Sound.regain (h : a.Sound) (hChunk : a.chunkAt? id = some c)
    (hRegains : c.Regains a.pools handle c' a'.pools) (hSets : a.Sets id (some c') a')
    (hRequests : a'.requests = a.requests) (hOrigin : block.origin = .pooled id handle) :
    a'.Sound ∧ ∀ blocks, a.Owes (block :: blocks) → a'.Owes blocks := by
  obtain ⟨hSound, hContinues, hOthers⟩ := h.sets hChunk hRegains.same hRegains.sound
    hRegains.store hRegains.beside hSets hRequests
  refine ⟨hSound, fun blocks hOwes => hOwes.uncons hContinues hOrigin ?_⟩
  exact hSets.blockAt?_eq hChunk hRegains.blocks hOthers

-- ---------------------------------------------------------------------------
-- Chunks come and go
-- ---------------------------------------------------------------------------

/-- A chunk with nothing in use can go: no block and no subpage is its. -/
theorem Sound.drop (h : a.Sound) (hChunk : a.chunkAt? id = some c) (hFree : c.size ≤ c.freeBytes)
    (hSets : a.Sets id none a') (hPools : a'.pools = a.pools)
    (hRequests : a'.requests = a.requests) :
    a'.Sound ∧ (∀ blocks, a.Owes blocks → a'.Owes blocks) ∧
      (∀ handle, a.blockAt? id handle = none) ∧
      ∀ record p, subpageAt? a.pools record = some p → p.chunk ≠ id := by
  have hHosts := h.chunk id c hChunk
  obtain ⟨hNoBlock, hNoPage⟩ := hHosts.sound.unused hFree
  rw [hHosts.id] at hNoPage
  -- the other chunks are as they were
  have hKept : ∀ other c₁, a'.chunkAt? other = some c₁ → a.chunkAt? other = some c₁ := by
    intro other c₁ hFound
    rw [hSets.chunkAt?] at hFound
    split at hFound
    · exact absurd hFound (by simp)
    · exact hFound
  have hGone : ∀ handle, a.blockAt? id handle = none := fun handle =>
    (blockAt?_of_chunkAt? hChunk handle).trans (hNoBlock handle)
  refine ⟨⟨hSets.geometry ▸ h.geometry, hSets.slab, by rw [hSets.geometry, hPools]; exact h.pools,
    ?_, ?_, ?_⟩, ?_, hGone, hNoPage⟩
  · intro other c₁ hFound
    have hHosts₁ := h.chunk other c₁ (hKept other c₁ hFound)
    exact ⟨hHosts₁.id, hHosts₁.geometry.trans hSets.geometry.symm,
      by rw [hHosts₁.size, hSets.geometry], by rw [hRequests]; exact hHosts₁.region,
      by rw [hPools]; exact hHosts₁.sound⟩
  · intro i j ci cj hi hj
    exact h.regions i j ci cj (hKept i ci hi) (hKept j cj hj)
  · intro record p hFound
    rw [hPools] at hFound
    rw [hSets.chunkAt?, if_neg (hNoPage record p hFound)]
    exact h.owner record p hFound
  · intro blocks hOwes
    refine hOwes.congr ⟨hRequests.ge, fun other c₁ hFound => .inl ⟨c₁, hKept other c₁ hFound, rfl⟩⟩
      fun other number => ?_
    by_cases hOther : other = id
    · rw [hOther, hGone, Arena.blockAt?, hSets.chunkAt?_self, Option.bind_none]
    · rw [Arena.blockAt?, Arena.blockAt?, hSets.chunkAt?, if_neg hOther, hPools]

/-- A fresh chunk over a new region changes nothing that is owed. -/
theorem Sound.enter (h : a.Sound) (hNone : a.chunkAt? id = none) {region : Region}
    (hSize : region.size = a.geometry.chunkSize) (hRegion : region.id = a.requests)
    (hSets : a.Sets id (some (Chunk.ofRegion id a.geometry region)) a')
    (hPools : a'.pools = a.pools) (hRequests : a'.requests = a.requests + 1) :
    a'.Sound ∧ ∀ blocks, a.Owes blocks → a'.Owes blocks := by
  -- pages are owned by chunks that are there, so none is of the new one
  have hNoPage : ∀ record p, subpageAt? a.pools record = some p → p.chunk ≠ id := by
    rintro record p hFound rfl
    have hOwner := h.owner record p hFound
    rw [hNone] at hOwner
    exact absurd hOwner (by simp)
  -- a chunk found now is the new one, or one of those before
  have hCases : ∀ {other c₁}, a'.chunkAt? other = some c₁ →
      (other = id ∧ c₁ = Chunk.ofRegion id a.geometry region) ∨
        (other ≠ id ∧ a.chunkAt? other = some c₁) := by
    intro other c₁ hFound
    rw [hSets.chunkAt?] at hFound
    split at hFound
    · rename_i hEq
      exact .inl ⟨hEq, (Option.some.inj hFound).symm⟩
    · rename_i hNe
      exact .inr ⟨hNe, hFound⟩
  refine ⟨⟨hSets.geometry ▸ h.geometry, hSets.slab, by rw [hSets.geometry, hPools]; exact h.pools,
    ?_, ?_, ?_⟩, ?_⟩
  · intro other c₁ hFound
    rcases hCases hFound with ⟨rfl, rfl⟩ | ⟨-, hBefore⟩
    · refine ⟨rfl, hSets.geometry.symm, by rw [hSets.geometry]; exact hSize, ?_, ?_⟩
      · rw [hRequests]
        exact Nat.lt_succ_of_le hRegion.le
      · rw [hPools]
        exact Chunk.sound_ofRegion h.geometry region hNoPage
    · have hHosts := h.chunk other c₁ hBefore
      exact ⟨hHosts.id, hHosts.geometry.trans hSets.geometry.symm,
        by rw [hHosts.size, hSets.geometry],
        by rw [hRequests]; exact hHosts.region.trans (Nat.lt_succ_self _),
        by rw [hPools]; exact hHosts.sound⟩
  · intro i j ci cj hi hj hEq
    rcases hCases hi with ⟨rfl, rfl⟩ | ⟨-, hi₀⟩
    · rcases hCases hj with ⟨rfl, rfl⟩ | ⟨-, hj₀⟩
      · rfl
      -- its region has a number that none was asked for before
      · have hOld := (h.chunk j cj hj₀).region
        rw [← hEq, Chunk.ofRegion, hRegion] at hOld
        omega
    · rcases hCases hj with ⟨rfl, rfl⟩ | ⟨-, hj₀⟩
      · have hOld := (h.chunk i ci hi₀).region
        rw [hEq, Chunk.ofRegion, hRegion] at hOld
        omega
      · exact h.regions i j ci cj hi₀ hj₀ hEq
  · intro record p hFound
    rw [hPools] at hFound
    rw [hSets.chunkAt?, if_neg (hNoPage record p hFound)]
    exact h.owner record p hFound
  · intro blocks hOwes
    refine hOwes.congr ⟨by omega, fun other c₁ hFound => ?_⟩ fun other number => ?_
    · rcases hCases hFound with ⟨-, rfl⟩ | ⟨-, hBefore⟩
      · exact .inr hRegion.ge
      · exact .inl ⟨c₁, hBefore, rfl⟩
    · by_cases hOther : other = id
      · rw [hOther, Arena.blockAt?, Arena.blockAt?, hSets.chunkAt?_self, hNone,
          Option.bind_some, Option.bind_none, Chunk.blockAt?_ofRegion]
      · rw [Arena.blockAt?, Arena.blockAt?, hSets.chunkAt?, if_neg hOther, hPools]

-- ---------------------------------------------------------------------------
-- Regions handed out whole
-- ---------------------------------------------------------------------------

/-- The same chunks and pools; counts may differ, and regions may have been asked for. -/
structure Resembles (a a' : Arena) : Prop where
  geometry : a'.geometry = a.geometry
  chunks : a'.chunks = a.chunks
  pools : a'.pools = a.pools
  requests : a.requests ≤ a'.requests

theorem Resembles.chunkAt? (h : a.Resembles a') (id : ChunkId) :
    a'.chunkAt? id = a.chunkAt? id := by
  rw [Arena.chunkAt?, Arena.chunkAt?, h.chunks]

theorem Resembles.sound (hSame : a.Resembles a') (h : a.Sound) : a'.Sound where
  geometry := hSame.geometry ▸ h.geometry
  slab := hSame.chunks ▸ h.slab
  pools := by
    rw [hSame.geometry, hSame.pools]
    exact h.pools
  chunk id c hFound := by
    rw [hSame.chunkAt?] at hFound
    have hHosts := h.chunk id c hFound
    exact ⟨hHosts.id, hHosts.geometry.trans hSame.geometry.symm,
      by rw [hHosts.size, hSame.geometry], hHosts.region.trans_le hSame.requests,
      by rw [hSame.pools]; exact hHosts.sound⟩
  regions i j ci cj hi hj := by
    rw [hSame.chunkAt?] at hi hj
    exact h.regions i j ci cj hi hj
  owner record p hFound := by
    rw [hSame.pools] at hFound
    rw [hSame.chunkAt?]
    exact h.owner record p hFound

theorem Resembles.continues (hSame : a.Resembles a') : a.Continues a' :=
  ⟨hSame.requests, fun id c hFound => .inl ⟨c, (hSame.chunkAt? id).symm.trans hFound, rfl⟩⟩

theorem Resembles.owes (hSame : a.Resembles a') (h : a.Owes blocks) : a'.Owes blocks :=
  h.congr hSame.continues fun id handle => by
    rw [Arena.blockAt?, Arena.blockAt?, hSame.chunkAt?, hSame.pools]

/-- A region of its own is owed beside the other blocks, if it is a new one or has no bytes. -/
theorem Resembles.owes_cons (hSame : a.Resembles a') (h : a.Sound) (hOwes : a.Owes blocks)
    (hOrigin : block.origin = .unpooled) (hWhole : block.Whole a'.requests)
    (hNew : 0 < block.capacity → a.requests ≤ block.region.id) : a'.Owes (block :: blocks) := by
  have hNotPooled : block.isPooled = false := by simp [Block.isPooled, hOrigin]
  have hRest := hSame.owes hOwes
  refine ⟨fun id handle found => ?_, ?_, fun b hb hb' => ?_, ?_⟩
  · rw [hRest.pooled, List.mem_cons]
    constructor
    · exact fun hBoth => ⟨.inr hBoth.1, hBoth.2⟩
    · rintro ⟨rfl | hMem, hFound⟩
      · rw [hOrigin] at hFound
        exact absurd hFound (by simp)
      · exact ⟨hMem, hFound⟩
  · rw [List.filter_cons_of_neg (by simp [hNotPooled])]
    exact hRest.once
  · rcases List.mem_cons.mp hb with rfl | hMem
    -- a region with bytes is newer than those of all chunks
    · refine ⟨hWhole, fun id c hFound hPos => ?_⟩
      rw [hSame.chunkAt?] at hFound
      have hOld := (h.chunk id c hFound).region
      have := hNew hPos
      omega
    · exact hRest.whole b hMem hb'
  · by_cases hPos : 0 < block.capacity
    · rw [List.filter_cons_of_pos (by simp [hNotPooled, hPos]), List.map_cons, List.nodup_cons]
      refine ⟨fun hMem => ?_, hRest.regions⟩
      obtain ⟨b, hb, hEq⟩ := List.mem_map.mp hMem
      obtain ⟨hbMem, hbFilter⟩ := List.mem_filter.mp hb
      simp only [Bool.and_eq_true, Bool.not_eq_true', decide_eq_true_eq] at hbFilter
      -- and than those that were handed out whole
      have hOld := (hOwes.whole b hbMem hbFilter.1).1.region hbFilter.2
      have := hNew hPos
      omega
    · rw [List.filter_cons_of_neg (by simp [hPos])]
      exact hRest.regions

/-- A region that is given back whole is owed no more. -/
theorem Resembles.owes_uncons (hSame : a.Resembles a') (h : a.Owes (block :: blocks))
    (hOrigin : block.origin = .unpooled) : a'.Owes blocks := by
  have hNotPooled : block.isPooled = false := by simp [Block.isPooled, hOrigin]
  have hAll := hSame.owes h
  have hOnce := hAll.once
  rw [List.filter_cons_of_neg (by simp [hNotPooled])] at hOnce
  have hRegions := hAll.regions
  refine ⟨fun id handle found => ?_, hOnce,
    fun b hb => hAll.whole b (List.mem_cons_of_mem _ hb), ?_⟩
  · rw [hAll.pooled, List.mem_cons]
    constructor
    · rintro ⟨rfl | hMem, hFound⟩
      · rw [hOrigin] at hFound
        exact absurd hFound (by simp)
      · exact ⟨hMem, hFound⟩
    · exact fun hBoth => ⟨.inr hBoth.1, hBoth.2⟩
  · rw [List.filter_cons] at hRegions
    split at hRegions
    · exact (List.nodup_cons.mp hRegions).2
    · exact hRegions

-- ---------------------------------------------------------------------------
-- An empty arena
-- ---------------------------------------------------------------------------

theorem chunkAt?_empty (index : Nat) (g : Geometry) (supply : Supply) (id : ChunkId) :
    (empty index g supply).chunkAt? id = none := by
  simp [chunkAt?, BandLists.chunkAt?, empty]

theorem sound_empty (index : Nat) {g : Geometry} (hg : g.WellFormed) (supply : Supply) :
    (empty index g supply).Sound where
  geometry := hg
  slab := Slab.sound_empty
  pools := SubpagePools.sound_empty g
  chunk id c hFound := by
    rw [chunkAt?_empty] at hFound
    exact absurd hFound (by simp)
  regions id id' c c' hFound := by
    rw [chunkAt?_empty] at hFound
    exact absurd hFound (by simp)
  owner record p hFound := by
    rw [empty, SubpagePools.subpageAt?_empty] at hFound
    exact absurd hFound (by simp)

theorem owes_empty (index : Nat) (g : Geometry) (supply : Supply) :
    (empty index g supply).Owes [] where
  pooled id handle block := by
    rw [blockAt?, chunkAt?_empty]
    simp
  once := List.nodup_nil
  whole b hb := absurd hb (by simp)
  regions := List.nodup_nil

end Arena

end BlockPool
