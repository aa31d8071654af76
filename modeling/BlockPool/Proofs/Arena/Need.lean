import BlockPool.Proofs.Arena.Run
import BlockPool.Proofs.Chunk.Windows

/-!
# BlockPool — a new chunk only where one is needed

Before an arena asks for the memory of a new chunk it looks through its bands, and it looks at few
of them closely: a band is passed over when a percentage says that its chunks cannot have the room,
and full chunks are not looked at. A chunk with a vacant window is never missed that way. What it
has free holds the window, so its usage, and with it the lower bound of its band, cannot be too
high; at the halves and quarters of a chunk the bounds are exact.

* `Arena.Crowded` — no subpage of a size's pool has a free slot.
* `Chunk.Sound.allocate_eq_none_iff` — a chunk refuses a size exactly if no window for it is vacant.
* `Chunk.Sound.band_reaches` — the band of a chunk with a vacant window is asked, not passed over.
* `Arena.MapsIfNeeded` — memory for a chunk is asked for exactly if no chunk has room.
* `Arena.allocate_maps_iff_needed` — so it is after every run, with a cache that misses and without.
-/

namespace BlockPool

open SubpagePools (subpageAt?)

-- ---------------------------------------------------------------------------
-- Sizes and usage
-- ---------------------------------------------------------------------------

/-- A size that is carved from a chunk and less than one is at most half of it. -/
theorem Geometry.Carved.two_mul_le {g : Geometry} {size : Nat} (hg : g.WellFormed)
    (h : g.Carved size) (hLt : size < g.chunkSize) : 2 * size ≤ g.chunkSize := by
  have hLeast := hg.least
  have hPage := hg.pageSize_le
  rcases h with ⟨-, hTiny, -⟩ | ⟨k, -, -, rfl⟩
  · omega
  · rw [hg.chunkSize_eq] at hLt ⊢
    have hk : k < g.scale := (Nat.pow_lt_pow_iff_right (by decide)).mp hLt
    rw [← pow_succ']
    exact Nat.pow_le_pow_right (by decide) hk

/-- The usage of a chunk bounds what it has free. -/
theorem Chunk.freeBytes_lt_of_le_usage {c : Chunk} {percent : Nat} (hSize : 0 < c.size)
    (hPercent : percent ≤ 100) (hUsage : (percent : Int) ≤ c.usage) :
    c.freeBytes * 100 < (101 - percent) * c.size := by
  have hOne : c.size ≤ (101 - percent) * c.size := Nat.le_mul_of_pos_left _ (by omega)
  rw [← Nat.div_lt_iff_lt_mul hSize]
  unfold usage at hUsage
  dsimp only at hUsage
  split at hUsage
  · rename_i hFull
    rw [hFull, Nat.zero_mul, Nat.zero_div]
    omega
  · split at hUsage
    · omega
    · omega

/-- A window of a power of two bytes in a chunk that is three quarters full is a quarter of it at
most. -/
theorem Chunk.four_mul_le_of_usage {c : Chunk} {scale j : Nat} (hSize : c.size = 2 ^ scale)
    (hUsage : 75 ≤ c.usage) (hFree : 2 ^ j ≤ c.freeBytes) : 4 * 2 ^ j ≤ c.size := by
  have hLess : c.freeBytes * 100 < (101 - 75) * c.size :=
    c.freeBytes_lt_of_le_usage (hSize ▸ Nat.two_pow_pos scale) (by decide) hUsage
  rw [hSize] at hLess ⊢
  have hj : j + 2 ≤ scale := by
    by_contra hLarge
    have hPow : 2 ^ scale ≤ 2 ^ (j + 1) := Nat.pow_le_pow_right (by decide) (by omega)
    rw [pow_succ] at hPow
    omega
  calc 4 * 2 ^ j = 2 ^ (j + 2) := by rw [pow_add]; ring
    _ ≤ 2 ^ scale := Nat.pow_le_pow_right (by decide) hj

-- ---------------------------------------------------------------------------
-- Room in one chunk
-- ---------------------------------------------------------------------------

namespace Chunk

variable {c : Chunk} {pools : SubpagePools} {band : Band} {size start : Nat}

/-- The window that a size needs is one of a run, or of a page to be divided. -/
theorem Sound.exists_depth (h : c.Sound pools) (hSize : c.geometry.Carved size) :
    ∃ d ≤ c.geometry.maxOrder,
      2 ^ (c.geometry.scale - d) = max size c.geometry.pageSize := by
  rcases Nat.lt_or_ge size c.geometry.pageSize with hPage | hPage
  · refine ⟨c.geometry.maxOrder, Nat.le_refl _, ?_⟩
    rw [max_eq_right hPage.le, Geometry.scale, Nat.add_sub_cancel, h.geometry.pageSize_eq]
  · obtain ⟨hDepth, hLength⟩ := hSize.runDepth h.geometry hPage
    exact ⟨_, hDepth, by rw [max_eq_left hPage, hLength]⟩

/-- A chunk refuses a size exactly if no window for it is vacant. -/
theorem Sound.allocate_eq_none_iff (h : c.Sound pools)
    (hPools : SubpagePools.Sound c.geometry pools) (hSize : c.geometry.Carved size) :
    c.allocate pools size = none ↔
      ∀ start, ¬ c.Vacant (max size c.geometry.pageSize) start := by
  rcases Nat.lt_or_ge size c.geometry.pageSize with hPage | hPage
  · rw [max_eq_right hPage.le]
    -- a slot needs a page, and the root promises one exactly if a page is vacant
    have hRoom := h.planted.roomAt_root_le_iff (Nat.le_refl c.geometry.maxOrder)
    rw [Geometry.scale, Nat.add_sub_cancel, ← h.geometry.pageSize_eq] at hRoom
    rw [← not_exists, ← hRoom]
    unfold allocate
    rw [if_pos (by simpa [Geometry.isTinyOrSmall] using hPage)]
    constructor
    · intro hNone hPromise
      obtain ⟨block, c', after, hServed⟩ := h.exists_allocateSubpage hPools hSize hPage hPromise
      rw [hNone] at hServed
      exact absurd hServed (by simp)
    · intro hFull
      cases hServed : c.allocateSubpage pools size with
      | none => rfl
      | some served =>
        obtain ⟨block, c', after⟩ := served
        obtain ⟨-, -, node, tree, -, hTake, -⟩ := allocateSubpage_eq_some hServed
        rw [Buddy.take?, if_pos (Nat.lt_of_not_le hFull)] at hTake
        exact absurd hTake (by simp)
  · rw [max_eq_left hPage]
    obtain ⟨k, -, -, hPower⟩ := hSize.exists_of_page_le h.geometry hPage
    exact h.planted.allocate_eq_none_iff ⟨k, hPower⟩ hPage (hSize.le_chunkSize h.geometry)

/-- A vacant window for a size is part of what is free. -/
theorem Sound.le_freeBytes (h : c.Sound pools) (hSize : c.geometry.Carved size)
    (hVacant : c.Vacant (max size c.geometry.pageSize) start) :
    max size c.geometry.pageSize ≤ c.freeBytes := by
  obtain ⟨d, hd, hLength⟩ := h.exists_depth hSize
  rw [← hLength] at hVacant ⊢
  have hRoom := (h.planted.roomAt_root_le_iff hd).mpr ⟨start, hVacant⟩
  obtain ⟨node, tree, -, hDepth, hTakes⟩ := h.tree.exists_take (h.order ▸ hd) hRoom
  have hLe := h.runLength_le hTakes
  rwa [runLength_eq h.geometry, Buddy.spanLength, hDepth] at hLe

/-- The band of a chunk with a vacant window for a size below a chunk is one of those that are
asked, and it is not passed over for the size. -/
theorem Sound.band_reaches (h : c.Sound pools) (hSize : c.geometry.Carved size)
    (hLt : size < c.geometry.chunkSize) (hCovers : band.Covers c.usage)
    (hVacant : c.Vacant (max size c.geometry.pageSize) start) :
    band ∈ Band.searchOrder ∧ size ≤ band.maxCapacity c.geometry.chunkSize := by
  have hHalf := hSize.two_mul_le h.geometry hLt
  have hFree := h.le_freeBytes hSize hVacant
  have hPos := hSize.pos
  have hLow := hCovers.1
  cases band with
  | fresh => exact ⟨by decide, by simp [Band.maxCapacity, Band.minUsage]; omega⟩
  | q000 => exact ⟨by decide, by simp [Band.maxCapacity, Band.minUsage]; omega⟩
  | q025 => exact ⟨by decide, by simp [Band.maxCapacity, Band.minUsage]; omega⟩
  | q050 => exact ⟨by decide, by simp [Band.maxCapacity, Band.minUsage]; omega⟩
  | q075 =>
    -- the bound is a quarter of the chunk, and so is the largest power of two that can be free
    obtain ⟨d, -, hLength⟩ := h.exists_depth hSize
    rw [← hLength] at hFree
    have hQuarter := four_mul_le_of_usage (size_eq h.geometry) hLow hFree
    rw [hLength, Chunk.size] at hQuarter
    have hLe := Nat.le_max_left size c.geometry.pageSize
    exact ⟨by decide, by simp [Band.maxCapacity, Band.minUsage]; omega⟩
  | q100 =>
    have hFull := hundred_le_usage_iff.mp hLow
    have hLe := Nat.le_max_left size c.geometry.pageSize
    omega

end Chunk

-- ---------------------------------------------------------------------------
-- Room in the bands
-- ---------------------------------------------------------------------------

namespace Band

/-- No band is asked for a whole chunk. -/
theorem maxCapacity_lt (band : Band) {chunkSize : Nat} (hPos : 0 < chunkSize) :
    band.maxCapacity chunkSize < chunkSize := by
  cases band <;> simp [maxCapacity, minUsage] <;> omega

end Band

namespace BandLists

variable {lists lists' : BandLists} {chunks chunks' : Nodes Chunk} {pools pools' : SubpagePools}
  {band : Band} {size i : Nat} {block : Block} {c : Chunk} {handle : Handle} {fate : Fate}

/-- The search does not end before it comes to a chunk with room. -/
theorem firstFit_ne_none {indices : List Nat}
    (hAll : ∀ i ∈ indices, ∃ c, chunks.value? i = some c) (hMem : i ∈ indices)
    (hValue : chunks.value? i = some c) (hRoom : c.allocate pools size ≠ none) :
    firstFit chunks pools size indices ≠ none := by
  induction indices with
  | nil => exact absurd hMem (by simp)
  | cons first rest ih =>
    obtain ⟨c₀, hFirst⟩ := hAll first List.mem_cons_self
    rw [firstFit, hFirst]
    dsimp only
    cases hServed : c₀.allocate pools size with
    | some served => simp
    | none =>
      dsimp only
      rcases List.mem_cons.mp hMem with rfl | hRest
      · rw [hValue] at hFirst
        obtain rfl := Option.some.inj hFirst
        exact absurd hServed hRoom
      · exact ih (fun j hj => hAll j (List.mem_cons_of_mem first hj)) hRest

/-- A band that is not passed over serves a size if one of its chunks does. -/
theorem Filed.allocate_ne_none (h : lists.Filed chunks) (hValue : chunks.value? i = some c)
    (hBand : c.band = some band) (hSize : size ≤ band.maxCapacity lists.chunkSize)
    (hRoom : c.allocate pools size ≠ none) : lists.allocate chunks pools band size ≠ none := by
  have hMem : i ∈ lists.members chunks band := h.mem_members.mpr ⟨c, hValue, hBand⟩
  have hChain : (lists.chain band).isEmpty = false := by
    have hLength := (h.spells_members band).length
    have hPos := List.length_pos_of_mem hMem
    simp only [Chain.isEmpty, beq_eq_false_iff_ne]
    omega
  have hFit : firstFit chunks pools size (lists.members chunks band) ≠ none := firstFit_ne_none
    (fun j hj => (h.mem_members.mp hj).imp fun _ => And.left) hMem hValue hRoom
  unfold allocate
  rw [if_neg (by rw [hChain]; simpa using hSize)]
  cases hServed : firstFit chunks pools size (lists.members chunks band) with
  | none => exact absurd hServed hFit
  | some served =>
    dsimp only
    split
    · split <;> simp
    · simp

/-- What a band serves is no more than it can be expected to have. -/
theorem le_maxCapacity_of_allocate
    (h : lists.allocate chunks pools band size = some (block, lists', chunks', pools')) :
    size ≤ band.maxCapacity lists.chunkSize := by
  by_contra hLarge
  unfold allocate at h
  rw [if_pos (.inr (Nat.lt_of_not_le hLarge))] at h
  exact absurd h (by simp)

-- The size of the chunks is set once

theorem chunkSize_link (lists : BandLists) (chunks : Nodes Chunk) (band : Band) (i : Nat) :
    (lists.link chunks band i).1.chunkSize = lists.chunkSize := by
  unfold link
  split <;> rfl

theorem chunkSize_remove (lists : BandLists) (chunks : Nodes Chunk) (band : Band) (i : Nat) :
    (lists.remove chunks band i).1.chunkSize = lists.chunkSize := by
  unfold remove
  split <;> rfl

theorem chunkSize_add (lists : BandLists) (chunks : Nodes Chunk) (band : Band) (i : Nat) :
    (lists.add chunks band i).1.chunkSize = lists.chunkSize := by
  unfold add
  split
  · exact chunkSize_link ..
  · rfl

theorem chunkSize_allocate
    (h : lists.allocate chunks pools band size = some (block, lists', chunks', pools')) :
    lists'.chunkSize = lists.chunkSize := by
  obtain ⟨index, c, c', -, -, -, hRise⟩ := allocate_cases h
  obtain rfl : (lists.rise (chunks.putValue index c') band index c'.usage).1 = lists' := by
    rw [hRise]
  unfold rise
  split
  · split
    · rw [chunkSize_add, chunkSize_remove]
    · rw [chunkSize_remove]
  · rfl

theorem chunkSize_free
    (h : lists.free chunks pools i handle = .ok (fate, lists', chunks', pools')) :
    lists'.chunkSize = lists.chunkSize := by
  obtain ⟨c, c', -, -, ⟨-, hKept⟩ | ⟨band, -, hSink⟩⟩ := free_cases h
  · simp only [Prod.mk.injEq] at hKept
    rw [hKept.2.1]
  · obtain rfl : (lists.sink (chunks.putValue i c') band i c'.usage).2.1 = lists' := by
      rw [hSink]
    unfold sink
    split
    · split
      · rw [chunkSize_link, chunkSize_remove]
      · rw [chunkSize_remove]
    · rfl

end BandLists

-- ---------------------------------------------------------------------------
-- Room in an arena
-- ---------------------------------------------------------------------------

namespace Arena

variable {a a' : Arena} {g : Geometry} {c : Chunk} {k : SizeClass} {request size i start : Nat}
  {block : Block} {bands : List Band}

/-- The bands know the size of a chunk. -/
def Gauged (a : Arena) : Prop := a.lists.chunkSize = a.geometry.chunkSize

theorem Gauged.allocateUnpooled (h : a.Gauged) (size : Nat) :
    (a.allocateUnpooled size).2.Gauged := by
  unfold Arena.allocateUnpooled
  dsimp only
  split <;> exact h

theorem Gauged.allocateListed (h : a.Gauged)
    (hListed : a.allocateListed size bands = some (block, a')) : a'.Gauged := by
  obtain ⟨band, -, lists, chunks, pools, hBand, rfl⟩ := allocateListed_eq_some hListed
  exact (BandLists.chunkSize_allocate hBand).trans h

theorem Gauged.allocateFrom (h : a.Gauged) (k : SizeClass) (size : Nat) (chunk : Chunk) :
    (a.allocateFrom k size chunk).2.Gauged := by
  unfold Arena.allocateFrom
  cases chunk.allocate a.pools size with
  | none => exact (BandLists.chunkSize_add ..).trans h
  | some served => exact (BandLists.chunkSize_add ..).trans h

theorem Gauged.allocateChunked (h : a.Gauged) (k : SizeClass) (size : Nat) :
    (a.allocateChunked k size).2.Gauged := by
  unfold Arena.allocateChunked
  split
  · rename_i block listed hListed
    have hServed : listed.Gauged := h.allocateListed hListed
    exact hServed
  · dsimp only
    split
    · exact Gauged.allocateUnpooled (a := { a with requests := a.requests + 1 }) h size
    · exact Gauged.allocateFrom (a := { a with requests := a.requests + 1 }) h k size _

theorem Gauged.allocate (h : a.Gauged) (request : Nat) : (a.allocate request).2.Gauged := by
  unfold Arena.allocate
  dsimp only
  split
  · exact h
  · unfold allocateClass
    split
    · split
      · rename_i hSlot
        obtain ⟨pool, pool', -, -, rfl⟩ := allocateSlot_eq_some hSlot
        exact h
      · exact h.allocateChunked ..
    · split
      · rename_i hSlot
        obtain ⟨pool, pool', -, -, rfl⟩ := allocateSlot_eq_some hSlot
        exact h
      · exact h.allocateChunked ..
    · exact h.allocateChunked ..
    · exact h.allocateUnpooled _

theorem Gauged.freeChunk (h : a.Gauged) (id : ChunkId) (handle : Handle) (k : SizeClass) :
    (a.freeChunk id handle k).2.Gauged := by
  unfold Arena.freeChunk
  split
  · exact h
  · split
    · exact h
    · rename_i hFree
      exact (BandLists.chunkSize_free hFree).trans h

theorem Gauged.free (h : a.Gauged) (block : Block) : (a.free block).2.Gauged := by
  unfold Arena.free
  split
  · dsimp only
    unfold freeUnpooled
    split <;> exact h
  · exact h.freeChunk ..

theorem Gauged.release (h : a.Gauged) (blocks : List Block) :
    (Cache.release a blocks).Gauged := by
  induction blocks generalizing a with
  | nil => exact h
  | cons block blocks ih => exact ih (h.free block)

/-- No operation changes what the bands know. -/
theorem Gauged.step (h : a.Gauged) (op : Op) : (a.step op).Gauged := by
  cases op with
  | allocate request => exact h.allocate request
  | allocateVia c request =>
    rcases arena_allocateCached a c request with hServed | hAsked
    · rw [Arena.step, hServed]
      exact h.release _
    · rw [Arena.step, hAsked]
      exact (h.release _).allocate request
  | take c k size =>
    rw [Arena.step, Cache.arena_take]
    exact h.release (c.shed k size)
  | free block => exact h.free block
  | freeVia c block =>
    rcases arena_freeCached a c block with hParked | hFreed
    · rwa [Arena.step, hParked]
    · rw [Arena.step, hFreed]
      exact h.free block
  | freeChunk id handle k => exact h.freeChunk id handle k
  | bind => exact h
  | trim c => exact h.release c.surplus
  | drop c => exact h.release (c.gather CacheQueue.drain).1

theorem Gauged.run (h : a.Gauged) (ops : List Op) : (a.run ops).Gauged := by
  induction ops generalizing a with
  | nil => exact h
  | cons op rest ih => exact ih (h.step op)

-- ---------------------------------------------------------------------------
-- The search through the bands
-- ---------------------------------------------------------------------------

/-- Some chunk of the arena has a vacant window of some length. -/
def HasWindow (a : Arena) (length : Nat) : Prop :=
  ∃ i c start, a.chunks.value? i = some c ∧ c.Vacant length start

/-- No subpage of the pool that serves a size has a free slot. -/
def Crowded (a : Arena) (size : Nat) : Prop :=
  ∀ record p, record.pool = Geometry.poolIndex size → subpageAt? a.pools record = some p →
    ∀ slot < p.maxElems, p.isUsed slot = true

theorem allocateListed_eq_none_iff : a.allocateListed size bands = none ↔
    ∀ band ∈ bands, a.lists.allocate a.chunks a.pools band size = none := by
  induction bands with
  | nil => simp [allocateListed]
  | cons band bands ih =>
    rw [allocateListed, List.forall_mem_cons]
    split
    · rename_i hServed
      simp [hServed]
    · rename_i hNone
      simp [hNone, ih]

/-- A chunk of the arena in its place. -/
theorem Sound.of_value? (h : a.Sound) (hValue : a.chunks.value? i = some c) :
    c.Sound a.pools ∧ c.geometry = a.geometry := by
  obtain ⟨id, -, hFound⟩ := Nodes.exists_find?_of_value? hValue
  obtain ⟨-, hGeometry, hSound⟩ := h.hosts_of_find? hFound
  exact ⟨hSound, hGeometry⟩

/-- A chunk with a vacant window for a size below a chunk is in a band that is asked, and that is
not passed over for the size. -/
theorem Regular.band_reaches (h : a.Regular g) (hSize : g.Carved size) (hLt : size < g.chunkSize)
    (hValue : a.chunks.value? i = some c) (hVacant : c.Vacant (max size g.pageSize) start) :
    ∃ band ∈ Band.searchOrder, c.band = some band ∧ i ∈ a.lists.members a.chunks band ∧
      size ≤ band.maxCapacity g.chunkSize := by
  obtain ⟨hSound, hGeometry⟩ := h.sound.of_value? hValue
  rw [h.geometry] at hGeometry
  obtain ⟨band, hBand, hCovers⟩ := h.orderly.bands.placed i c hValue
  rw [← hGeometry] at hSize hLt hVacant ⊢
  obtain ⟨hAsked, hFits⟩ := hSound.band_reaches hSize hLt hCovers hVacant
  exact ⟨band, hAsked, hBand, h.orderly.bands.mem_members.mpr ⟨c, hValue, hBand⟩, hFits⟩

/-- The bands serve a size exactly if it is less than a chunk and some chunk has a vacant window for
it. -/
theorem Regular.allocateListed_eq_none_iff (h : a.Regular g) (hGauged : a.Gauged)
    (hSize : g.Carved size) :
    a.allocateListed size Band.searchOrder = none ↔
      size = g.chunkSize ∨ ¬ a.HasWindow (max size g.pageSize) := by
  have hg : g.WellFormed := h.geometry ▸ h.sound.geometry
  have hChunkSize : a.lists.chunkSize = g.chunkSize := hGauged.trans (by rw [h.geometry])
  have hPools : SubpagePools.Sound g a.pools := h.geometry ▸ h.sound.pools
  constructor
  · intro hNone
    rw [Arena.allocateListed_eq_none_iff] at hNone
    rcases Nat.lt_or_eq_of_le (hSize.le_chunkSize hg) with hLt | hWhole
    · refine .inr ?_
      rintro ⟨i, c, start, hValue, hVacant⟩
      -- a chunk with a window stands in a band that is asked for the size, and would have served it
      obtain ⟨band, hAsked, hBand, -, hFits⟩ := h.band_reaches hSize hLt hValue hVacant
      obtain ⟨hSound, hGeometry⟩ := h.sound.of_value? hValue
      rw [h.geometry] at hGeometry
      refine h.orderly.bands.allocate_ne_none hValue hBand (hChunkSize ▸ hFits) ?_
        (hNone band hAsked)
      rw [Ne, hSound.allocate_eq_none_iff (hGeometry ▸ hPools) (hGeometry ▸ hSize), hGeometry]
      exact fun hFull => hFull start hVacant
    · exact .inl hWhole
  · intro hReason
    cases hListed : a.allocateListed size Band.searchOrder with
    | none => rfl
    | some served =>
      obtain ⟨block, a'⟩ := served
      obtain ⟨band, -, lists, chunks, pools, hBand, -⟩ := allocateListed_eq_some hListed
      have hFits := BandLists.le_maxCapacity_of_allocate hBand
      have hLess := band.maxCapacity_lt hg.chunkSize_pos
      rw [hChunkSize] at hFits
      -- no band is asked for a whole chunk, and a chunk that serves has a window
      rcases hReason with hWhole | hNoWindow
      · omega
      · obtain ⟨index, c, c', -, hValue, hServed, -⟩ := BandLists.allocate_cases hBand
        obtain ⟨hSound, hGeometry⟩ := h.sound.of_value? hValue
        rw [h.geometry] at hGeometry
        have hFull : c.allocate a.pools size = none := by
          rw [hSound.allocate_eq_none_iff (hGeometry ▸ hPools) (hGeometry ▸ hSize), hGeometry]
          exact fun start hVacant => hNoWindow ⟨index, c, start, hValue, hVacant⟩
        rw [hFull] at hServed
        exact absurd hServed (by simp)

-- ---------------------------------------------------------------------------
-- Asking for memory
-- ---------------------------------------------------------------------------

theorem requests_allocateUnpooled (a : Arena) (size : Nat) :
    (a.allocateUnpooled size).2.requests = a.requests + 1 := by
  unfold allocateUnpooled
  dsimp only
  split <;> rfl

theorem requests_allocateFrom (a : Arena) (k : SizeClass) (size : Nat) (chunk : Chunk) :
    (a.allocateFrom k size chunk).2.requests = a.requests := by
  unfold allocateFrom
  cases chunk.allocate a.pools size <;> rfl

/-- Memory is asked for exactly where no band serves a size. -/
theorem requests_allocateChunked (a : Arena) (k : SizeClass) (size : Nat) :
    a.requests < (a.allocateChunked k size).2.requests ↔
      a.allocateListed size Band.searchOrder = none := by
  unfold allocateChunked
  cases hListed : a.allocateListed size Band.searchOrder with
  | some served =>
    obtain ⟨block, a'⟩ := served
    obtain ⟨band, -, lists, chunks, pools, -, rfl⟩ := allocateListed_eq_some hListed
    exact iff_of_false (Nat.lt_irrefl _) (by simp)
  | none =>
    refine iff_of_true ?_ rfl
    dsimp only
    split
    · rw [requests_allocateUnpooled]
      exact Nat.lt_succ_of_lt (Nat.lt_succ_self _)
    · rw [requests_allocateFrom]
      exact Nat.lt_succ_self _

/-- A crowded pool hands out no slot. -/
theorem Sound.allocateSlot_eq_none (h : a.Sound) (hCrowded : a.Crowded size) (k : SizeClass) :
    a.allocateSlot k size = none := by
  cases hSlot : a.allocateSlot k size with
  | none => rfl
  | some served =>
    obtain ⟨block, a'⟩ := served
    obtain ⟨pool, pool', hPool, hTake, -⟩ := allocateSlot_eq_some hSlot
    obtain ⟨key, p, q, hFound, hServed, -⟩ :=
      SubpagePool.take?_eq_some (h.pools.slab _ pool hPool) hTake
    have hHere := (SubpagePools.subpageAt?_of_pool hPool key).trans hFound
    obtain ⟨slot, hLt, hFree⟩ := (h.pools.subpage _ p hHere).1.numFree_ne_zero_iff.mp
      (Subpage.numFree_of_take hServed).1
    rw [hCrowded _ p rfl hHere slot hLt] at hFree
    exact absurd hFree (by simp)

/-- A request of at most a chunk that no slot serves goes to the chunks. -/
theorem Sound.allocate_eq_chunked (h : a.Sound) (hPos : 0 < a.geometry.normalize request)
    (hLe : a.geometry.normalize request ≤ a.geometry.chunkSize)
    (hCrowded : a.geometry.normalize request < a.geometry.pageSize →
      a.Crowded (a.geometry.normalize request)) :
    a.allocate request =
      a.allocateChunked (a.geometry.sizeClass (a.geometry.normalize request))
        (a.geometry.normalize request) := by
  rw [allocate_of_pos hPos.ne']
  cases hClass : a.geometry.sizeClass (a.geometry.normalize request) with
  | tiny =>
    have hPage := Geometry.lt_pageSize_of_sizeClass (.inl hClass)
    rw [allocateClass, h.allocateSlot_eq_none (hCrowded hPage)]
  | small =>
    have hPage := Geometry.lt_pageSize_of_sizeClass (.inr hClass)
    rw [allocateClass, h.allocateSlot_eq_none (hCrowded hPage)]
  | normal => rfl
  | huge =>
    have := Geometry.chunkSize_lt_of_sizeClass_huge hClass
    omega

/-- How a request that no slot serves uses the chunks of an arena. -/
structure MapsIfNeeded (a : Arena) (g : Geometry) (request : Nat) : Prop where
  /-- Memory is asked for exactly if the size is that of a chunk or no chunk has a vacant window. -/
  asked : a.requests < (a.allocate request).2.requests ↔
    g.normalize request = g.chunkSize ∨
      ¬ a.HasWindow (max (g.normalize request) g.pageSize)
  /-- What is asked for is the memory of a chunk, and the chunk comes in where it can be had. -/
  maps : a.requests < (a.allocate request).2.requests →
    (∃ cause, Chunk.allocateNew (a.supply a.requests) a.requests a.chunks.nextKey g =
        .error cause) ∨
      ((a.allocate request).2.chunks.find? a.chunks.nextKey).isSome = true
  /-- Otherwise a chunk that was there serves the request. -/
  served : ¬ a.requests < (a.allocate request).2.requests →
    ∃ block id handle, (a.allocate request).1 = .ok block ∧ block.origin = .pooled id handle ∧
      (a.chunks.find? id).isSome = true
  /-- No chunk with a vacant window is in a band that is passed over or not asked. -/
  reached : g.normalize request < g.chunkSize → ∀ i c start, a.chunks.value? i = some c →
    c.Vacant (max (g.normalize request) g.pageSize) start →
      ∃ band ∈ Band.searchOrder, i ∈ a.lists.members a.chunks band ∧
        g.normalize request ≤ band.maxCapacity a.lists.chunkSize

/-- What the bands serve comes from a chunk of the arena. -/
theorem Regular.origin_of_allocateListed (h : a.Regular g) (hSize : g.Carved size)
    (hListed : a.allocateListed size bands = some (block, a')) :
    ∃ id handle, block.origin = .pooled id handle ∧ (a.chunks.find? id).isSome = true := by
  obtain ⟨band, -, lists, chunks, pools, hBand, -⟩ := allocateListed_eq_some hListed
  obtain ⟨id, c, c', hFound, hServed, -⟩ := BandLists.allocate_eq_some hBand
  obtain ⟨hId, hGeometry, hSound⟩ := h.sound.hosts_of_find? hFound
  obtain ⟨hGrants, -⟩ := hSound.grants_of_allocate (hGeometry ▸ h.sound.pools)
    (by rwa [hGeometry, h.geometry]) hServed
  obtain ⟨handle, hOrigin, -, -⟩ := hGrants.blocks
  exact ⟨id, handle, hId ▸ hOrigin, by rw [hFound]; rfl⟩

/-- A new chunk is found under its name. -/
theorem Sound.isSome_find?_allocateFrom (h : a.Sound) (k : SizeClass) (size : Nat) (chunk : Chunk) :
    ((a.allocateFrom k size chunk).2.chunks.find? a.chunks.nextKey).isSome = true := by
  have hAdded (c : Chunk) : ((a.lists.add (a.chunks.insertValue c).2 .fresh
      (a.chunks.insertValue c).1.index).2.find? a.chunks.nextKey).isSome = true := by
    have hSame := (BandLists.rebanded_add a.lists (a.chunks.insertValue c).2 .fresh
      (a.chunks.insertValue c).1.index).chunkAt? a.chunks.nextKey
    rw [BandLists.chunkAt?, BandLists.chunkAt?, Nodes.find?_insertValue h.slab, if_pos rfl] at hSame
    rw [← Option.isSome_map (f := Chunk.unbanded), hSame]
    rfl
  unfold allocateFrom
  cases chunk.allocate a.pools size with
  | none => exact hAdded chunk
  | some served => exact hAdded served.2.1

/-- Past the slots a request goes through the bands, and to a new chunk when these refuse it. -/
theorem Regular.mapsIfNeeded (h : a.Regular g) (hGauged : a.Gauged)
    (hPos : 0 < g.normalize request) (hLe : g.normalize request ≤ g.chunkSize)
    (hCrowded : g.normalize request < g.pageSize → a.Crowded (g.normalize request)) :
    a.MapsIfNeeded g request := by
  obtain ⟨rfl, hSound, -⟩ := id h
  have hSize : a.geometry.Carved (a.geometry.normalize request) :=
    hSound.geometry.carved_of_le hPos hLe
  have hChunked := hSound.allocate_eq_chunked hPos hLe hCrowded
  have hAsked := requests_allocateChunked a
    (a.geometry.sizeClass (a.geometry.normalize request)) (a.geometry.normalize request)
  rw [← hChunked] at hAsked
  refine ⟨hAsked.trans (h.allocateListed_eq_none_iff hGauged hSize), fun hMore => ?_,
    fun hSame => ?_, fun hLt i c start hValue hVacant => ?_⟩
  -- the region is refused, or the chunk over it is in the arena after
  · rw [hChunked, allocateChunked, hAsked.mp hMore]
    dsimp only
    split
    · rename_i cause hRefused
      exact .inl ⟨cause, hRefused⟩
    · have hSame : a.Resembles { a with requests := a.requests + 1 } :=
        ⟨rfl, rfl, rfl, Nat.le_succ _⟩
      exact .inr ((hSame.sound hSound).isSome_find?_allocateFrom ..)
  · rw [hChunked, allocateChunked]
    cases hListed : a.allocateListed (a.geometry.normalize request) Band.searchOrder with
    | none => exact absurd (hAsked.mpr hListed) hSame
    | some served =>
      obtain ⟨block, a'⟩ := served
      obtain ⟨id, handle, hOrigin, hFound⟩ := h.origin_of_allocateListed hSize hListed
      exact ⟨block, id, handle, rfl, hOrigin, hFound⟩
  · obtain ⟨band, hMem, -, hHere, hFits⟩ := h.band_reaches hSize hLt hValue hVacant
    exact ⟨band, hMem, hHere, by rwa [show a.lists.chunkSize = _ from hGauged]⟩

/-- After every run of an arena, and for every request of at most a chunk that no slot serves,
memory for a new chunk is asked for exactly if the size is that of a chunk or no chunk of the arena
has a vacant window for it. A cache that misses leaves an arena of which the same holds. -/
theorem allocate_maps_iff_needed (hg : g.WellFormed) (index : Nat) (supply : Supply)
    (ops : List Op) (request : Nat) (hPos : 0 < g.normalize request)
    (hLe : g.normalize request ≤ g.chunkSize) :
    let a := (empty index g supply).run ops
    let size := g.normalize request
    ((size < g.pageSize → a.Crowded size) → a.MapsIfNeeded g request) ∧
      ∀ cache : Cache, (cache.take a (g.sizeClass size) size).1 = none →
        let missed := (cache.take a (g.sizeClass size) size).2
        ((size < g.pageSize → missed.2.Crowded size) → missed.2.MapsIfNeeded g request) ∧
          a.allocateCached cache request =
            ((missed.2.allocate request).1, missed.1, (missed.2.allocate request).2) := by
  intro a size
  have hMaps (ops : List Op) :
      (size < g.pageSize → ((empty index g supply).run ops).Crowded size) →
        ((empty index g supply).run ops).MapsIfNeeded g request :=
    ((regular_empty hg index supply).run ops).mapsIfNeeded
      (Gauged.run (a := empty index g supply) rfl ops) hPos hLe
  refine ⟨hMaps ops, fun cache hMiss => ?_⟩
  intro missed
  constructor
  -- what a cache that misses leaves is the arena after one more operation
  · have hTaken := hMaps (ops ++ [.take cache (g.sizeClass size) size])
    rw [run, List.foldl_append] at hTaken
    exact hTaken
  · have hGeometry : a.geometry = g := ((regular_empty hg index supply).run ops).geometry
    have hSmall : g.sizeClass size ≠ .huge := fun hHuge =>
      absurd (Geometry.chunkSize_lt_of_sizeClass_huge hHuge) (Nat.not_lt.mpr hLe)
    have hTake : cache.take a (g.sizeClass (g.normalize request)) (g.normalize request) =
        (none, missed) := Prod.ext hMiss rfl
    rw [allocateCached_via (by rw [hGeometry]; exact hPos.ne') (by rw [hGeometry]) hSmall,
      hGeometry, hTake]

/-- A page is divided for a slot, and the other page of the chunk serves a request of a page; after
that no window is left, and the same request asks for the memory of another chunk. -/
theorem allocate_maps_iff_needed_two_pages :
    (⟨4096, 1, 0⟩ : Geometry).WellFormed ∧ ∃ a full : Arena,
      a = (empty 0 ⟨4096, 1, 0⟩ fun _ => Provider.below (2 ^ 20)).run [.allocate 100] ∧
      full = (empty 0 ⟨4096, 1, 0⟩ fun _ => Provider.below (2 ^ 20)).run
        [.allocate 100, .allocate 4096] ∧
      (¬ a.requests < (a.allocate 4096).2.requests ∧ a.HasWindow 4096) ∧
      full.requests < (full.allocate 4096).2.requests ∧ ¬ full.HasWindow 4096 := by
  have hg := Geometry.wellFormed_two_pages
  have hMaps (ops : List Op) := (allocate_maps_iff_needed hg 0
    (fun _ => Provider.below (2 ^ 20)) ops 4096 (by decide) (by decide)).1
    (fun hSmall => absurd hSmall (by decide))
  have hSize : max ((⟨4096, 1, 0⟩ : Geometry).normalize 4096) 4096 = 4096 := by decide
  refine ⟨hg, _, _, rfl, rfl, ?_, ?_⟩
  -- the free page is a window, so nothing is asked for
  · have hSame : ¬ ((empty 0 ⟨4096, 1, 0⟩ fun _ => Provider.below (2 ^ 20)).run
        [.allocate 100]).requests < (((empty 0 ⟨4096, 1, 0⟩ fun _ => Provider.below (2 ^ 20)).run
          [.allocate 100]).allocate 4096).2.requests := by decide +kernel
    have hReason := mt (hMaps [.allocate 100]).asked.mpr hSame
    rw [not_or, not_not, hSize] at hReason
    exact ⟨hSame, hReason.2⟩
  -- both pages are taken, and there is no other chunk
  · have hMore : ((empty 0 ⟨4096, 1, 0⟩ fun _ => Provider.below (2 ^ 20)).run
        [.allocate 100, .allocate 4096]).requests <
          (((empty 0 ⟨4096, 1, 0⟩ fun _ => Provider.below (2 ^ 20)).run
            [.allocate 100, .allocate 4096]).allocate 4096).2.requests := by decide +kernel
    have hReason := (hMaps [.allocate 100, .allocate 4096]).asked.mp hMore
    rw [hSize] at hReason
    exact ⟨hMore, hReason.resolve_left (by decide)⟩

end Arena

end BlockPool
