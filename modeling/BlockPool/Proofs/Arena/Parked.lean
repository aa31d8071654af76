import BlockPool.Proofs.Arena.Cache

/-!
# BlockPool — what a cache has room for

A cache has queues for a class only if its configuration gives them room, and then one for every
size of the class up to the largest that is held. So whether a block is parked can be said without
the queues: there is room, and the blocks of its size do not fill it.

* `Cache.Fitted` — the queues are as many, and as large, as the configuration says.
* `Cache.HasRoom` — a block of a size may be parked.
* `Cache.Fitted.exists_park?_iff` — it is parked exactly then.
-/

namespace BlockPool

/-- The sizes that requests are rounded to. -/
def Geometry.Normalized (g : Geometry) (size : Nat) : Prop :=
  ∃ request, g.normalize request = size

/-- The blocks that a queue of a class may hold. -/
def PoolConfig.cacheSize (c : PoolConfig) : SizeClass → Nat
  | .tiny => c.tinyCacheSize
  | .small => c.smallCacheSize
  | .normal => c.normalCacheSize
  | .huge => 0

namespace Cache

variable {c c' : Cache} {g : Geometry} {k : SizeClass} {size i : Nat} {q q' : CacheQueue}
  {block : Block} {config : PoolConfig}

-- ---------------------------------------------------------------------------
-- As many queues as sizes
-- ---------------------------------------------------------------------------

/-- The queues of a class, where it has any. -/
def numQueues (g : Geometry) (maxCached : Nat) : SizeClass → Nat
  | .tiny => Geometry.numTinyPools
  | .small => g.numSmallPools
  | .normal => numNormalQueues g maxCached
  | .huge => 0

/-- Every size of a class has a place among its queues, but for normal sizes that are not held. -/
theorem exists_queueIndex? (hg : g.WellFormed) (hGeometry : c.geometry = g) (h : g.Carved size)
    (hClass : g.sizeClass size = k) (hCached : k = .normal → size ≤ c.maxCached) :
    ∃ i, c.queueIndex? k size = some i ∧ i < numQueues g c.maxCached k := by
  have hChunk := h.le_chunkSize hg
  cases k with
  | tiny =>
    have hTiny := Geometry.lt_of_sizeClass_tiny hClass
    refine ⟨_, rfl, ?_⟩
    show size / 16 < 32
    omega
  | small =>
    obtain ⟨m, hm, -, rfl⟩ := h.exists_of_tiny_le (Geometry.le_of_sizeClass_small hClass)
    have hPage := Geometry.lt_pageSize_of_sizeClass (.inr hClass)
    rw [hg.pageSize_eq, Nat.pow_lt_pow_iff_right (by decide)] at hPage
    refine ⟨_, rfl, ?_⟩
    -- the doublings from 512 up to a page
    rw [Geometry.smallIndex_two_pow hm]
    show m - 9 < g.pageShift - 9
    omega
  | normal =>
    have hHeld := hCached rfl
    have hPage := Geometry.pageSize_le_of_sizeClass hClass
    obtain ⟨m, hm, -, rfl⟩ := h.exists_of_page_le hg hPage
    refine ⟨m - g.pageShift, ?_, ?_⟩
    · rw [queueIndex?, Nat.log2_two_pow, hGeometry, if_neg (by omega)]
    · -- the size is at most the largest one that is held
      have hLargest : 2 ^ m ≤ min g.chunkSize c.maxCached := le_min hChunk hHeld
      have hSteps : 2 ^ (m - g.pageShift) ≤ min g.chunkSize c.maxCached / g.pageSize := by
        rw [Nat.le_div_iff_mul_le (by have := hg.least; omega), hg.pageSize_eq, ← pow_add,
          Nat.sub_add_cancel hm]
        exact hLargest
      show m - g.pageShift < numNormalQueues g c.maxCached
      rw [numNormalQueues, if_neg (by omega), Nat.lt_succ_iff]
      exact (Nat.le_log2 (Nat.ne_of_gt ((Nat.two_pow_pos _).trans_le hSteps))).mpr hSteps
  | huge => exact absurd (Geometry.chunkSize_lt_of_sizeClass_huge hClass) (by omega)

/-- The queues are those of a configuration, and hold what requests are rounded to. -/
structure Fitted (c : Cache) (g : Geometry) (config : PoolConfig) : Prop where
  maxCached : c.maxCached = config.maxCachedCapacity
  queues : ∀ k, (c.queuesOf k).size =
    if config.useThreadCache = true ∧ 0 < config.cacheSize k then
      numQueues g config.maxCachedCapacity k
    else 0
  capacity : ∀ (k : SizeClass) (i : Nat) (q : CacheQueue), (c.queuesOf k)[i]? = some q →
    q.blocks.capacity = config.cacheSize k
  normalized : ∀ b ∈ c.blocks, g.Normalized b.capacity

-- ---------------------------------------------------------------------------
-- Caches stay fitted
-- ---------------------------------------------------------------------------

theorem size_array (size count : Nat) :
    (CacheQueue.array size count).size = if 0 < size then count else 0 := by
  unfold CacheQueue.array
  split
  · rename_i hZero
    rw [if_neg (by omega), List.size_toArray, List.length_nil]
  · rename_i hPos
    rw [if_pos (by omega), Array.size_replicate]

/-- Without caches, a thread has one that has no queues. -/
theorem fitted_empty (g : Geometry) (config : PoolConfig) :
    (empty g (if config.useThreadCache then config else config.withoutCache)).Fitted g config where
  maxCached := by
    split <;> rfl
  queues k := by
    cases hUse : config.useThreadCache with
    | true => cases k <;> simp [queuesOf, empty, size_array, numQueues, PoolConfig.cacheSize]
    | false => cases k <;> simp [queuesOf, empty, size_array, PoolConfig.withoutCache]
  capacity k i q hAt := by
    cases hUse : config.useThreadCache with
    | true =>
      rw [hUse, if_pos rfl] at hAt
      cases k with
      | huge => exact absurd hAt (by simp [queuesOf])
      | _ =>
        rw [eq_empty_of_array hAt]
        exact Array.size_replicate
    | false =>
      rw [hUse] at hAt
      cases k <;> exact absurd hAt (by simp [queuesOf, empty, CacheQueue.array,
        PoolConfig.withoutCache])
  normalized b hb := by
    rw [blocks_empty] at hb
    exact absurd hb (by simp)

theorem Fitted.setQueue (h : c.Fitted g config) (hAt : (c.queuesOf k)[i]? = some q)
    (hCapacity : q'.blocks.capacity = q.blocks.capacity)
    (hNormalized : ∀ b ∈ (c.setQueue k i q').blocks, g.Normalized b.capacity) :
    (c.setQueue k i q').Fitted g config where
  maxCached := by
    rw [← h.maxCached]
    cases k <;> rfl
  queues other := by
    rw [← h.queues, queuesOf_setQueue]
    split
    · rename_i hOther
      rw [hOther, Array.size_setIfInBounds]
    · rfl
  capacity other j found hFound := by
    rcases of_getElem?_setQueue hFound with ⟨rfl, rfl, rfl⟩ | ⟨-, hBefore⟩
    · exact hCapacity.trans (h.capacity _ _ q hAt)
    · exact h.capacity other j found hBefore
  normalized := hNormalized

theorem Fitted.setAttempts (h : c.Fitted g config) (attempts : Nat) :
    ({ c with attempts } : Cache).Fitted g config :=
  ⟨h.maxCached, h.queues, h.capacity, h.normalized⟩

theorem Fitted.fetch (h : c.Fitted g config) (hSound : c.Sound g) (hg : g.WellFormed)
    (hSize : g.Carved size) (hClass : g.sizeClass size = k) :
    (c.fetch k size).2.Fitted g config := by
  obtain ⟨-, hPerm, -⟩ := hSound.fetch hg hSize hClass
  have hNormalized : ∀ b ∈ (c.fetch k size).2.blocks, g.Normalized b.capacity := fun b hb =>
    h.normalized b (hPerm.mem_iff.mp (List.mem_append_right _ hb))
  rcases hSound.rings.fetch_cases k size with hNone |
    ⟨i, q, q', first, rest, -, hAt, -, -, hCapacity, -, hSome⟩
  · rw [hNone]
    exact h
  · rw [hSome] at hNormalized ⊢
    exact h.setQueue hAt hCapacity hNormalized

theorem Fitted.trim (h : c.Fitted g config) (hSound : c.Sound g) (a : Arena) :
    (c.trim a).1.Fitted g config where
  maxCached := h.maxCached
  queues k := by
    rw [← h.queues]
    show ((c.gather CacheQueue.trim).2.queuesOf k).size = _
    rw [queuesOf_gather, Array.size_map]
  capacity k i q hAt := by
    change ((c.gather CacheQueue.trim).2.queuesOf k)[i]? = some q at hAt
    rw [queuesOf_gather, Array.getElem?_map, Option.map_eq_some_iff] at hAt
    obtain ⟨q₀, hAt₀, rfl⟩ := hAt
    obtain ⟨-, -, hCapacity⟩ :=
      (hSound.holds k i q₀ hAt₀).take (q₀.blocks.capacity - q₀.hits)
    exact hCapacity.trans (h.capacity k i q₀ hAt₀)
  normalized b hb := by
    obtain ⟨hPerm, -⟩ := hSound.gather splits_trim
    exact h.normalized b (hPerm.mem_iff.mp (List.mem_append_right _ hb))

theorem Fitted.take (h : c.Fitted g config) (hSound : c.Sound g) (hg : g.WellFormed)
    (hSize : g.Carved size) (hClass : g.sizeClass size = k) (a : Arena) :
    (c.take a k size).2.1.Fitted g config := by
  obtain ⟨hFetched, -⟩ := hSound.fetch hg hSize hClass
  have hFit := h.fetch hSound hg hSize hClass
  rw [take_eq]
  split
  · exact (hFit.setAttempts 0).trim (hFetched.setAttempts 0) a
  · exact hFit.setAttempts _

theorem Fitted.park (h : c.Fitted g config) (hSound : c.Sound g)
    (hCarved : block.isPooled = true → g.Carved block.capacity)
    (hNormalized : g.Normalized block.capacity)
    (hPark : c.park? (g.sizeClass block.capacity) block = some c') : c'.Fitted g config := by
  obtain ⟨-, hPerm⟩ := hSound.park hCarved hPark
  obtain ⟨-, i, q, q', -, hAt, -, hCapacity, -, rfl⟩ := hSound.rings.of_park? hPark
  refine h.setQueue hAt hCapacity ?_
  intro b hb
  rcases List.mem_cons.mp (hPerm.mem_iff.mp hb) with rfl | hOld
  · exact hNormalized
  · exact h.normalized b hOld

-- ---------------------------------------------------------------------------
-- Room for one more
-- ---------------------------------------------------------------------------

/-- Another block of a size may be parked: there are queues for its class, the size is one that is
held, and its blocks do not fill their queue. -/
structure HasRoom (c : Cache) (g : Geometry) (config : PoolConfig) (size : Nat) : Prop where
  enabled : config.useThreadCache = true
  sized : 0 < config.cacheSize (g.sizeClass size)
  cached : g.sizeClass size = .normal → size ≤ config.maxCachedCapacity
  room : c.blocks.countP (fun b => b.capacity = size) < config.cacheSize (g.sizeClass size)

theorem exists_of_mem_blocks (h : block ∈ c.blocks) :
    ∃ (k : SizeClass) (i : Nat) (q : CacheQueue), (c.queuesOf k)[i]? = some q ∧ block ∈ q.held := by
  obtain ⟨q, hq, hHeld⟩ := List.mem_flatMap.mp h
  obtain ⟨k, i, hAt⟩ := exists_queuesOf hq
  exact ⟨k, i, q, hAt, hHeld⟩

theorem mem_blocks (hAt : (c.queuesOf k)[i]? = some q) (hHeld : block ∈ q.held) :
    block ∈ c.blocks := by
  have hMem : q ∈ (c.queuesOf k).toList := Array.mem_toList_iff.mpr (Array.mem_of_getElem? hAt)
  have hQueue : q ∈ c.queues := by
    cases k with
    | tiny => exact List.mem_append_left _ (List.mem_append_left _ hMem)
    | small => exact List.mem_append_left _ (List.mem_append_right _ hMem)
    | normal => exact List.mem_append_right _ hMem
    | huge => exact absurd hAt (by simp [queuesOf])
  exact List.mem_flatMap.mpr ⟨q, hQueue, hHeld⟩

/-- The blocks of a size are all in the queue for that size, which holds no others. -/
theorem Sound.count_eq (h : c.Sound g) (hg : g.WellFormed) (hSize : g.Carved size)
    (hClass : g.sizeClass size = k) (hQueue : c.queueFor? k size = some (i, q)) :
    c.blocks.countP (fun b => b.capacity = size) = q.held.length := by
  obtain ⟨hIndex, hAt⟩ := queueFor?_eq_some hQueue
  -- with that queue taken out, no block of the size is left
  set emptied := c.setQueue k i (CacheQueue.empty 0) with hEmptied
  have hPerm : (q.held ++ emptied.blocks).Perm c.blocks := by
    have hSet := blocks_setQueue_perm hAt (CacheQueue.empty 0)
    rwa [held_empty, List.nil_append] at hSet
  have hSound : emptied.Sound g := by
    refine h.setQueue ?_ fun b hb => absurd hb (by simp [held_empty])
    rw [held_empty]
    exact Ring.holds_empty 0
  have hNone : ∀ b ∈ emptied.blocks, b.capacity ≠ size := by
    intro b hb hCapacity
    obtain ⟨k', i', q', hAt', hHeld⟩ := exists_of_mem_blocks hb
    obtain ⟨-, -, hClass', hIndex'⟩ := hSound.filed k' i' q' hAt' b hHeld
    rw [hCapacity, hClass] at hClass'
    subst hClass'
    rw [hCapacity, hEmptied, queueIndex?_setQueue, hIndex] at hIndex'
    obtain rfl := Option.some.inj hIndex'
    rcases of_getElem?_setQueue hAt' with ⟨-, -, rfl⟩ | ⟨hElsewhere, -⟩
    · exact absurd hHeld (by simp [held_empty])
    · exact hElsewhere ⟨rfl, rfl⟩
  have hAll : ∀ b ∈ q.held, b.capacity = size := by
    intro b hb
    obtain ⟨-, hCarved, hSame, hPlace⟩ := h.filed k i q hAt b hb
    exact eq_of_queueIndex? hg h.geometry hCarved hSize hSame hClass hPlace hIndex
  rw [← hPerm.countP_eq, List.countP_append,
    List.countP_eq_length.mpr (by simpa using hAll),
    List.countP_eq_zero.mpr (by simpa using hNone), Nat.add_zero]

/-- Exactly the sizes that a configuration wants to be held have a queue. -/
theorem Fitted.exists_queueFor?_iff (h : c.Fitted g config) (hGeometry : c.geometry = g)
    (hg : g.WellFormed) (hSize : g.Carved size) (hClass : g.sizeClass size = k) :
    (∃ i q, c.queueFor? k size = some (i, q)) ↔ config.useThreadCache = true ∧
      0 < config.cacheSize k ∧ (k = .normal → size ≤ config.maxCachedCapacity) := by
  constructor
  · rintro ⟨i, q, hQueue⟩
    obtain ⟨hIndex, hAt⟩ := queueFor?_eq_some hQueue
    have hSome := (Array.getElem?_eq_some_iff.mp hAt).1
    rw [h.queues] at hSome
    split at hSome
    · rename_i hBoth
      refine ⟨hBoth.1, hBoth.2, ?_⟩
      rintro rfl
      rw [← h.maxCached]
      by_contra hLarge
      -- a normal size past the limit has no place
      rw [queueIndex?, if_pos (.inl (Nat.lt_of_not_le hLarge))] at hIndex
      exact absurd hIndex (by simp)
    · omega
  · rintro ⟨hEnabled, hSized, hCached⟩
    obtain ⟨i, hIndex, hLt⟩ :=
      exists_queueIndex? hg hGeometry hSize hClass (h.maxCached ▸ hCached)
    have hBound : i < (c.queuesOf k).size := by
      rwa [h.queues, if_pos ⟨hEnabled, hSized⟩, ← h.maxCached]
    refine ⟨i, (c.queuesOf k)[i], ?_⟩
    rw [queueFor?, hIndex]
    simp [hBound]

/-- A queue takes another block exactly if it is not full. -/
theorem exists_park?_queue_iff (h : q.blocks.Holds q.held) (block : Block) :
    (∃ q', q.park? block = some q') ↔ q.held.length < q.blocks.capacity := by
  constructor
  · rintro ⟨q', hPark⟩
    unfold CacheQueue.park? at hPark
    split at hPark
    · rename_i ring hRing
      exact (h.of_push hRing).1
    · exact absurd hPark (by simp)
  · intro hRoom
    obtain ⟨ring, hPush, -⟩ := h.push hRoom block
    exact ⟨{ q with blocks := ring }, by simp only [CacheQueue.park?, hPush]⟩

/-- A block carved from a chunk is parked exactly if there is room for it. -/
theorem Fitted.exists_park?_iff (h : c.Fitted g config) (hSound : c.Sound g) (hg : g.WellFormed)
    (hPooled : block.isPooled = true) (hCarved : g.Carved block.capacity) :
    (∃ c', c.park? (g.sizeClass block.capacity) block = some c') ↔
      c.HasRoom g config block.capacity := by
  have hServed := h.exists_queueFor?_iff hSound.geometry hg hCarved rfl
  rw [park?, if_pos hPooled]
  cases hFor : c.queueFor? (g.sizeClass block.capacity) block.capacity with
  | none =>
    constructor
    · rintro ⟨c', hPark⟩
      exact absurd hPark (by simp)
    · rintro ⟨hEnabled, hSized, hHeld, -⟩
      obtain ⟨i, q, hFound⟩ := hServed.mpr ⟨hEnabled, hSized, hHeld⟩
      rw [hFor] at hFound
      exact absurd hFound (by simp)
  | some found =>
    obtain ⟨i, q⟩ := found
    -- the queue is there, so room in it decides
    obtain ⟨-, hAt⟩ := queueFor?_eq_some hFor
    obtain ⟨hEnabled, hSized, hHeld⟩ := hServed.mp ⟨i, q, hFor⟩
    have hTakes := exists_park?_queue_iff (hSound.holds _ i q hAt) block
    rw [h.capacity _ i q hAt, ← hSound.count_eq hg hCarved rfl hFor] at hTakes
    constructor
    · rintro ⟨c', hPark⟩
      obtain ⟨q', hQueue, -⟩ := Option.map_eq_some_iff.mp hPark
      exact ⟨hEnabled, hSized, hHeld, hTakes.mp ⟨q', hQueue⟩⟩
    · intro hRoom
      obtain ⟨q', hQueue⟩ := hTakes.mpr hRoom.room
      exact ⟨c.setQueue (g.sizeClass block.capacity) i q', by simp only [hQueue, Option.map_some]⟩

end Cache

namespace Arena

variable {a : Arena} {c : Cache} {g : Geometry} {config : PoolConfig} {block : Block}
  {rest : List Block}

-- ---------------------------------------------------------------------------
-- An arena behind a fitted cache
-- ---------------------------------------------------------------------------

theorem Behind.fitted_allocateCached (h : a.Behind g c rest) (hFit : c.Fitted g config)
    (request : Nat) : (a.allocateCached c request).2.1.Fitted g config := by
  obtain rfl := h.geometry
  by_cases hPast : a.geometry.normalize request = 0 ∨
      a.geometry.sizeClass (a.geometry.normalize request) = .huge
  · rw [allocateCached_past hPast]
    exact hFit
  · obtain ⟨hPos, hSmall⟩ := not_or.mp hPast
    have hCarved := h.wellFormed.carved_of_class hPos hSmall
    have hTaken := hFit.take h.cache h.wellFormed hCarved rfl a
    rw [allocateCached_via hPos rfl hSmall]
    split
    · rename_i hTake
      rw [hTake] at hTaken
      exact hTaken
    · rename_i hTake
      rw [hTake] at hTaken
      exact hTaken

theorem Behind.fitted_freeCached (h : a.Behind g c (block :: rest)) (hFit : c.Fitted g config)
    (hNormalized : g.Normalized block.capacity) :
    (a.freeCached c block).2.1.Fitted g config := by
  unfold Arena.freeCached
  split
  · rename_i c' hPark
    rw [h.geometry] at hPark
    exact hFit.park h.cache h.carved hNormalized hPark
  · exact hFit

/-- A block that there is room for is parked, and the arena is left alone. -/
theorem Behind.freeCached_of_hasRoom (h : a.Behind g c (block :: rest)) (hFit : c.Fitted g config)
    (hPooled : block.isPooled = true) (hRoom : c.HasRoom g config block.capacity) :
    (a.freeCached c block).2.1.blocks.Perm (block :: c.blocks) ∧
      (a.freeCached c block).2.2 = a := by
  have hCarved := h.carved hPooled
  obtain ⟨c', hPark⟩ := (hFit.exists_park?_iff h.cache h.wellFormed hPooled hCarved).mpr hRoom
  obtain ⟨-, hPerm⟩ := h.cache.park (fun _ => hCarved) hPark
  rw [Arena.freeCached, h.geometry, hPark]
  exact ⟨hPerm, rfl⟩

/-- A block that was not carved from a chunk, or that there is no room for, goes to the arena, and
the cache is left alone. -/
theorem Behind.freeCached_of_full (h : a.Behind g c (block :: rest)) (hFit : c.Fitted g config)
    (hFull : block.isPooled = true → ¬ c.HasRoom g config block.capacity) :
    a.freeCached c block = ((a.free block).1, c, (a.free block).2) := by
  have hNone : c.park? (g.sizeClass block.capacity) block = none := by
    cases hPooled : block.isPooled with
    | false => simp [Cache.park?, hPooled]
    | true =>
      have hParks := hFit.exists_park?_iff h.cache h.wellFormed hPooled (h.carved hPooled)
      rw [Option.eq_none_iff_forall_ne_some]
      intro c' hPark
      exact hFull hPooled (hParks.mp ⟨c', hPark⟩)
  rw [Arena.freeCached, h.geometry, hNone]

end Arena

end BlockPool
