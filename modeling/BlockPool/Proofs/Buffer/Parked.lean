import BlockPool.Proofs.Arena.Parked
import BlockPool.Proofs.Arena.Recovered
import BlockPool.Proofs.Buffer.Acts

/-!
# BlockPool — what the caches of an allocator park

A block that a buffer gives back is parked in the cache of the thread that gives it back, if it was
carved from a chunk, and that cache is bound to its arena and has room; else the arena has it back
and owes it no more. What is parked is parked once, in a queue for blocks of its size, and no buffer
has it.

* `Allocator.Fitted` — every cache is one of the configuration.
* `Allocator.Shelves` — what a queue of a cache holds.
* `Allocator.GivesBack` — where a block goes that is given back.
* `Clients.run_parked_orderly` — in every state, for every queue and every block.
-/

namespace BlockPool

variable {config : PoolConfig} {thread i : Nat} {bound bound' : BoundCache} {block : Block}
  {caller : Caller} {g : Geometry}

namespace Allocator

variable {a a' : Allocator} {held held' : List (Nat × Block)} {p : Nat × Block}

-- ---------------------------------------------------------------------------
-- Caches of a configuration
-- ---------------------------------------------------------------------------

/-- Every cache is one of the configuration, and every block that is held has a size that requests
are rounded to. -/
structure Fitted (a : Allocator) (config : PoolConfig) (held : List (Nat × Block)) : Prop where
  configured : a.config = config
  cache : ∀ entry ∈ a.caches, entry.2.cache.Fitted config.geometry config
  held : ∀ p ∈ held, config.geometry.Normalized p.2.capacity

theorem Fitted.perm (h : a.Fitted config held) (hPerm : held.Perm held') :
    a.Fitted config held' :=
  ⟨h.configured, h.cache, fun p hp => h.held p (hPerm.mem_iff.mpr hp)⟩

theorem fitted_build (id : Nat) (config : PoolConfig) (supply : Nat → Supply) :
    (build id config supply).Fitted config [] where
  configured := rfl
  cache entry hEntry := absurd hEntry (by simp [build])
  held p hp := absurd hp (by simp)

theorem Fitted.ensureCache (h : a.Fitted config held) (hSound : a.Sound config.geometry held)
    (thread : Nat) : (a.ensureCache thread).1.Fitted config held := by
  unfold Allocator.ensureCache
  split
  · exact h
  · obtain ⟨hGeometry, -, -⟩ := hSound.arena _ hSound.leastUsed_lt
    refine ⟨h.configured, ?_, h.held⟩
    intro entry hEntry
    rcases List.mem_append.mp hEntry with hOld | hLast
    · exact h.cache entry hOld
    · obtain rfl := List.mem_singleton.mp hLast
      dsimp only
      rw [hGeometry, h.configured]
      exact Cache.fitted_empty config.geometry config

theorem Fitted.withCache {ρ : Type} (h : a.Fitted config held)
    (f : Cache → Arena → ρ × Cache × Arena)
    (hStep : (f bound.cache (a.arenaAt bound.arena)).2.1.Fitted config.geometry config)
    (hHeld : ∀ p ∈ held', config.geometry.Normalized p.2.capacity) :
    (a.withCache thread bound f).2.Fitted config held' where
  configured := h.configured
  cache entry hEntry := by
    obtain ⟨before, hBefore, rfl⟩ := List.mem_map.mp hEntry
    split
    · exact hStep
    · exact h.cache before hBefore
  held := hHeld

/-- A block that comes out has a size that requests are rounded to, and caches keep their shape. -/
theorem Fitted.allocateBlock (h : a.Fitted config held) (hSound : a.Sound config.geometry held)
    (caller : Caller) (capacity : Nat) :
    (a.allocateBlock caller capacity).2.Fitted config
      ((a.allocateBlock caller capacity).1.toOption.toList ++ held) := by
  have hHeld : ∀ p ∈ (a.allocateBlock caller capacity).1.toOption.toList ++ held,
      config.geometry.Normalized p.2.capacity := by
    obtain ⟨-, -, hCapacity⟩ := hSound.allocateBlock caller capacity
    intro p hp
    rcases List.mem_append.mp hp with hNew | hOld
    · cases hResult : (a.allocateBlock caller capacity).1 with
      | error cause => simp [hResult, Except.toOption] at hNew
      | ok served =>
        obtain rfl : p = served := by simpa [hResult, Except.toOption] using hNew
        exact ⟨capacity, (hCapacity p hResult).symm⟩
    · exact h.held p hOld
  cases caller with
  | thread thread =>
    obtain ⟨hBound, hCache, -⟩ := hSound.ensureCache thread
    obtain ⟨before, after, hCaches, -⟩ := exists_caches hBound.threads hCache
    obtain ⟨-, hBehind⟩ := hBound.behind hCaches
    have hFit := h.ensureCache hSound thread
    exact hFit.withCache (fun cache arena => arena.allocateCached cache capacity)
      (hBehind.fitted_allocateCached (hFit.cache _ (mem_caches_of_cacheOf? hCache)) capacity) hHeld
  | exiting => exact ⟨h.configured, h.cache, hHeld⟩

/-- A new buffer holds a block of a size that requests are rounded to. -/
theorem Fitted.allocate (h : a.Fitted config held) (hSound : a.Sound config.geometry held)
    (caller : Caller) (capacity limit : Nat) :
    (∀ b, (a.allocate caller capacity limit).1 = .ok b →
      (a.allocate caller capacity limit).2.Fitted config (b.holding ++ held)) ∧
      ∀ cause, (a.allocate caller capacity limit).1 = .error cause →
        (a.allocate caller capacity limit).2.Fitted config held := by
  have hAsked := h.allocateBlock hSound caller capacity
  unfold Allocator.allocate
  split
  · exact ⟨fun b hb => absurd hb (by simp), fun cause _ => h⟩
  · split
    · rename_i cause served hAllocate
      rw [hAllocate] at hAsked
      exact ⟨fun b hb => absurd hb (by simp), fun _ _ => hAsked⟩
    · rename_i i new served hAllocate
      rw [hAllocate] at hAsked
      refine ⟨fun b hb => ?_, fun cause hCause => absurd hCause (by simp)⟩
      obtain rfl := Except.ok.inj hb
      exact hAsked

/-- A block that goes back is parked or not, and no cache gets another shape by it. -/
theorem Fitted.freeBlock (h : a.Fitted config ((i, block) :: held))
    (hSound : a.Sound config.geometry ((i, block) :: held)) (caller : Caller) :
    (a.freeBlock caller i block).2.Fitted config held := by
  have hRest : ∀ p ∈ held, config.geometry.Normalized p.2.capacity := fun p hp =>
    h.held p (List.mem_cons_of_mem _ hp)
  have hDirect : (a.freeDirect i block).2.Fitted config held := ⟨h.configured, h.cache, hRest⟩
  cases caller with
  | exiting => exact hDirect
  | thread thread =>
    unfold Allocator.freeBlock
    dsimp only
    split
    · exact hDirect
    · rename_i bound hCache
      split
      · rename_i hArena
        subst hArena
        obtain ⟨rest, hBehind⟩ := hSound.behind_block hCache
        exact h.withCache _ (hBehind.fitted_freeCached (h.cache _ (mem_caches_of_cacheOf? hCache))
          (h.held _ List.mem_cons_self)) hRest
      · exact hDirect

theorem Fitted.trimCache (h : a.Fitted config held) (hSound : a.Sound config.geometry held)
    (thread : Nat) : (a.trimCache thread).2.Fitted config held := by
  unfold Allocator.trimCache
  split
  · exact h
  · rename_i bound hCache
    have hMem := mem_caches_of_cacheOf? hCache
    exact h.withCache _ ((h.cache _ hMem).trim (hSound.cache _ hMem).2 _) h.held

theorem Fitted.exitThread (h : a.Fitted config held) (thread : Nat) :
    (a.exitThread thread).Fitted config held := by
  unfold Allocator.exitThread
  split
  · exact h
  · refine ⟨h.configured, ?_, h.held⟩
    intro entry hEntry
    exact h.cache entry (List.mem_of_mem_filter hEntry)

-- ---------------------------------------------------------------------------
-- What a queue holds
-- ---------------------------------------------------------------------------

/-- A queue of a cache holds no more than it may, and only live blocks of the arena of the cache:
those of the one size that it serves. -/
structure Shelves (a : Allocator) (config : PoolConfig) (bound : BoundCache) (k : SizeClass)
    (i : Nat) (q : CacheQueue) : Prop where
  length_le : q.length ≤ config.cacheSize k
  live : ∀ b ∈ q.held, ∃ id handle, b.origin = .pooled id handle ∧
    (a.arenaAt bound.arena).blockAt? id handle = some b
  size : ∀ b ∈ q.held, b.capacity = Cache.servedSize config.geometry k i ∧
    config.geometry.sizeClass b.capacity = k ∧ config.geometry.Normalized b.capacity

/-- A queue holds no more than it may, and only live blocks of its one size. -/
theorem Sound.shelves (h : a.Sound config.geometry held) (hFit : a.Fitted config held)
    (hg : config.geometry.WellFormed) (hMem : (thread, bound) ∈ a.caches) {k : SizeClass}
    {q : CacheQueue} (hAt : (bound.cache.queuesOf k)[i]? = some q) :
    a.Shelves config bound k i q := by
  obtain ⟨hIndex, hCache⟩ := h.cache _ hMem
  obtain ⟨-, -, hOwes⟩ := h.arena bound.arena hIndex
  have hFitted := hFit.cache _ hMem
  have hHolds := hCache.holds k i q hAt
  refine ⟨?_, ?_, ?_⟩
  · rw [← hFitted.capacity k i q hAt]
    show q.blocks.length ≤ q.blocks.capacity
    rw [hHolds.length]
    exact hHolds.fits
  · intro b hb
    obtain ⟨hPooled, -⟩ := hCache.filed k i q hAt b hb
    cases hOrigin : b.origin with
    | unpooled => simp [Block.isPooled, hOrigin] at hPooled
    | pooled id handle =>
      -- what is parked in the cache is owed by its arena, and so still live there
      have hParked : (bound.arena, b) ∈ parkedIn a.caches :=
        List.mem_flatMap.mpr ⟨_, hMem, List.mem_map_of_mem (Cache.mem_blocks hAt hb)⟩
      have hOwed : b ∈ inArena bound.arena (parkedIn a.caches ++ held) :=
        mem_inArena.mpr (List.mem_append_left _ hParked)
      exact ⟨id, handle, rfl, (hOwes.pooled id handle b).mpr ⟨hOwed, hOrigin⟩⟩
  · intro b hb
    obtain ⟨-, hCarved, hClass, hPlace⟩ := hCache.filed k i q hAt b hb
    exact ⟨Cache.eq_servedSize hg hCache.geometry hCarved hClass hPlace, hClass,
      hFitted.normalized b (Cache.mem_blocks hAt hb)⟩

-- ---------------------------------------------------------------------------
-- Parked or held, and once
-- ---------------------------------------------------------------------------

theorem Sound.place_lt (h : a.Sound g held) (hMem : p ∈ parkedIn a.caches ++ held) :
    p.1 < a.arenas.size := by
  rcases List.mem_append.mp hMem with hParked | hHeld
  · obtain ⟨entry, hEntry, hIn⟩ := List.mem_flatMap.mp hParked
    obtain ⟨block, -, rfl⟩ := List.mem_map.mp hIn
    exact (h.cache entry hEntry).1
  · exact h.places p hHeld

/-- No block that was carved from a chunk is there twice, parked or held. -/
theorem Sound.nodup_pooled (h : a.Sound g held) :
    ((parkedIn a.caches ++ held).filter fun p => p.2.isPooled).Nodup := by
  refine nodup_of_inArena fun p hp => ?_
  obtain ⟨-, -, hOwes⟩ := h.arena p.1 (h.place_lt (List.mem_of_mem_filter hp))
  rw [inArena_filter]
  exact hOwes.once

/-- And so no handle of a chunk. -/
theorem Sound.nodup_origins (h : a.Sound g held) :
    (((parkedIn a.caches ++ held).filter fun p => p.2.isPooled).map
      fun p => (p.1, p.2.origin)).Nodup := by
  refine h.nodup_pooled.map_on ?_
  rintro ⟨i, block⟩ hMem ⟨j, block'⟩ hMem' hSame
  obtain ⟨rfl, hOrigins⟩ : i = j ∧ block.origin = block'.origin := by simpa using hSame
  obtain ⟨hIn, hPooled⟩ := List.mem_filter.mp hMem
  obtain ⟨hIn', -⟩ := List.mem_filter.mp hMem'
  obtain ⟨-, -, hOwes⟩ := h.arena i (h.place_lt hIn)
  cases hOrigin : block.origin with
  | unpooled => simp [Block.isPooled, hOrigin] at hPooled
  | pooled id handle =>
    -- a handle names one block at most
    have hFirst := (hOwes.pooled id handle block).mpr ⟨mem_inArena.mpr hIn, hOrigin⟩
    have hSecond := (hOwes.pooled id handle block').mpr
      ⟨mem_inArena.mpr hIn', hOrigins ▸ hOrigin⟩
    rw [hFirst] at hSecond
    rw [Option.some.inj hSecond]

/-- A block that is held is not parked: what is parked was carved from a chunk, and such a block is
owed once. -/
theorem Sound.not_mem_parkedIn (h : a.Sound g (p :: held)) : p ∉ parkedIn a.caches := by
  intro hParked
  have hPooled : p.2.isPooled = true := by
    obtain ⟨entry, hEntry, hIn⟩ := List.mem_flatMap.mp hParked
    obtain ⟨block, hBlock, rfl⟩ := List.mem_map.mp hIn
    exact (h.cache entry hEntry).2.isPooled_of_mem hBlock
  have hOnce := h.nodup_pooled
  rw [List.filter_append, List.nodup_append] at hOnce
  have hHeld : p ∈ (p :: held).filter fun p => p.2.isPooled :=
    List.mem_filter.mpr ⟨List.mem_cons_self, hPooled⟩
  exact hOnce.2.2 p (List.mem_filter.mpr ⟨hParked, hPooled⟩) p hHeld rfl

-- ---------------------------------------------------------------------------
-- Where a block goes
-- ---------------------------------------------------------------------------

/-- A block was carved from a chunk, and the caller has a cache that is bound to its arena and has
room for it. -/
def HasRoom (a : Allocator) (config : PoolConfig) (caller : Caller) (p : Nat × Block) : Prop :=
  p.2.isPooled = true ∧ ∃ thread bound, caller = .thread thread ∧
    a.cacheOf? thread = some bound ∧ bound.arena = p.1 ∧
      bound.cache.HasRoom config.geometry config p.2.capacity

/-- The caller has a cache in which a block is parked. -/
def Parks (a : Allocator) (caller : Caller) (p : Nat × Block) : Prop :=
  ∃ thread bound, caller = .thread thread ∧ a.cacheOf? thread = some bound ∧ p ∈ bound.parked

/-- A block that a caller gives back is parked in the cache of the caller exactly if there is room
for it, and then no arena changes. If there is none, the block goes back to its arena, which owes it
no more, and neither another arena nor any cache changes. -/
structure GivesBack (a : Allocator) (config : PoolConfig) (caller : Caller) (p : Nat × Block)
    (a' : Allocator) : Prop where
  parks_iff : a'.Parks caller p ↔ a.HasRoom config caller p
  parked : a.HasRoom config caller p →
    (∀ i, a'.arenaAt i = a.arenaAt i) ∧ (parkedIn a'.caches).Perm (p :: parkedIn a.caches)
  returned : ¬ a.HasRoom config caller p →
    ((a.arenaAt p.1).free p.2).1 = .ok () ∧
      (∀ i, a'.arenaAt i = if i = p.1 then ((a.arenaAt p.1).free p.2).2 else a.arenaAt i) ∧
        a'.caches = a.caches ∧ ∃ rest, (a.arenaAt p.1).Recovers [p.2] rest (a'.arenaAt p.1)

theorem Parks.mem_parkedIn (h : a.Parks caller p) : p ∈ parkedIn a.caches := by
  obtain ⟨thread, bound, -, hCache, hParked⟩ := h
  exact List.mem_flatMap.mpr ⟨_, mem_caches_of_cacheOf? hCache, hParked⟩

theorem GivesBack.setHeap (h : a.GivesBack config caller p a') (heap : Heap) :
    a.GivesBack config caller p { a' with heap } :=
  ⟨h.parks_iff, h.parked, h.returned⟩

/-- A block that there is room for is parked. -/
theorem Sound.parks_freeBlock (h : a.Sound config.geometry ((i, block) :: held))
    (hFit : a.Fitted config ((i, block) :: held))
    (hRoom : a.HasRoom config caller (i, block)) :
    (a.freeBlock caller i block).2.Parks caller (i, block) ∧
      (∀ j, (a.freeBlock caller i block).2.arenaAt j = a.arenaAt j) ∧
        (parkedIn (a.freeBlock caller i block).2.caches).Perm
          ((i, block) :: parkedIn a.caches) := by
  obtain ⟨hPooled, thread, bound, rfl, hCache, rfl, hCacheRoom⟩ := hRoom
  obtain ⟨rest, hFront⟩ := h.behind_block hCache
  obtain ⟨before, after, hCaches, hSet, -⟩ := exists_caches h.threads hCache
  have hIndex : bound.arena < a.arenas.size := h.places _ List.mem_cons_self
  obtain ⟨hBlocks, hArena⟩ := hFront.freeCached_of_hasRoom
    (hFit.cache _ (mem_caches_of_cacheOf? hCache)) hPooled hCacheRoom
  set bound' : BoundCache :=
    { bound with cache := ((a.arenaAt bound.arena).freeCached bound.cache block).2.1 } with hBound
  -- the arena is put back as it was, and of the caches only this one is another
  have hFree : (a.freeBlock (.thread thread) bound.arena block).2 =
      (a.setArena bound.arena (a.arenaAt bound.arena)).setCache thread bound' := by
    simp only [Allocator.freeBlock, hCache, if_pos]
    show (a.setArena bound.arena
      ((a.arenaAt bound.arena).freeCached bound.cache block).2.2).setCache thread bound' = _
    rw [hArena]
  have hParked : bound'.parked.Perm ((bound.arena, block) :: bound.parked) :=
    hBlocks.map fun block => (bound.arena, block)
  rw [hFree]
  refine ⟨⟨thread, bound', rfl, cacheOf?_setCache hCache bound', ?_⟩, ?_, ?_⟩
  · exact hParked.mem_iff.mpr List.mem_cons_self
  · intro j
    refine (arenaAt_setArena a hIndex _ j).trans ?_
    split
    · rename_i hj
      rw [hj]
    · rfl
  · show (parkedIn (a.setCache thread bound').caches).Perm _
    rw [hSet, hCaches, parkedIn, parkedIn, List.flatMap_append, List.flatMap_append,
      List.flatMap_cons, List.flatMap_cons]
    refine ((hParked.append_right _).append_left _).trans ?_
    exact List.perm_middle

/-- A block that there is no room for goes to its arena. -/
theorem Sound.returns_freeBlock (h : a.Sound config.geometry ((i, block) :: held))
    (hFit : a.Fitted config ((i, block) :: held))
    (hFull : ¬ a.HasRoom config caller (i, block)) :
    (∀ j, (a.freeBlock caller i block).2.arenaAt j =
        if j = i then ((a.arenaAt i).free block).2 else a.arenaAt j) ∧
      (a.freeBlock caller i block).2.caches = a.caches := by
  have hIndex : i < a.arenas.size := h.places _ List.mem_cons_self
  have hDirect := arenaAt_setArena a hIndex ((a.arenaAt i).free block).2
  cases caller with
  | exiting => exact ⟨hDirect, rfl⟩
  | thread thread =>
    unfold Allocator.freeBlock
    dsimp only
    split
    · exact ⟨hDirect, rfl⟩
    · rename_i bound hCache
      split
      · rename_i hArena
        subst hArena
        obtain ⟨rest, hFront⟩ := h.behind_block hCache
        obtain ⟨before, after, hCaches, hSet, -⟩ := exists_caches h.threads hCache
        have hFree := hFront.freeCached_of_full (hFit.cache _ (mem_caches_of_cacheOf? hCache))
          fun hPooled hRoom => hFull ⟨hPooled, thread, bound, rfl, hCache, rfl, hRoom⟩
        -- the cache refused the block, and is put back as it was
        rw [Allocator.withCache, hFree]
        exact ⟨hDirect, (hSet bound).trans hCaches.symm⟩
      · exact ⟨hDirect, rfl⟩

/-- The arena of a block that goes back to it owes the others that are out. -/
theorem Sound.recovers_arenaAt (h : a.Sound g ((i, block) :: held)) :
    (a.arenaAt i).Recovers [block] (inArena i (parkedIn a.caches) ++ inArena i held)
      ((a.arenaAt i).free block).2 := by
  obtain ⟨-, hArena, hOwes⟩ := h.arena i (h.places _ List.mem_cons_self)
  rw [inArena_append, inArena_cons_self] at hOwes
  exact hArena.recovers_free (hOwes.perm List.perm_middle)

/-- A block that is given back is parked exactly if there is room for it, and else it is gone. -/
theorem Sound.givesBack_freeBlock (h : a.Sound config.geometry ((i, block) :: held))
    (hFit : a.Fitted config ((i, block) :: held)) (caller : Caller) :
    a.GivesBack config caller (i, block) (a.freeBlock caller i block).2 := by
  refine ⟨⟨?_, ?_⟩, ?_, ?_⟩
  · -- nothing new is parked without room, and the block was not parked while it was held
    intro hParks
    by_contra hFull
    have hParked := hParks.mem_parkedIn
    rw [(h.returns_freeBlock hFit hFull).2] at hParked
    exact h.not_mem_parkedIn hParked
  · intro hRoom
    exact (h.parks_freeBlock hFit hRoom).1
  · intro hRoom
    exact (h.parks_freeBlock hFit hRoom).2
  · intro hFull
    obtain ⟨hArenas, hCaches⟩ := h.returns_freeBlock hFit hFull
    have hRecovers := h.recovers_arenaAt
    rw [show ((a.arenaAt i).free block).2 = (a.freeBlock caller i block).2.arenaAt i by
      rw [hArenas, if_pos rfl]] at hRecovers
    exact ⟨h.freeDirect.1, hArenas, hCaches, _, hRecovers⟩

end Allocator

namespace Clients

variable {s : Clients} {a a' : Allocator} {b : Buffer} {b?' : Option Buffer}
  {others : List (Nat × Block)} {act : Act}

-- ---------------------------------------------------------------------------
-- Every act, and every run
-- ---------------------------------------------------------------------------

/-- A buffer that has asked for another block holds its own beside the new one. -/
theorem fitted_asked (h : a.Sound config.geometry (b.holding ++ others))
    (hFit : a.Fitted config (b.holding ++ others)) (hBlock : b.block = some block)
    {capacity : Nat} {p : Nat × Block} (hOk : (a.allocateBlock caller capacity).1 = .ok p) :
    (a.allocateBlock caller capacity).2.Fitted config ((b.arena, block) :: p :: others) := by
  have hAsked := hFit.allocateBlock h caller capacity
  rw [hOk, Buffer.holding_some hBlock] at hAsked
  exact hAsked.perm (List.Perm.swap ..)

/-- Whatever an act does to its block, the allocator keeps the shape that it was configured with. -/
theorem Act.Does.fitted (hDoes : act.Does a b b?' a')
    (h : a.Sound config.geometry (b.holding ++ others))
    (hFit : a.Fitted config (b.holding ++ others)) :
    a'.Fitted config (holdingOf b?' ++ others) := by
  cases hDoes with
  | keeps heap hHolding =>
    rw [hHolding]
    exact ⟨hFit.configured, hFit.cache, hFit.held⟩
  | asks caller capacity hError hHolding =>
    have hAsked := hFit.allocateBlock h caller capacity
    rw [hError] at hAsked
    rw [hHolding]
    exact hAsked
  | returns hReturns hBlock hHolding =>
    rw [Buffer.holding_some hBlock] at h hFit
    rw [hHolding]
    exact hFit.freeBlock h _
  | @moves caller capacity block p heap hReturns hBlock hOk hHolding =>
    -- the new block is held before the old one goes
    have hFreed := (fitted_asked h hFit hBlock hOk).freeBlock (h.asked hBlock hOk) caller
    rw [hHolding]
    exact ⟨hFreed.configured, hFreed.cache, hFreed.held⟩

/-- A block that a buffer loses is given back. -/
theorem Act.Does.givesBack (hDoes : act.Does a b b?' a')
    (h : a.Sound config.geometry (b.holding ++ others))
    (hFit : a.Fitted config (b.holding ++ others)) (hBlock : b.block = some block)
    (hLost : (b.arena, block) ∉ holdingOf b?') :
    ∃ caller before, act.returnsTo a = some (caller, before) ∧
      before.GivesBack config caller (b.arena, block) a' := by
  cases hDoes with
  | keeps heap hHolding =>
    rw [hHolding, Buffer.holding_some hBlock] at hLost
    exact absurd List.mem_cons_self hLost
  | asks caller capacity hError hHolding =>
    rw [hHolding, Buffer.holding_some hBlock] at hLost
    exact absurd List.mem_cons_self hLost
  | returns hReturns hFound hHolding =>
    obtain rfl := Option.some.inj (hBlock.symm.trans hFound)
    rw [Buffer.holding_some hBlock] at h hFit
    exact ⟨_, a, hReturns, h.givesBack_freeBlock hFit _⟩
  | @moves caller capacity found p heap hReturns hFound hOk hHolding =>
    obtain rfl := Option.some.inj (hBlock.symm.trans hFound)
    have hBack := (h.asked hBlock hOk).givesBack_freeBlock (fitted_asked h hFit hBlock hOk) caller
    exact ⟨caller, _, hReturns, hBack.setHeap heap⟩

/-- Every operation keeps the caches as configured, and what is held of sizes that they know. -/
theorem Sound.fitted_step (h : s.Sound config.geometry)
    (hFit : s.allocator.Fitted config (held s.buffers)) (op : Op) :
    (s.step op).allocator.Fitted config (held (s.step op).buffers) := by
  cases op with
  | allocate caller capacity limit =>
    obtain ⟨hOk, hError⟩ := hFit.allocate h.allocator caller capacity limit
    unfold Clients.step
    dsimp only
    split
    · rename_i b served hAllocate
      rw [hAllocate] at hOk
      have hHeld : held (s.buffers ++ [some b]) = held s.buffers ++ b.holding := by
        rw [held, List.flatMap_append, List.flatMap_singleton]
        rfl
      show served.Fitted config (held (s.buffers ++ [some b]))
      rw [hHeld]
      exact (hOk b rfl).perm List.perm_append_comm
    · rename_i cause served hAllocate
      rw [hAllocate] at hError
      exact hError cause rfl
  | act i act =>
    unfold Clients.step
    dsimp only
    split
    · exact hFit
    · rename_i b hAt
      have hPerm := held_perm hAt
      have hSound := h.allocator.perm hPerm
      have hDoes := act.does_apply hSound (h.fits i b hAt)
      exact (hDoes.fitted hSound (hFit.perm hPerm)).perm (held_set_perm hAt _).symm
  | trimCache thread => exact hFit.trimCache h.allocator thread
  | exitThread thread => exact hFit.exitThread thread

theorem Sound.fitted_run (h : s.Sound config.geometry) (hg : config.geometry.WellFormed)
    (hFit : s.allocator.Fitted config (held s.buffers)) (ops : List Op) :
    (s.run ops).allocator.Fitted config (held (s.run ops).buffers) := by
  induction ops generalizing s with
  | nil => exact hFit
  | cons op rest ih => exact ih (h.step hg op).1 (h.fitted_step hFit op)

/-- A block that an act on its buffer takes from it is given back. -/
theorem Sound.givesBack (h : s.Sound config.geometry)
    (hFit : s.allocator.Fitted config (held s.buffers)) (hAt : s.bufferAt? i = some b)
    (hBlock : b.block = some block)
    (hLost : (b.arena, block) ∉ holdingOf ((s.step (.act i act)).bufferAt? i)) :
    ∃ caller before, act.returnsTo s.allocator = some (caller, before) ∧
      before.GivesBack config caller (b.arena, block) (s.step (.act i act)).allocator := by
  have hPerm := held_perm hAt
  have hSound := h.allocator.perm hPerm
  have hDoes := act.does_apply hSound (h.fits i b hAt)
  have hStep : (s.step (.act i act)).allocator = (act.apply s.allocator b).2 := by
    unfold Clients.step
    simp only [hAt]
  rw [bufferAt?_step_act hAt] at hLost
  rw [hStep]
  exact hDoes.givesBack hSound (hFit.perm hPerm) hBlock hLost

/-- In every state, every queue of a thread's cache holds no more blocks than the configuration
says, all of them live blocks of the arena that the cache is bound to and of the one size that the
queue serves. No block is parked twice, or parked and held. A buffer whose life ends loses its
block; and a block that a buffer loses, then or because it moves, is parked in the cache of the
thread that gives it back exactly if it was carved from a chunk and that cache is bound to its arena
and has room for its size; else it goes back to its arena, which owes it no more. -/
theorem run_parked_orderly (id : Nat) (config : PoolConfig) (hg : config.geometry.WellFormed)
    (supply : Nat → Supply) (ops : List Op) :
    let s := (start id config supply).run ops
    (∀ thread bound, (thread, bound) ∈ s.allocator.caches → ∀ k i q,
      (bound.cache.queuesOf k)[i]? = some q → s.allocator.Shelves config bound k i q) ∧
    (((Allocator.parkedIn s.allocator.caches ++ held s.buffers).filter
      fun p => p.2.isPooled).map fun p => (p.1, p.2.origin)).Nodup ∧
    ∀ i b block act, s.bufferAt? i = some b → b.block = some block →
      (act.Ends s.allocator b → holdingOf ((s.step (.act i act)).bufferAt? i) = []) ∧
      ((b.arena, block) ∉ holdingOf ((s.step (.act i act)).bufferAt? i) →
        ∃ caller before, act.returnsTo s.allocator = some (caller, before) ∧
          before.GivesBack config caller (b.arena, block) (s.step (.act i act)).allocator) := by
  intro s
  have hStart := sound_start id hg supply
  have hSound : s.Sound config.geometry := hStart.run hg ops
  have hFit : s.allocator.Fitted config (held s.buffers) :=
    hStart.fitted_run hg (Allocator.fitted_build id config supply) ops
  refine ⟨?_, hSound.allocator.nodup_origins, ?_⟩
  · intro thread bound hMem k i q hAt
    exact hSound.allocator.shelves hFit hg hMem hAt
  · intro i b block act hAt hBlock
    refine ⟨?_, ?_⟩
    · intro hEnds
      rw [bufferAt?_step_act hAt]
      exact hEnds.holdingOf_apply
    · intro hLost
      exact hSound.givesBack hFit hAt hBlock hLost

/-- Of two buffers of one thread, the first is dropped. -/
theorem run_parked_orderly_first_dropped :
    (⟨4096, 1, 0⟩ : Geometry).WellFormed ∧ ∃ (s : Clients) (b : Buffer) (block : Block),
      s = (start 0 { pageSize := 4096, maxOrder := 1, numArenas := 1, tinyCacheSize := 1 }
        fun _ _ => Provider.below (2 ^ 20)).run [.allocate (.thread 0) 100 1000,
          .allocate (.thread 0) 100 1000] ∧
      s.bufferAt? 0 = some b ∧ b.block = some block ∧ block.isPooled = true ∧ b.refCount = 1 ∧
      holdingOf ((s.step (.act 0 (.drop (.thread 0)))).bufferAt? 0) = [] ∧
      s.allocator.GivesBack { pageSize := 4096, maxOrder := 1, numArenas := 1, tinyCacheSize := 1 }
        (.thread 0) (b.arena, block) (s.step (.act 0 (.drop (.thread 0)))).allocator := by
  obtain ⟨-, -, hGives⟩ := run_parked_orderly 0
    { pageSize := 4096, maxOrder := 1, numArenas := 1, tinyCacheSize := 1 }
    Geometry.wellFormed_two_pages (fun _ _ => Provider.below (2 ^ 20))
    [.allocate (.thread 0) 100 1000, .allocate (.thread 0) 100 1000]
  set s := (start 0 { pageSize := 4096, maxOrder := 1, numArenas := 1, tinyCacheSize := 1 }
    fun _ _ => Provider.below (2 ^ 20)).run [.allocate (.thread 0) 100 1000,
      .allocate (.thread 0) 100 1000] with hs
  -- the buffer has its one reference and a block of a chunk
  have hFirst : ((s.bufferAt? 0).any fun b => b.refCount == 1 &&
      b.block.any fun block => block.isPooled) = true := by
    decide +kernel
  obtain ⟨b, hAt, hBoth⟩ := (Option.any_eq_true ..).mp hFirst
  obtain ⟨hOne, hAny⟩ := (Bool.and_eq_true ..).mp hBoth
  have hLast : b.refCount = 1 := beq_iff_eq.mp hOne
  obtain ⟨block, hBlock, hPooled⟩ := (Option.any_eq_true ..).mp hAny
  obtain ⟨hEnds, hBack⟩ := hGives 0 b block (.drop (.thread 0)) hAt hBlock
  have hGone := hEnds hLast
  obtain ⟨caller, before, hReturns, hGiven⟩ := hBack (by rw [hGone]; exact List.not_mem_nil)
  obtain ⟨rfl, rfl⟩ := Prod.mk.inj (Option.some.inj hReturns)
  exact ⟨Geometry.wellFormed_two_pages, s, b, block, rfl, hAt, hBlock, hPooled, hLast, hGone,
    hGiven⟩

end Clients

end BlockPool
