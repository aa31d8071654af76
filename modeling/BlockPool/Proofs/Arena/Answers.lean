import BlockPool.Proofs.Arena.Run
import BlockPool.Proofs.Arena.Tally

/-!
# BlockPool — how a request is answered

A request is answered with a block of its normalized size, wherever that comes from, or with the
error of the region that was to serve it. A new chunk serves every size that chunks serve, so the
error that a new chunk had no room never arises, and where a chunk can be had nothing of its size or
less is served from anywhere else.

Callers may do more here than in a session of their own: they may also give back any handle of any
chunk by name. Neither the size of a block nor the way it is served depends on that.

* `Arena.Answers` — what the answer to a request is like.
* `Arena.Regular.answers_allocate` — every request to an arena is answered so.
* `Arena.Regular.answers_allocateCached` — and so is every request through a cache.
* `Session.Fit.play` — what callers who name handles themselves cannot spoil.
* `Session.play_allocate_exact` — so every request is answered so, whatever was done before.
-/

namespace BlockPool

namespace Arena

variable {a a₀ a' : Arena} {c : Cache} {g : Geometry} {block : Block} {k : SizeClass}
  {size request : Nat} {result : Except ArenaError Block}

/-- No memory for a new chunk is to be had. -/
def LacksChunk (a : Arena) : Prop :=
  ∃ cause, Chunk.allocateNew (a.supply a.requests) a.requests a.chunks.nextKey a.geometry =
    .error cause

/-- The answer to a request for a normalized size. -/
structure Serving (a : Arena) (size : Nat) (result : Except ArenaError Block) (a' : Arena) :
    Prop where
  capacity : ∀ block, result = .ok block → block.capacity = size
  /-- A block is carved from a chunk exactly if its size is that of one at most, unless no chunk was
  to be had. -/
  pooled : ∀ block, result = .ok block → size ≤ a.geometry.chunkSize →
    block.isPooled = true ∨ a.LacksChunk
  whole : ∀ block, result = .ok block → a.geometry.chunkSize < size → block.isPooled = false
  /-- The memory that was asked for last was refused, and asking for it was all that was done. -/
  refused : ∀ error, result = .error error → ∃ number cause, error = .region cause ∧
    Region.allocate (a.supply number) number size (max a.geometry.alignment 1) = .error cause ∧
      a' = { a with requests := number + 1 }

-- ---------------------------------------------------------------------------
-- The ways to serve a size
-- ---------------------------------------------------------------------------

/-- A block that comes out of a chunk. -/
theorem serving_pooled (hPooled : block.isPooled = true) (hCapacity : block.capacity = size)
    (hSize : size ≤ a.geometry.chunkSize) : a.Serving size (.ok block) a' where
  capacity found hFound := by
    obtain rfl := Except.ok.inj hFound
    exact hCapacity
  pooled found hFound _ := by
    obtain rfl := Except.ok.inj hFound
    exact .inl hPooled
  whole _ _ hLarge := absurd hSize (Nat.not_le.mpr hLarge)
  refused _ hError := absurd hError (by simp)

/-- A region of its own, for a size that is more than a chunk or while no chunk is to be had. -/
theorem serving_allocateUnpooled (hReason : a.geometry.chunkSize < size ∨ a.LacksChunk)
    (requests : Nat) : a.Serving size (({ a with requests } : Arena).allocateUnpooled size).1
      (({ a with requests } : Arena).allocateUnpooled size).2 := by
  unfold allocateUnpooled
  dsimp only
  split
  · rename_i cause hRefused
    refine ⟨by simp, by simp, by simp, ?_⟩
    intro error hError
    obtain rfl := Except.error.inj hError
    exact ⟨requests, cause, rfl, hRefused, rfl⟩
  · refine ⟨?_, ?_, ?_, by simp⟩
    · intro found hFound
      obtain rfl := Except.ok.inj hFound
      rfl
    · intro found _ hSize
      exact .inr (hReason.resolve_left (Nat.not_lt.mpr hSize))
    · intro found hFound _
      obtain rfl := Except.ok.inj hFound
      rfl

/-- A new chunk has room for every size that chunks serve. -/
theorem Sound.exists_allocate_ofRegion (h : a.Sound) (hSize : a.geometry.Carved size)
    {region : Region} (hRegionSize : region.size = a.geometry.chunkSize)
    (hRegion : region.id = a.requests) :
    ∃ block c' after, (Chunk.ofRegion a.chunks.nextKey a.geometry region).allocate a.pools size =
      some (block, c', after) := by
  have hNone : a.chunkAt? a.chunks.nextKey = none := by
    rw [chunkAt?, BandLists.chunkAt?, Nodes.find?_nextKey h.slab, Option.map_none]
  -- the chunk stands in an arena that has taken it in
  have hFresh := h.sets_withChunk (Chunk.ofRegion a.chunks.nextKey a.geometry region) a.pools
  obtain ⟨hSound, -⟩ := h.enter hNone hRegionSize hRegion hFresh rfl rfl
  have hChunk := (hSound.chunk _ _ hFresh.chunkAt?_self).sound
  refine hChunk.exists_allocate_of_free h.pools hSize ?_
  show (Buddy.fresh a.geometry.maxOrder).roomAt 1 = 0
  rw [Buddy.roomAt_fresh (Nat.one_lt_two_pow (Nat.succ_ne_zero _)), Buddy.depthOf_one]

/-- What a new chunk serves. -/
theorem Sound.serving_allocateFrom (h : a.Sound) (hSize : a.geometry.Carved size) {region : Region}
    (hRegionSize : region.size = a.geometry.chunkSize) (hRegion : region.id = a.requests)
    (k : SizeClass) :
    let chunk := Chunk.ofRegion a.chunks.nextKey a.geometry region
    let asked : Arena := { a with requests := a.requests + 1 }
    a.Serving size (asked.allocateFrom k size chunk).1 (asked.allocateFrom k size chunk).2 := by
  intro chunk asked
  have hCapacity := (h.serves_allocateFrom hSize hRegionSize hRegion k).capacity
  obtain ⟨block, chunk', pools', hAllocate⟩ :=
    h.exists_allocate_ofRegion hSize hRegionSize hRegion
  have hResult : (asked.allocateFrom k size chunk).1 = .ok block := by
    simp only [allocateFrom, asked, chunk, hAllocate]
  rw [hResult]
  exact serving_pooled (Chunk.isPooled_allocate hAllocate) (hCapacity block hResult)
    (hSize.le_chunkSize h.geometry)

theorem Sound.serving_allocateChunked (h : a.Sound) (hSize : a.geometry.Carved size)
    (k : SizeClass) : a.Serving size (a.allocateChunked k size).1 (a.allocateChunked k size).2 := by
  unfold allocateChunked
  split
  · rename_i block listed hListed
    obtain ⟨-, hPooled⟩ := sameCounts_allocateListed hListed
    exact serving_pooled hPooled ((h.serves_allocateListed hSize hListed).capacity block rfl)
      (hSize.le_chunkSize h.geometry)
  · dsimp only
    split
    · rename_i cause hRefused
      exact serving_allocateUnpooled (.inr ⟨cause, hRefused⟩) _
    · rename_i hNew
      obtain ⟨region, hRegion, rfl⟩ := Chunk.allocateNew_eq_ok hNew
      obtain ⟨hNumber, hRegionSize, -⟩ :=
        Region.allocate_eq_ok (hSize.pos.trans_le (hSize.le_chunkSize h.geometry)) hRegion
      exact h.serving_allocateFrom hSize hRegionSize hNumber k

theorem Sound.serving_allocateSlot (h : a.Sound) (hSize : a.geometry.Carved size)
    (hPage : size < a.geometry.pageSize) (hSlot : a.allocateSlot k size = some (block, a')) :
    a.Serving size (.ok block) a' := by
  have hCapacity := (h.serves_allocateSlot hSize hPage hSlot).capacity block rfl
  obtain ⟨pool, pool', -, hTake, -⟩ := allocateSlot_eq_some hSlot
  obtain ⟨index, -, hTakeAt⟩ := Option.bind_eq_some_iff.mp hTake
  exact serving_pooled (SubpagePool.isPooled_takeAt hTakeAt) hCapacity
    (hSize.le_chunkSize h.geometry)

/-- Every normalized size is served so, whatever its class. -/
theorem Sound.serving_allocateClass (h : a.Sound)
    (hSize : a.geometry.Carved size ∨ a.geometry.chunkSize < size) :
    a.Serving size (a.allocateClass (a.geometry.sizeClass size) size).1
      (a.allocateClass (a.geometry.sizeClass size) size).2 := by
  have hCarved : a.geometry.sizeClass size ≠ .huge → a.geometry.Carved size := fun hClass =>
    hSize.resolve_right (Nat.not_lt.mpr (Geometry.le_chunkSize_of_sizeClass h.geometry hClass))
  cases hClass : a.geometry.sizeClass size with
  | tiny =>
    have hFits := hCarved (by simp [hClass])
    rw [allocateClass]
    split
    · rename_i hSlot
      exact h.serving_allocateSlot hFits (Geometry.lt_pageSize_of_sizeClass (.inl hClass)) hSlot
    · exact h.serving_allocateChunked hFits .tiny
  | small =>
    have hFits := hCarved (by simp [hClass])
    rw [allocateClass]
    split
    · rename_i hSlot
      exact h.serving_allocateSlot hFits (Geometry.lt_pageSize_of_sizeClass (.inr hClass)) hSlot
    · exact h.serving_allocateChunked hFits .small
  | normal => exact h.serving_allocateChunked (hCarved (by simp [hClass])) .normal
  | huge =>
    refine serving_allocateUnpooled (.inl ?_) a.requests
    exact Geometry.chunkSize_lt_of_sizeClass_huge hClass

-- ---------------------------------------------------------------------------
-- Requests
-- ---------------------------------------------------------------------------

/-- The answer of an arena of a geometry to a request: a block of the normalized size and so at
least as large, carved from a chunk whenever one has that many bytes and can be had; or else the
error of the region that was to serve it, and an arena that has asked for memory in vain and is as
it was in all else. -/
structure Answers (a : Arena) (g : Geometry) (request : Nat) (result : Except ArenaError Block)
    (a' : Arena) : Prop where
  exact : ∀ block, result = .ok block →
    block.capacity = g.normalize request ∧ request ≤ block.capacity
  pooled : ∀ block, result = .ok block → 0 < g.normalize request →
    g.normalize request ≤ g.chunkSize → block.isPooled = true ∨ a.LacksChunk
  carved : ∀ block, result = .ok block → block.isPooled = true → g.Carved block.capacity
  refused : ∀ error, result = .error error → ∃ number cause, error = .region cause ∧
    Region.allocate (a.supply number) number (g.normalize request) (max g.alignment 1) =
      .error cause ∧ a' = { a with requests := number + 1 }

theorem Answers.ne_exhausted (h : a.Answers g request result a') (bytes : Nat) :
    result ≠ .error (.exhausted bytes) := by
  intro hError
  obtain ⟨-, cause, hCause, -⟩ := h.refused _ hError
  exact absurd hCause (by simp)

theorem Serving.answers (h : a.Serving (a.geometry.normalize request) result a')
    (hg : a.geometry.WellFormed)
    (hSize : a.geometry.Carved (a.geometry.normalize request) ∨
      a.geometry.chunkSize < a.geometry.normalize request) :
    a.Answers a.geometry request result a' where
  exact block hBlock := by
    have hCapacity := h.capacity block hBlock
    have hLe := Geometry.le_normalize hg request
    rw [← hCapacity] at hLe
    exact ⟨hCapacity, hLe⟩
  pooled block hBlock _ := h.pooled block hBlock
  carved block hBlock hPooled := by
    rw [h.capacity block hBlock]
    refine hSize.resolve_right fun hLarge => ?_
    have hWhole := h.whole block hBlock hLarge
    exact absurd hPooled (by simp [hWhole])
  refused := h.refused

/-- The block of no bytes serves the request of no bytes. -/
theorem answers_emptyBlock (hg : a.geometry.WellFormed) (hZero : a.geometry.normalize request = 0) :
    a.Answers a.geometry request (.ok emptyBlock) a where
  exact block hBlock := by
    obtain rfl := Except.ok.inj hBlock
    have hLe := Geometry.le_normalize hg request
    rw [hZero] at hLe
    exact ⟨hZero.symm, hLe⟩
  pooled _ _ hPos := absurd hZero (Nat.pos_iff_ne_zero.mp hPos)
  carved block hBlock hPooled := by
    obtain rfl := Except.ok.inj hBlock
    exact absurd hPooled (by decide)
  refused _ hError := absurd hError (by simp)

/-- Every request to an arena is answered, in one of the two ways. -/
theorem Regular.answers_allocate (h : a.Regular g) (request : Nat) :
    a.Answers g request (a.allocate request).1 (a.allocate request).2 := by
  obtain rfl := h.geometry
  have hg := h.sound.geometry
  by_cases hZero : a.geometry.normalize request = 0
  · rw [Arena.allocate, if_pos hZero]
    exact answers_emptyBlock hg hZero
  · have hSize := (a.geometry.normalize_cases hg request).resolve_left hZero
    rw [allocate_of_pos hZero]
    exact (h.sound.serving_allocateClass hSize).answers hg hSize

end Arena

-- ---------------------------------------------------------------------------
-- Requests through a cache
-- ---------------------------------------------------------------------------

namespace Cache

variable {c : Cache} {g : Geometry} {block : Block} {k : SizeClass} {size : Nat}

/-- What a cache hands out was carved from a chunk and has the size that was asked for. -/
theorem Sound.of_fetch_eq_some (h : c.Sound g) (hg : g.WellFormed) (hSize : g.Carved size)
    (hClass : g.sizeClass size = k) (hFetch : (c.fetch k size).1 = some block) :
    block.isPooled = true ∧ block.capacity = size := by
  obtain ⟨-, hPerm, hCapacity⟩ := h.fetch hg hSize hClass
  rw [hFetch] at hPerm
  exact ⟨h.isPooled_of_mem (hPerm.mem_iff.mp List.mem_cons_self), hCapacity block hFetch⟩

/-- Nothing goes back before the interval is over. -/
theorem shed_eq_nil (hEarly : c.attempts + 1 < c.trimInterval) (k : SizeClass) (size : Nat) :
    c.shed k size = [] := by
  obtain ⟨hAttempts, hInterval⟩ := counts_fetch c k size
  rw [shed, hAttempts, hInterval]
  exact if_neg (Nat.not_le.mpr hEarly)

/-- A cache that was asked for a size keeps its queues in order. -/
theorem Sound.take (h : c.Sound g) (hg : g.WellFormed) (hSize : g.Carved size)
    (hClass : g.sizeClass size = k) (a : Arena) : (c.take a k size).2.1.Sound g := by
  obtain ⟨hFetched, -, -⟩ := h.fetch hg hSize hClass
  rw [take_eq]
  split
  · exact ((hFetched.setAttempts 0).gather splits_trim).2
  · exact hFetched.setAttempts _

end Cache

namespace Arena

variable {a : Arena} {c : Cache} {g : Geometry} {request : Nat}

theorem shed_eq_nil (hEarly : c.attempts + 1 < c.trimInterval) (a : Arena) (request : Nat) :
    a.shed c request = [] := by
  unfold shed
  dsimp only
  split
  · rfl
  · exact Cache.shed_eq_nil hEarly _ _

/-- A cache that was asked keeps its queues in order. -/
theorem Regular.sound_allocateCached (h : a.Regular g) (hCache : c.Sound g) (request : Nat) :
    (a.allocateCached c request).2.1.Sound g := by
  obtain rfl := h.geometry
  by_cases hPast : a.geometry.normalize request = 0 ∨
      a.geometry.sizeClass (a.geometry.normalize request) = .huge
  · rw [allocateCached_past hPast]
    exact hCache
  · obtain ⟨hPos, hSmall⟩ := not_or.mp hPast
    have hCarved := h.sound.geometry.carved_of_class hPos hSmall
    have hTaken := hCache.take h.sound.geometry hCarved rfl a
    rw [allocateCached_via hPos rfl hSmall]
    split
    · rename_i hTake
      rwa [hTake] at hTaken
    · rename_i hTake
      rwa [hTake] at hTaken

/-- A request through a cache is answered like one to the arena that a trim of the cache, if one is
due, leaves. -/
theorem Regular.answers_allocateCached (h : a.Regular g) (hCache : c.Sound g) (request : Nat) :
    (Cache.release a (a.shed c request)).Answers g request (a.allocateCached c request).1
      (a.allocateCached c request).2.2 := by
  have hReleased := h.release (a.shed c request)
  obtain rfl := h.geometry
  by_cases hPast : a.geometry.normalize request = 0 ∨
      a.geometry.sizeClass (a.geometry.normalize request) = .huge
  · have hNone : a.shed c request = [] := if_pos hPast
    rw [allocateCached_past hPast, hNone]
    exact h.answers_allocate request
  · obtain ⟨hPos, hSmall⟩ := not_or.mp hPast
    have hCarved := h.sound.geometry.carved_of_class hPos hSmall
    have hShed : a.shed c request = c.shed (a.geometry.sizeClass (a.geometry.normalize request))
        (a.geometry.normalize request) := if_neg hPast
    rw [allocateCached_via hPos rfl hSmall]
    split
    · rename_i block c' a' hTake
      have hFetch := Cache.take_fst c a (a.geometry.sizeClass (a.geometry.normalize request))
        (a.geometry.normalize request)
      rw [hTake] at hFetch
      obtain ⟨hPooled, hCapacity⟩ :=
        hCache.of_fetch_eq_some h.sound.geometry hCarved rfl hFetch.symm
      -- a trim does not change the sizes that the arena serves
      have hGeometry := geometry_release a (a.shed c request)
      rw [← hGeometry] at hCarved hCapacity ⊢
      refine Serving.answers ?_ hReleased.sound.geometry (.inl hCarved)
      exact serving_pooled hPooled hCapacity (hCarved.le_chunkSize hReleased.sound.geometry)
    · rename_i c' a' hTake
      have hArena := Cache.arena_take c a (a.geometry.sizeClass (a.geometry.normalize request))
        (a.geometry.normalize request)
      rw [hTake, ← hShed] at hArena
      obtain rfl : a' = Cache.release a (a.shed c request) := hArena
      exact hReleased.answers_allocate request

end Arena

-- ---------------------------------------------------------------------------
-- Callers who name handles
-- ---------------------------------------------------------------------------

namespace Session

variable {s : Session} {a' : Arena} {g : Geometry} {c : Cache} {i j : Nat} {block : Block}
  {held : List Block}

/-- What a caller can do: all that a session allows, and giving back any handle of any chunk. -/
inductive Act where
  | op (op : Op)
  | freeChunk (id : ChunkId) (handle : Handle) (k : SizeClass)

/-- The state after a caller did something. -/
def act (s : Session) : Act → Session
  | .op op => s.step op
  | .freeChunk id handle k => { s with arena := (s.arena.freeChunk id handle k).2 }

/-- The state after a run. -/
def play (s : Session) (acts : List Act) : Session := acts.foldl act s

/-- What a caller who names handles cannot spoil. A block may go back under its owner's hands and be
handed out again, but none changes its size. -/
structure Fit (s : Session) (g : Geometry) : Prop where
  arena : s.arena.Regular g
  caches : ∀ c ∈ s.caches, c.Sound g
  carved : ∀ b ∈ s.held, b.isPooled = true → g.Carved b.capacity

theorem fit_start (hg : g.WellFormed) (index : Nat) (supply : Supply) :
    (start index g supply).Fit g where
  arena := Arena.regular_empty hg index supply
  caches _ hc := absurd hc (by simp [start])
  carved _ hb := absurd hb (by simp [start])

/-- Another cache in the place of one. -/
theorem Fit.setCache (h : s.Fit g) (hArena : a'.Regular g) (hCache : c.Sound g) (j : Nat)
    (hHeld : ∀ b ∈ held, b.isPooled = true → g.Carved b.capacity) :
    (⟨a', s.caches.set j c, held⟩ : Session).Fit g where
  arena := hArena
  caches other hOther := by
    rcases List.mem_or_eq_of_mem_set hOther with hOld | rfl
    · exact h.caches other hOld
    · exact hCache
  carved := hHeld

theorem Fit.carved_eraseIdx (h : s.Fit g) (i : Nat) :
    ∀ b ∈ s.held.eraseIdx i, b.isPooled = true → g.Carved b.capacity :=
  fun b hb => h.carved b (List.mem_of_mem_eraseIdx hb)

/-- What a request is answered with is held beside the others. -/
theorem Fit.carved_answer (h : s.Fit g) {a : Arena} {request : Nat}
    {result : Except ArenaError Block} (hAnswers : a.Answers g request result a') :
    ∀ b ∈ result.toOption.toList ++ s.held, b.isPooled = true → g.Carved b.capacity := by
  intro b hb
  rcases List.mem_append.mp hb with hNew | hOld
  · cases result with
    | error error => exact absurd hNew (by simp [Except.toOption])
    | ok block =>
      obtain rfl : b = block := by simpa [Except.toOption] using hNew
      exact hAnswers.carved b rfl
  · exact h.carved b hOld

/-- A cache that takes a block in, or passes it on to the arena. -/
theorem Fit.sound_freeCached (h : s.Fit g) (hCache : c.Sound g) (hHeld : s.held[i]? = some block) :
    (s.arena.freeCached c block).2.1.Sound g := by
  unfold Arena.freeCached
  split
  · rename_i c' hPark
    rw [h.arena.geometry] at hPark
    exact (hCache.park (h.carved block (List.mem_of_getElem? hHeld)) hPark).1
  · exact hCache

/-- An operation leaves the arena regular and the caches sound, and all that is held was carved. -/
theorem Fit.step (h : s.Fit g) (op : Op) : (s.step op).Fit g := by
  -- for the arena it is one operation of its own at most
  have hArena : (s.step op).arena.Regular g := by
    rcases s.exists_step op with hSame | ⟨op', hStep⟩
    · rw [hSame]
      exact h.arena
    · rw [hStep]
      exact h.arena.step op'
  have hAt : ∀ {j : Nat} {c : Cache}, s.caches[j]? = some c → c.Sound g :=
    fun hCache => h.caches _ (List.mem_of_getElem? hCache)
  cases op with
  | allocate request =>
    exact ⟨hArena, h.caches, h.carved_answer (h.arena.answers_allocate request)⟩
  | allocateVia j request =>
    unfold Session.step at hArena ⊢
    dsimp only at hArena ⊢
    split
    · exact h
    · rename_i c hCache
      rw [hCache] at hArena
      -- a block of the cache has a size that some request is rounded to, as one of the arena has
      have hAnswers := h.arena.answers_allocateCached (hAt hCache) request
      exact h.setCache hArena (h.arena.sound_allocateCached (hAt hCache) request) j
        (h.carved_answer hAnswers)
  | free i =>
    unfold Session.step at hArena ⊢
    dsimp only at hArena ⊢
    split
    · exact h
    · rename_i block hHeld
      rw [hHeld] at hArena
      exact ⟨hArena, h.caches, h.carved_eraseIdx i⟩
  | freeVia j i =>
    unfold Session.step at hArena ⊢
    dsimp only at hArena ⊢
    split
    · rename_i c block hCache hHeld
      rw [hCache, hHeld] at hArena
      -- what is parked was carved when it was handed out
      exact h.setCache hArena (h.sound_freeCached (hAt hCache) hHeld) j (h.carved_eraseIdx i)
    · exact h
  | bind config =>
    refine ⟨hArena, fun c hc => ?_, h.carved⟩
    -- the new cache is for the geometry of the arena
    rcases List.mem_cons.mp hc with rfl | hOld
    · rw [h.arena.geometry]
      exact Cache.sound_empty g config
    · exact h.caches c hOld
  | trim j =>
    unfold Session.step at hArena ⊢
    dsimp only at hArena ⊢
    split
    · exact h
    · rename_i c hCache
      rw [hCache] at hArena
      exact h.setCache hArena ((hAt hCache).gather Cache.splits_trim).2 j h.carved
  | drop j =>
    unfold Session.step at hArena ⊢
    dsimp only at hArena ⊢
    split
    · exact h
    · rename_i c hCache
      rw [hCache] at hArena
      exact ⟨hArena, fun c hc => h.caches c (List.mem_of_mem_eraseIdx hc), h.carved⟩

theorem Fit.act (h : s.Fit g) (act : Act) : (s.act act).Fit g := by
  cases act with
  | op op => exact h.step op
  | freeChunk id handle k => exact ⟨h.arena.freeChunk id handle k, h.caches, h.carved⟩

theorem Fit.play (h : s.Fit g) (acts : List Act) : (s.play acts).Fit g := by
  induction acts generalizing s with
  | nil => exact h
  | cons act rest ih => exact ih (h.act act)

-- ---------------------------------------------------------------------------
-- Every request of every run
-- ---------------------------------------------------------------------------

/-- After every run, every request is answered with a block of its normalized size or with the error
of a region, past the caches and through each of them; through one whose trim is not due, by the
arena as it is. -/
theorem play_allocate_exact (hg : g.WellFormed) (index : Nat) (supply : Supply) (acts : List Act)
    (request : Nat) :
    let s := (start index g supply).play acts
    (s.arena.Answers g request (s.arena.allocate request).1 (s.arena.allocate request).2 ∧
      ∀ bytes, (s.arena.allocate request).1 ≠ .error (.exhausted bytes)) ∧
    ∀ c ∈ s.caches,
      (Cache.release s.arena (s.arena.shed c request)).Answers g request
        (s.arena.allocateCached c request).1 (s.arena.allocateCached c request).2.2 ∧
      (∀ bytes, (s.arena.allocateCached c request).1 ≠ .error (.exhausted bytes)) ∧
      (c.attempts + 1 < c.trimInterval → s.arena.shed c request = []) := by
  intro s
  have hFit : s.Fit g := (fit_start hg index supply).play acts
  have hDirect := hFit.arena.answers_allocate request
  refine ⟨⟨hDirect, hDirect.ne_exhausted⟩, fun c hc => ?_⟩
  have hCached := hFit.arena.answers_allocateCached (hFit.caches c hc) request
  exact ⟨hCached, hCached.ne_exhausted, fun hEarly => Arena.shed_eq_nil hEarly s.arena request⟩

/-- No second chunk is to be had, so a region of its own serves a request of a chunk's size; a block
that the cache has parked serves a request at once. -/
theorem play_allocate_exact_fallback_and_hit :
    (⟨4096, 1, 0⟩ : Geometry).WellFormed ∧ ∃ s : Session,
      s = (start 0 ⟨4096, 1, 0⟩ fun number =>
          if number = 1 then Provider.unsupported else Provider.below (2 ^ 20)).play
        [.op (.bind (PoolConfig.defaults 1)), .op (.allocateVia 0 100), .op (.freeVia 0 0),
          .freeChunk ⟨7, 0⟩ (.run 1) .normal] ∧
      (∃ block, (s.arena.allocate 8000).1 = .ok block ∧ block.capacity = 8192 ∧
        block.isPooled = false ∧ s.arena.LacksChunk) ∧
      ∃ c block, s.caches = [c] ∧ (s.arena.allocateCached c 100).1 = .ok block ∧
        block.capacity = 112 := by
  have hExact := play_allocate_exact Geometry.wellFormed_two_pages 0
    (fun number => if number = 1 then Provider.unsupported else Provider.below (2 ^ 20))
    [.op (.bind (PoolConfig.defaults 1)), .op (.allocateVia 0 100), .op (.freeVia 0 0),
      .freeChunk ⟨7, 0⟩ (.run 1) .normal]
  generalize hRun : (start 0 ⟨4096, 1, 0⟩ fun number =>
      if number = 1 then Provider.unsupported else Provider.below (2 ^ 20)).play
    [.op (.bind (PoolConfig.defaults 1)), .op (.allocateVia 0 100), .op (.freeVia 0 0),
      .freeChunk ⟨7, 0⟩ (.run 1) .normal] = s at hExact
  -- a second chunk is refused, so the region is no part of one
  have hWhole : (s.arena.allocate 8000).1.toOption.map (·.isPooled) = some false := by
    rw [← hRun]
    decide +kernel
  obtain ⟨c, hCaches⟩ : ∃ c, s.caches = [c] := by
    refine List.length_eq_one_iff.mp ?_
    rw [← hRun]
    decide +kernel
  -- the block that was given back by its handle is parked still
  have hHit : s.caches.all (fun c => (s.arena.allocateCached c 100).1.toOption.isSome) = true := by
    rw [← hRun]
    decide +kernel
  obtain ⟨⟨hDirect, -⟩, -⟩ := hExact 8000
  obtain ⟨-, hCached⟩ := hExact 100
  obtain ⟨hCached, -, -⟩ := hCached c (by simp [hCaches])
  refine ⟨Geometry.wellFormed_two_pages, s, rfl, ?_, ?_⟩
  · cases hServed : (s.arena.allocate 8000).1 with
    | error error => exact absurd hWhole (by simp [hServed, Except.toOption])
    | ok block =>
      have hUnpooled : block.isPooled = false := by
        simpa [hServed, Except.toOption] using hWhole
      have hLacks := (hDirect.pooled block hServed (by decide) (by decide)).resolve_left
        (by simp [hUnpooled])
      exact ⟨block, rfl, (hDirect.exact block hServed).1, hUnpooled, hLacks⟩
  · cases hServed : (s.arena.allocateCached c 100).1 with
    | error error => exact absurd hHit (by simp [hCaches, hServed, Except.toOption])
    | ok block => exact ⟨c, block, hCaches, hServed, (hCached.exact block hServed).1⟩

end Session

end BlockPool
