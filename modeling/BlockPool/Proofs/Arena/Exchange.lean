import BlockPool.Proofs.Arena.Owed

/-!
# BlockPool — requests to an arena, and returns

A request is served by a slot of a pool, by a chunk of some band, by a new chunk or by a region of
its own. Whichever it is, what is owed afterwards is what was owed before and the block that came
out, if one did. A block that is owed can always be given back.

* `Arena.Serves` — what a request leaves behind.
* `Arena.Sound.serves_allocate` — every request is answered so.
* `Arena.Sound.takes_free` — an owed block is taken back; a chunk leaves only with its last block.
-/

namespace BlockPool

open SubpagePools (subpageAt?)

/-- A region that was granted has the number and the size that were asked for. -/
theorem Region.allocate_eq_ok {provider : Provider} {number size align : Nat} {region : Region}
    (hPos : 0 < size) (h : Region.allocate provider number size align = .ok region) :
    region.id = number ∧ region.size = size ∧ size < Word.limit := by
  -- the heap is asked where a mapping is not supported
  have hHeap : Region.ofHeap provider number size align = .ok region →
      region.id = number ∧ region.size = size ∧ size < Word.limit := by
    intro hHeap
    rw [ofHeap, if_neg (by omega)] at hHeap
    split at hHeap
    · exact absurd hHeap (by simp)
    · rename_i hLayout
      split at hHeap
      · obtain rfl := Except.ok.inj hHeap
        have hHas : hasLayout size (max align 1) = true := by simpa using hLayout
        simp only [hasLayout, Bool.and_eq_true, decide_eq_true_eq] at hHas
        have hFits := hHas.2
        exact ⟨rfl, rfl, (by decide : Word.maxSigned < Word.limit).trans_le' (by omega)⟩
      · exact absurd hHeap (by simp)
  rw [allocate, if_neg (by omega)] at h
  split at h
  · split at h
    · rename_i hMap
      obtain rfl := Except.ok.inj h
      refine ⟨rfl, rfl, ?_⟩
      rw [Extent.map, if_neg (by omega)] at hMap
      split at hMap
      · exact absurd hMap (by simp)
      · rename_i rounded hAlign
        -- a size that could be rounded to pages lies below the range of a word
        unfold pageAlign at hAlign
        split at hAlign
        · rename_i hRounded
          have hBounds := Word.le_of_alignUp? hRounded
          omega
        · exact absurd hAlign (by simp)
    · exact absurd h (by simp)
    · exact hHeap h
  · exact hHeap h

namespace Arena

variable {a a₀ a' : Arena} {id : ChunkId} {c c' : Chunk} {block : Block} {blocks rest : List Block}
  {k : SizeClass} {size : Nat} {result : Except ArenaError Block}

theorem isSome_chunkAt? (a : Arena) (id : ChunkId) :
    (a.chunkAt? id).isSome = (a.chunks.find? id).isSome := by
  rw [chunkAt?, BandLists.chunkAt?, Option.isSome_map]

-- ---------------------------------------------------------------------------
-- Requests
-- ---------------------------------------------------------------------------

/-- What a request of a size leaves behind: a block of the size is owed beside the others, if there
is one, and no chunk has gone. -/
structure Serves (a : Arena) (size : Nat) (result : Except ArenaError Block) (a' : Arena) :
    Prop where
  sound : a'.Sound
  geometry : a'.geometry = a.geometry
  owes : ∀ blocks, a.Owes blocks → a'.Owes (result.toOption.toList ++ blocks)
  capacity : ∀ block, result = .ok block → block.capacity = size
  chunks : ∀ id, (a.chunkAt? id).isSome = true → (a'.chunkAt? id).isSome = true

theorem Serves.of_resembles (h : a₀.Serves size result a') (hSame : a.Resembles a₀) :
    a.Serves size result a' where
  sound := h.sound
  geometry := h.geometry.trans hSame.geometry
  owes blocks hOwes := h.owes blocks (hSame.owes hOwes)
  capacity := h.capacity
  chunks id hSome := h.chunks id (by rwa [hSame.chunkAt?])

theorem Serves.resembles (h : a.Serves size result a₀) (hSame : a₀.Resembles a') :
    a.Serves size result a' where
  sound := hSame.sound h.sound
  geometry := hSame.geometry.trans h.geometry
  owes blocks hOwes := hSame.owes (h.owes blocks hOwes)
  capacity := h.capacity
  chunks id hSome := by
    rw [hSame.chunkAt?]
    exact h.chunks id hSome

theorem resembles_countAllocation (a : Arena) (k : SizeClass) :
    a.Resembles (a.countAllocation k) :=
  ⟨rfl, rfl, rfl, Nat.le_refl _⟩

/-- A block that comes out of a chunk serves a request of its size. -/
theorem Sound.serves_of_grants (h : a.Sound) (hChunk : a.chunkAt? id = some c)
    (hGrants : c.Grants a.pools block c' a'.pools) (hSets : a.Sets id (some c') a')
    (hRequests : a'.requests = a.requests) (hSize : block.capacity = size) :
    a.Serves size (.ok block) a' := by
  obtain ⟨hSound, hOwes⟩ := h.grant hChunk hGrants hSets hRequests
  refine ⟨hSound, hSets.geometry, hOwes, ?_, fun other hSome => ?_⟩
  · intro found hFound
    obtain rfl := Except.ok.inj hFound
    exact hSize
  · rw [hSets.chunkAt?]
    split
    · rfl
    · exact hSome

/-- A region of its own. -/
theorem Sound.serves_allocateUnpooled (h : a.Sound) (hPos : 0 < size) :
    a.Serves size (a.allocateUnpooled size).1 (a.allocateUnpooled size).2 := by
  unfold allocateUnpooled
  dsimp only
  split
  · have hSame : a.Resembles { a with requests := a.requests + 1 } :=
      ⟨rfl, rfl, rfl, Nat.le_succ _⟩
    refine ⟨hSame.sound h, rfl, fun blocks => hSame.owes, by simp, fun id hSome => ?_⟩
    rwa [hSame.chunkAt?]
  · rename_i region hRegion
    obtain ⟨hNumber, hRegionSize, hFits⟩ := Region.allocate_eq_ok hPos hRegion
    have hSame : a.Resembles
        { ({ a with requests := a.requests + 1 } : Arena).countAllocation .huge with
          hugeBytes := a.hugeBytes + size } := ⟨rfl, rfl, rfl, Nat.le_succ _⟩
    refine ⟨hSame.sound h, rfl, fun blocks hOwes => ?_, ?_, fun id hSome => ?_⟩
    · exact hSame.owes_cons h hOwes rfl
        ⟨rfl, hRegionSize, hFits, fun _ => hNumber.trans_lt (Nat.lt_succ_self _)⟩
        fun _ => hNumber.ge
    · intro found hFound
      obtain rfl := Except.ok.inj hFound
      rfl
    · rwa [hSame.chunkAt?]

theorem allocateSlot_eq_some (hSlot : a.allocateSlot k size = some (block, a')) :
    ∃ pool pool', a.pools[Geometry.poolIndex size]? = some pool ∧
      pool.take? = some (block, pool') ∧
      a' = { a with
        pools := a.pools.setIfInBounds (Geometry.poolIndex size) pool' }.countAllocation k := by
  simp only [allocateSlot, Option.bind_eq_bind, Option.bind_eq_some_iff, Prod.exists,
    Option.pure_def, Option.some.injEq, Prod.mk.injEq] at hSlot
  obtain ⟨pool, hPool, taken, pool', hTake, rfl, rfl⟩ := hSlot
  exact ⟨pool, pool', hPool, hTake, rfl⟩

/-- A slot of a subpage that has room. -/
theorem Sound.serves_allocateSlot (h : a.Sound) (hSize : a.geometry.Carved size)
    (hPage : size < a.geometry.pageSize) (hSlot : a.allocateSlot k size = some (block, a')) :
    a.Serves size (.ok block) a' := by
  obtain ⟨pool, pool', hPool, hTake, rfl⟩ := allocateSlot_eq_some hSlot
  obtain ⟨key, p, hServes⟩ := h.pools.exists_serves hPool hTake
  obtain ⟨c, hChunk⟩ := Option.isSome_iff_exists.mp (h.owner _ p hServes.found)
  have hHosts := h.chunk p.chunk c hChunk
  have hGrants := hHosts.sound.grants_of_serves (hHosts.geometry ▸ h.pools)
    (hHosts.geometry ▸ hServes) hHosts.id.symm
  have hServed : a.Serves size (.ok block)
      { a with pools := a.pools.setIfInBounds (Geometry.poolIndex size) pool' } := by
    refine h.serves_of_grants hChunk hGrants ⟨rfl, h.slab, fun other => ?_⟩ rfl ?_
    · by_cases hOther : other = p.chunk
      · rw [if_pos hOther, hOther]
        exact hChunk
      · rw [if_neg hOther]
        rfl
    · obtain ⟨q, slot, -, rfl, -⟩ := hServes.slot
      exact (h.pools.subpage _ p hServes.found).2.trans (hSize.pool h.geometry hPage).2
  exact hServed.resembles (resembles_countAllocation _ k)

/-- Where some bands serve a request, one of them does. -/
theorem allocateListed_eq_some {bands : List Band}
    (hListed : a.allocateListed size bands = some (block, a')) :
    ∃ band ∈ bands, ∃ lists chunks pools,
      a.lists.allocate a.chunks a.pools band size = some (block, lists, chunks, pools) ∧
        a' = { a with lists, chunks, pools } := by
  induction bands with
  | nil => exact absurd hListed (by simp [allocateListed])
  | cons band bands ih =>
    rw [allocateListed] at hListed
    split at hListed
    · rename_i hBand
      simp only [Option.some.injEq, Prod.mk.injEq] at hListed
      obtain ⟨rfl, rfl⟩ := hListed
      exact ⟨band, List.mem_cons_self, _, _, _, hBand, rfl⟩
    · obtain ⟨later, hMem, hLater⟩ := ih hListed
      exact ⟨later, List.mem_cons_of_mem band hMem, hLater⟩

/-- A chunk of one of some bands. -/
theorem Sound.serves_allocateListed (h : a.Sound) (hSize : a.geometry.Carved size)
    {bands : List Band} (hListed : a.allocateListed size bands = some (block, a')) :
    a.Serves size (.ok block) a' := by
  obtain ⟨band, -, lists, chunks, pools, hBand, rfl⟩ := allocateListed_eq_some hListed
  obtain ⟨id, c, c', hFound, hAllocate, hRebanded⟩ := BandLists.allocate_eq_some hBand
  obtain ⟨-, hGeometry, hChunk⟩ := h.hosts_of_find? hFound
  obtain ⟨hGrants, hCapacity⟩ := hChunk.grants_of_allocate (hGeometry ▸ h.pools)
    (hGeometry ▸ hSize) hAllocate
  refine h.serves_of_grants (BandLists.chunkAt?_of_find? hFound) hGrants.unbanded
    ⟨rfl, ?_, ?_⟩ rfl hCapacity
  · exact hRebanded.sound ((Nodes.sameKeys_putValue ..).sound h.slab)
  · exact hRebanded.chunkAt?_of_putValue hFound

/-- The arena with one request more and one chunk more. -/
def withChunk (a : Arena) (c : Chunk) (pools : SubpagePools) : Arena :=
  { a with
    requests := a.requests + 1
    lists := (a.lists.add (a.chunks.insertValue c).2 .fresh (a.chunks.insertValue c).1.index).1
    chunks := (a.lists.add (a.chunks.insertValue c).2 .fresh (a.chunks.insertValue c).1.index).2
    pools }

theorem Sound.sets_withChunk (h : a.Sound) (c : Chunk) (pools : SubpagePools) :
    a.Sets a.chunks.nextKey (some c.unbanded) (a.withChunk c pools) := by
  have hAdded := BandLists.rebanded_add a.lists (a.chunks.insertValue c).2 .fresh
    (a.chunks.insertValue c).1.index
  refine ⟨rfl, hAdded.sound (Nodes.sound_insertValue h.slab c), fun other => ?_⟩
  rw [chunkAt?, withChunk, hAdded.chunkAt?, BandLists.chunkAt?, Nodes.find?_insertValue h.slab]
  split <;> rfl

/-- Putting another chunk in is putting one in and then replacing it. -/
theorem Sound.sets_withChunk_again (h : a.Sound) (c c' : Chunk) (pools pools' : SubpagePools) :
    (a.withChunk c pools).Sets a.chunks.nextKey (some c'.unbanded) (a.withChunk c' pools') := by
  refine ⟨rfl, (h.sets_withChunk c' pools').slab, fun other => ?_⟩
  rw [(h.sets_withChunk c' pools').chunkAt?, (h.sets_withChunk c pools).chunkAt?]
  split <;> rfl

/-- A new chunk over a region that was asked for last. -/
theorem Sound.serves_allocateFrom (h : a.Sound) (hSize : a.geometry.Carved size) {region : Region}
    (hRegionSize : region.size = a.geometry.chunkSize) (hRegion : region.id = a.requests)
    (k : SizeClass) :
    let chunk := Chunk.ofRegion a.chunks.nextKey a.geometry region
    let asked : Arena := { a with requests := a.requests + 1 }
    a.Serves size (asked.allocateFrom k size chunk).1 (asked.allocateFrom k size chunk).2 := by
  intro chunk asked
  have hNone : a.chunkAt? a.chunks.nextKey = none := by
    rw [chunkAt?, BandLists.chunkAt?, Nodes.find?_nextKey h.slab, Option.map_none]
  -- the chunk as it comes in, before anything is carved from it
  have hFresh : a.Sets a.chunks.nextKey (some chunk) (a.withChunk chunk a.pools) :=
    h.sets_withChunk chunk a.pools
  obtain ⟨hSound, hOwes⟩ := h.enter hNone hRegionSize hRegion hFresh rfl rfl
  have hChunks : ∀ other, (a.chunkAt? other).isSome = true →
      ((a.withChunk chunk a.pools).chunkAt? other).isSome = true := by
    intro other hSome
    rw [hFresh.chunkAt?]
    split
    · rfl
    · exact hSome
  cases hAllocate : chunk.allocate a.pools size with
  | none =>
    have hResult : asked.allocateFrom k size chunk =
        (.error (.exhausted size), a.withChunk chunk a.pools) := by
      simp only [allocateFrom, asked, hAllocate, withChunk]
    rw [hResult]
    exact ⟨hSound, rfl, hOwes, by simp, hChunks⟩
  | some served =>
    obtain ⟨block, chunk', pools'⟩ := served
    have hResult : asked.allocateFrom k size chunk =
        (.ok block, (a.withChunk chunk' pools').countAllocation k) := by
      simp only [allocateFrom, asked, hAllocate, withChunk]
    rw [hResult]
    have hChunk := hFresh.chunkAt?_self
    -- the block is carved from it as from any chunk
    obtain ⟨hGrants, hCapacity⟩ := (hSound.chunk _ _ hChunk).sound.grants_of_allocate
      h.pools hSize hAllocate
    have hServed : (a.withChunk chunk a.pools).Serves size (.ok block)
        (a.withChunk chunk' pools') :=
      hSound.serves_of_grants hChunk hGrants.unbanded
        (h.sets_withChunk_again chunk chunk' a.pools pools') rfl hCapacity
    have hServes := hServed.resembles (resembles_countAllocation _ k)
    exact ⟨hServes.sound, hServes.geometry,
      fun blocks hBefore => hServes.owes blocks (hOwes blocks hBefore), hServes.capacity,
      fun other hSome => hServes.chunks other (hChunks other hSome)⟩

/-- Some chunk with room, a new chunk, or a region of its own. -/
theorem Sound.serves_allocateChunked (h : a.Sound) (hSize : a.geometry.Carved size)
    (k : SizeClass) : a.Serves size (a.allocateChunked k size).1 (a.allocateChunked k size).2 := by
  unfold allocateChunked
  split
  · rename_i block listed hListed
    exact (h.serves_allocateListed hSize hListed).resembles (resembles_countAllocation _ k)
  · dsimp only
    split
    · have hSame : a.Resembles { a with requests := a.requests + 1 } :=
        ⟨rfl, rfl, rfl, Nat.le_succ _⟩
      exact ((hSame.sound h).serves_allocateUnpooled hSize.pos).of_resembles hSame
    · rename_i hNew
      obtain ⟨region, hRegion, rfl⟩ := Chunk.allocateNew_eq_ok hNew
      obtain ⟨hNumber, hRegionSize, -⟩ :=
        Region.allocate_eq_ok (hSize.pos.trans_le (hSize.le_chunkSize h.geometry)) hRegion
      exact h.serves_allocateFrom hSize hRegionSize hNumber k

/-- Each class has its own way, and each way serves the size. -/
theorem Sound.serves_allocateClass (h : a.Sound)
    (hSize : a.geometry.Carved size ∨ a.geometry.chunkSize < size) :
    a.Serves size (a.allocateClass (a.geometry.sizeClass size) size).1
      (a.allocateClass (a.geometry.sizeClass size) size).2 := by
  have hCarved : size ≤ a.geometry.chunkSize → a.geometry.Carved size := fun hLe =>
    hSize.resolve_right (by omega)
  -- tiny and small sizes are served alike
  have hShared : ∀ k, (k = .tiny ∨ k = .small) → a.geometry.sizeClass size = k →
      a.Serves size (a.allocateClass k size).1 (a.allocateClass k size).2 := by
    intro k hTwo hClass
    have hPage : size < a.geometry.pageSize := by
      refine Geometry.lt_pageSize_of_sizeClass ?_
      rwa [hClass]
    have hFits := hCarved (hPage.le.trans h.geometry.pageSize_le)
    have hChunked := h.serves_allocateChunked hFits k
    rcases hTwo with rfl | rfl
    all_goals
      rw [allocateClass]
      split
      · rename_i hSlot
        exact h.serves_allocateSlot hFits hPage hSlot
      · exact hChunked
  cases hClass : a.geometry.sizeClass size with
  | tiny => exact hShared .tiny (.inl rfl) hClass
  | small => exact hShared .small (.inr rfl) hClass
  | normal =>
    refine h.serves_allocateChunked (hCarved ?_) .normal
    exact Geometry.le_chunkSize_of_sizeClass h.geometry (by simp [hClass])
  | huge =>
    refine h.serves_allocateUnpooled ?_
    rcases hSize with hSome | hLarge
    · exact hSome.pos
    · omega

/-- Every request is answered with a block of its normalized size, or with an error. -/
theorem Sound.serves_allocate (h : a.Sound) (request : Nat) :
    a.Serves (a.geometry.normalize request) (a.allocate request).1 (a.allocate request).2 := by
  unfold allocate
  dsimp only
  split
  · rename_i hZero
    have hSame : a.Resembles a := ⟨rfl, rfl, rfl, Nat.le_refl _⟩
    refine ⟨h, rfl, fun blocks hOwes => ?_, ?_, fun _ => id⟩
    · exact hSame.owes_cons h hOwes rfl ⟨rfl, rfl, by decide, fun hPos => absurd hPos (by decide)⟩
        fun hPos => absurd hPos (by decide)
    · intro block hBlock
      obtain rfl := Except.ok.inj hBlock
      exact hZero.symm
  · rename_i hPos
    refine h.serves_allocateClass ?_
    rcases a.geometry.normalize_cases h.geometry request with hZero | hRest
    · exact absurd hZero hPos
    · exact hRest

-- ---------------------------------------------------------------------------
-- Returns
-- ---------------------------------------------------------------------------

/-- A block was the last of its chunk, and the chunk is gone: it has all its bytes back, and no
subpage is one of its pages. -/
structure Departs (a : Arena) (block : Block) (id : ChunkId) (a' : Arena) : Prop where
  last : ∃ handle c c' pools', block.origin = .pooled id handle ∧ a.chunks.find? id = some c ∧
    c.free a.pools handle = .ok (c', pools') ∧ c'.freeBytes = a.geometry.chunkSize
  pages : ∀ record p, subpageAt? a'.pools record = some p → p.chunk ≠ id

/-- What the return of an owed block leaves behind. -/
structure Takes (a : Arena) (block : Block) (a' : Arena) : Prop where
  sound : a'.Sound
  geometry : a'.geometry = a.geometry
  owes : ∀ rest, a.Owes (block :: rest) → a'.Owes rest
  departs : ∀ id, (a.chunkAt? id).isSome = true → a'.chunkAt? id = none → a.Departs block id a'

theorem Takes.resembles (h : a.Takes block a₀) (hSame : a₀.Resembles a') : a.Takes block a' where
  sound := hSame.sound h.sound
  geometry := hSame.geometry.trans h.geometry
  owes rest hOwes := hSame.owes (h.owes rest hOwes)
  departs id hSome hNone := by
    obtain ⟨hLast, hPages⟩ := h.departs id hSome (by rwa [hSame.chunkAt?] at hNone)
    exact ⟨hLast, by rwa [hSame.pools]⟩

theorem resembles_countDeallocation (a : Arena) (k : SizeClass) :
    a.Resembles (a.countDeallocation k) :=
  ⟨rfl, rfl, rfl, Nat.le_refl _⟩

theorem resembles_freeUnpooled (a : Arena) (capacity : Nat) :
    a.Resembles (a.freeUnpooled capacity) := by
  unfold freeUnpooled
  split
  · exact ⟨rfl, rfl, rfl, Nat.le_refl _⟩
  · exact ⟨rfl, rfl, rfl, Nat.le_refl _⟩

theorem geometry_freeChunk (a : Arena) (id : ChunkId) (handle : Handle) (k : SizeClass) :
    (a.freeChunk id handle k).2.geometry = a.geometry := by
  unfold freeChunk
  split
  · rfl
  · split <;> rfl

/-- No return changes the geometry. -/
theorem geometry_free (a : Arena) (block : Block) : (a.free block).2.geometry = a.geometry := by
  unfold free
  split
  · exact (resembles_freeUnpooled a block.capacity).geometry
  · exact geometry_freeChunk ..

/-- What is given back under a name is refused, and the arena stays as it is, or the chunk of that
name accepts the handle. -/
theorem freeChunk_cases (a : Arena) (id : ChunkId) (handle : Handle) (k : SizeClass) :
    (a.freeChunk id handle k).2 = a ∨ ∃ c c' pools', a.chunks.find? id = some c ∧
      c.free a.pools handle = .ok (c', pools') := by
  unfold freeChunk
  split
  · exact .inl rfl
  · rename_i node hNode
    split
    · exact .inl rfl
    · rename_i hFree
      have hFound : a.chunks.find? id = some node.value := by rw [Nodes.find?, hNode]; rfl
      obtain ⟨c', hTaken, -, -⟩ := BandLists.free_eq_ok hFound hFree
      exact .inr ⟨node.value, c', _, hFound, hTaken⟩

/-- A handle that its chunk accepts is taken back. -/
theorem Sound.takes_of_free {pools' : SubpagePools} {handle : Handle} (h : a.Sound)
    (hFound : a.chunks.find? id = some c) (hFree : c.free a.pools handle = .ok (c', pools'))
    (hOrigin : block.origin = .pooled id handle) (k : SizeClass) :
    (a.freeChunk id handle k).1 = .ok () ∧ a.Takes block (a.freeChunk id handle k).2 := by
  have hChunk := BandLists.chunkAt?_of_find? hFound
  have hHosts := h.chunk id _ hChunk
  have hGeometry : c.geometry = a.geometry := hHosts.geometry
  have hPools : SubpagePools.Sound c.geometry a.pools := hGeometry ▸ h.pools
  have hSound := Chunk.sound_unbanded.mp hHosts.sound
  obtain ⟨fate, lists', chunks', hLists⟩ := BandLists.exists_free a.lists hFound hFree
  obtain ⟨c'', hFree', hRebanded, hDropped⟩ := BandLists.free_eq_ok hFound hLists
  obtain ⟨rfl, -⟩ : c' = c'' ∧ pools' = pools' := by simpa [hFree] using hFree'
  have hRegains := hSound.regains_of_free hPools hFree
  -- the arena with the chunk put back, whatever becomes of it
  set kept : Arena := { a with lists := lists', chunks := chunks', pools := pools' } with hKept
  have hSets : a.Sets id (some c'.unbanded) kept :=
    ⟨rfl, hRebanded.sound ((Nodes.sameKeys_putValue ..).sound h.slab),
      hRebanded.chunkAt?_of_putValue hFound⟩
  obtain ⟨hKeptSound, hOwes⟩ := h.regain hChunk hRegains.unbanded hSets rfl hOrigin
  have hNow : kept.chunkAt? id = some c'.unbanded := hSets.chunkAt?_self
  obtain ⟨node, hNode, -⟩ := Nodes.get?_isSome_of_find? hFound
  cases fate with
  | kept =>
    have hResult : a.freeChunk id handle k = (.ok (), kept.countDeallocation k) := by
      simp only [freeChunk, hNode, hLists, hKept]
    rw [hResult]
    refine ⟨rfl, Takes.resembles ⟨hKeptSound, rfl, hOwes, fun other hSome hNone => ?_⟩
      (resembles_countDeallocation kept k)⟩
    exact absurd (hSets.departed hSome hNone).2 (by simp)
  | dropped =>
    -- the chunk is all free, and leaves the arena that took the block back
    obtain ⟨last, hLast, -⟩ := Option.map_eq_some_iff.mp hNow
    obtain ⟨gone, chunks'', hRemove, -⟩ := Nodes.exists_remove hLast
    set left : Arena := { kept with chunks := chunks'' } with hLeft
    have hResult : a.freeChunk id handle k = (.ok (), left.countDeallocation k) := by
      simp only [freeChunk, hNode, hLists]
      rw [show chunks'.remove id = some (gone, chunks'') from hRemove]
    have hLeftSets : kept.Sets id none left := by
      refine ⟨rfl, hKeptSound.slab.remove hRemove, fun other => ?_⟩
      rw [Arena.chunkAt?, BandLists.chunkAt?, Nodes.find?_remove hRemove]
      split <;> rfl
    have hKeptHosts := hKeptSound.chunk id _ hNow
    have hChunkSize : c'.size = a.geometry.chunkSize := by
      rw [Chunk.size]
      exact congrArg Geometry.chunkSize hKeptHosts.geometry
    have hFreeBytes : c'.size ≤ c'.freeBytes := by
      refine Chunk.size_le_of_usage_lt ?_ (hDropped rfl)
      rw [hChunkSize]
      exact h.geometry.chunkSize_pos
    have hCount : c'.freeBytes + _ = c'.size := hKeptHosts.sound.freeBytes
    obtain ⟨hLeftSound, hLeftOwes, -, hNoPage⟩ :=
      hKeptSound.drop hNow hFreeBytes hLeftSets rfl rfl
    rw [hResult]
    refine ⟨rfl, Takes.resembles ⟨hLeftSound, rfl,
      fun rest hAll => hLeftOwes rest (hOwes rest hAll), fun other hSome hNone => ?_⟩
      (resembles_countDeallocation left k)⟩
    -- the first change removed no chunk, so what is gone went with the second
    have hStill : (kept.chunkAt? other).isSome = true := by
      by_contra hGone
      exact absurd (hSets.departed hSome (by simpa using hGone)).2 (by simp)
    obtain ⟨rfl, -⟩ := hLeftSets.departed hStill hNone
    exact ⟨⟨handle, c, c', pools', hOrigin, hFound, hFree, by omega⟩, hNoPage⟩

theorem Sound.takes_freeChunk {handle : Handle} (h : a.Sound)
    (hLive : a.blockAt? id handle = some block)
    (hOrigin : block.origin = .pooled id handle) (k : SizeClass) :
    (a.freeChunk id handle k).1 = .ok () ∧ a.Takes block (a.freeChunk id handle k).2 := by
  obtain ⟨cBare, hChunk, hBlock⟩ := exists_chunkAt?_of_blockAt? hLive
  obtain ⟨c, hFound, rfl⟩ := Option.map_eq_some_iff.mp hChunk
  obtain ⟨-, hGeometry, hSound⟩ := h.hosts_of_find? hFound
  obtain ⟨c', pools', hFree⟩ := hSound.exists_free (hGeometry ▸ h.pools) hBlock
  exact h.takes_of_free hFound hFree hOrigin k

/-- The arena stays sound whatever is given back, also what was never handed out. -/
theorem Sound.freeChunk (h : a.Sound) (id : ChunkId) (handle : Handle) (k : SizeClass) :
    (a.freeChunk id handle k).2.Sound := by
  rcases freeChunk_cases a id handle k with hSame | ⟨c, c', pools', hFound, hFree⟩
  · rwa [hSame]
  · -- any block of that name will do
    obtain ⟨block, hOrigin⟩ : ∃ block : Block, block.origin = .pooled id handle :=
      ⟨.pooled Region.nothing 0 0 id handle, rfl⟩
    exact (h.takes_of_free hFound hFree hOrigin k).2.sound

theorem Sound.free (h : a.Sound) (block : Block) : (a.free block).2.Sound := by
  unfold Arena.free
  split
  · exact (resembles_freeUnpooled a block.capacity).sound h
  · exact h.freeChunk ..

/-- An owed block is taken back, and a chunk leaves only with its last block. -/
theorem Sound.takes_free (h : a.Sound) (hOwes : a.Owes (block :: rest)) :
    (a.free block).1 = .ok () ∧ a.Takes block (a.free block).2 := by
  unfold Arena.free
  cases hOrigin : block.origin with
  | unpooled =>
    have hSame := resembles_freeUnpooled a block.capacity
    refine ⟨rfl, hSame.sound h, hSame.geometry, fun rest hAll => hSame.owes_uncons hAll hOrigin,
      fun id hSome hNone => ?_⟩
    dsimp only at hNone
    rw [hSame.chunkAt?] at hNone
    rw [hNone] at hSome
    exact absurd hSome (by simp)
  | pooled id handle =>
    have hLive := (hOwes.pooled id handle block).mpr ⟨List.mem_cons_self, hOrigin⟩
    exact h.takes_freeChunk hLive hOrigin _

end Arena

end BlockPool
