import BlockPool.Proofs.Arena.Answers
import BlockPool.Proofs.Store.Entries

/-!
# BlockPool — how blocks are aligned

A geometry may name an alignment. It reaches the sizes of two kinds only: tiny requests, where it is
the step from one size to the next, and those that no chunk serves. The sizes in between are the
powers of two, whatever the alignment, and a slot of such a size starts at a multiple of the size:
where that is less than the alignment, the slot may miss the alignment.

Where a block starts follows from how it was cut. A run starts at a multiple of its own length, and
the slots of a page lie one behind the other, so every common divisor of a page and of the size of a
block divides its offset. A block never moves, so the caches, which hand out what they were given,
add nothing to this.

* `Block.Spaced` — every common divisor of a page and of the size divides the offset.
* `Arena.Sound.exists_owes` — every arena owes the live blocks of its chunks.
* `Arena.Regular.allocateCached_cases` — what a cache answers was parked there, or is new.
* `Session.Knows` — what holds of every block that callers hold and caches have parked.
* `Session.Fit.knows_play` — what holds of all that arenas hand out is known after every run.
* `Geometry.Aligns` — how a block is aligned: fully, or as far as its size goes.
* `Session.play_offset_aligned` — so is every block that any request is answered with.
-/

namespace BlockPool

/-- Every common divisor of a page and of the size of the block divides its offset. -/
def Block.Spaced (b : Block) (pageSize : Nat) : Prop := pageSize.gcd b.capacity ∣ b.offset

-- ---------------------------------------------------------------------------
-- Live blocks
-- ---------------------------------------------------------------------------

namespace Chunk

variable {c : Chunk} {pools : SubpagePools} {handle : Handle} {block : Block}

/-- A run starts at a multiple of its length. -/
theorem runLength_dvd_runOffset (c : Chunk) (node : Nat) : c.runLength node ∣ c.runOffset node :=
  Nat.dvd_mul_left ..

/-- A run is cut at its own length, and a slot at its size from the start of a page on. -/
theorem Sound.spaced (h : c.Sound pools) (hBlock : c.blockAt? pools handle = some block) :
    block.Spaced c.geometry.pageSize := by
  rcases blockAt?_cases hBlock with
    ⟨-, -, -, rfl⟩ | ⟨slot, record, p, -, hRecord, hFound, -, rfl⟩
  · exact (Nat.gcd_dvd_right ..).trans (c.runLength_dvd_runOffset _)
  · obtain ⟨hTaken, p', hFound', hPage⟩ := h.divided _ _ hRecord
    obtain rfl : p = p' := by simpa [hFound] using hFound'
    have hPageStart : c.geometry.pageSize ∣ p.runOffset := by
      rw [hPage.runOffset, ← h.runLength_of_leaf hTaken (numPages_le_of_leafRecord? hRecord)]
      exact c.runLength_dvd_runOffset _
    exact dvd_add ((Nat.gcd_dvd_left ..).trans hPageStart)
      ((Nat.gcd_dvd_right _ p.elemSize).mul_left _)

end Chunk

namespace Arena

variable {a : Arena} {g : Geometry} {c : Cache} {block : Block} {blocks : List Block}
  {request : Nat} {P : Block → Prop}

theorem Sound.spaced (h : a.Sound) (hOwes : a.Owes blocks) (hMem : block ∈ blocks)
    (hPooled : block.isPooled = true) : block.Spaced a.geometry.pageSize := by
  cases hOrigin : block.origin with
  | unpooled => simp [Block.isPooled, hOrigin] at hPooled
  | pooled id handle =>
    obtain ⟨c, hChunk, hBlock⟩ := hOwes.live hMem hOrigin
    have hHosts := h.chunk id c hChunk
    exact hHosts.geometry ▸ hHosts.sound.spaced hBlock

/-- There are finitely many handles, so a chunk has finitely many live blocks. -/
theorem finite_live (a : Arena) :
    {block | ∃ id handle, a.blockAt? id handle = some block}.Finite := by
  have hNumbers : Finite UInt32 := Finite.of_injective UInt32.toFin fun _ _ => UInt32.toFin_inj.mp
  have hHandles : Finite Handle := by
    refine Finite.of_injective (fun h : Handle => (h.node, h.slot)) ?_
    rintro ⟨node, slot⟩ ⟨node', slot'⟩ hEq
    obtain ⟨rfl, rfl⟩ := Prod.mk.inj hEq
    rfl
  have hNames : {id | (a.chunkAt? id).isSome = true}.Finite := by
    refine (a.chunks.entries.map (·.1)).finite_toSet.subset fun id hSome => ?_
    rw [Set.mem_ofPred_eq, isSome_chunkAt?] at hSome
    obtain ⟨c, hFound⟩ := Option.isSome_iff_exists.mp hSome
    obtain ⟨node, hNode, -⟩ := Option.map_eq_some_iff.mp hFound
    exact List.mem_map.mpr ⟨(id, node), Slab.mem_entries.mpr hNode, rfl⟩
  refine ((hNames.prod Set.finite_univ).image fun place => (a.blockAt? place.1 place.2).getD
    emptyBlock).subset ?_
  rintro block ⟨id, handle, hBlock⟩
  obtain ⟨c, hChunk, -⟩ := exists_chunkAt?_of_blockAt? hBlock
  exact ⟨(id, handle), ⟨by simp [hChunk], Set.mem_univ handle⟩, by simp [hBlock]⟩

/-- Whatever was done to it, an arena owes the live blocks of its chunks. -/
theorem Sound.exists_owes (h : a.Sound) : ∃ blocks, a.Owes blocks := by
  have hMem : ∀ block, block ∈ a.finite_live.toFinset.toList ↔
      ∃ id handle, a.blockAt? id handle = some block := by simp
  -- a chunk names itself in the blocks that it hands out
  have hOrigin : ∀ {id handle block}, a.blockAt? id handle = some block →
      block.origin = .pooled id handle := by
    intro id handle block hBlock
    obtain ⟨c, hChunk, hLive⟩ := exists_chunkAt?_of_blockAt? hBlock
    have hHosts := h.chunk id c hChunk
    rw [(hHosts.sound.inside (hHosts.geometry ▸ h.pools) hLive).origin, hHosts.id]
  have hPooled : ∀ block ∈ a.finite_live.toFinset.toList, block.isPooled = true := by
    intro block hLive
    obtain ⟨id, handle, hBlock⟩ := (hMem block).mp hLive
    exact isPooled_of_origin (hOrigin hBlock)
  -- no block of the list is a region of its own, so only the first two clauses say anything
  refine ⟨a.finite_live.toFinset.toList, fun id handle block => ?_,
    (Finset.nodup_toList _).filter _, fun b hb hWhole => ?_, ?_⟩
  · rw [hMem]
    constructor
    · exact fun hBlock => ⟨⟨id, handle, hBlock⟩, hOrigin hBlock⟩
    · rintro ⟨⟨id', handle', hBlock⟩, hHere⟩
      obtain ⟨rfl, rfl⟩ := Origin.pooled.inj ((hOrigin hBlock).symm.trans hHere)
      exact hBlock
  · exact absurd (hPooled b hb) (by simp [hWhole])
  · have hNone : a.finite_live.toFinset.toList.filter
        (fun b => !b.isPooled && decide (0 < b.capacity)) = [] :=
      List.filter_eq_nil_iff.mpr fun b hb => by simp [hPooled b hb]
    rw [hNone]
    exact List.nodup_nil

/-- A block that comes out of an arena is live from then on, and so it is spaced. -/
theorem Regular.spaced_allocate (h : a.Regular g) (hServed : (a.allocate request).1 = .ok block)
    (hPooled : block.isPooled = true) : block.Spaced g.pageSize := by
  obtain ⟨blocks, hOwes⟩ := h.sound.exists_owes
  have hServes := h.sound.serves_allocate request
  rw [hServed] at hServes
  have hSpaced := hServes.sound.spaced (hServes.owes blocks hOwes)
    (List.mem_append_left _ (by simp [Except.toOption])) hPooled
  rwa [hServes.geometry, h.geometry] at hSpaced

-- ---------------------------------------------------------------------------
-- What holds of all that arenas hand out
-- ---------------------------------------------------------------------------

/-- Every block that an arena of the geometry hands out has a property. -/
def HandsOut (g : Geometry) (P : Block → Prop) : Prop :=
  ∀ a : Arena, a.Regular g → ∀ request block, (a.allocate request).1 = .ok block → P block

/-- A request through a cache is answered with a block that was parked there, or as the arena that a
trim leaves answers it. The cache parks nothing new. -/
theorem Regular.allocateCached_cases (h : a.Regular g) (hCache : c.Sound g) (request : Nat) :
    (∀ b ∈ (a.allocateCached c request).2.1.blocks, b ∈ c.blocks) ∧
      ((∃ block ∈ c.blocks, (a.allocateCached c request).1 = .ok block) ∨
        (a.allocateCached c request).1 =
          ((Cache.release a (a.shed c request)).allocate request).1) := by
  obtain rfl := h.geometry
  have hg := h.sound.geometry
  set size := a.geometry.normalize request with hSize
  by_cases hPast : size = 0 ∨ a.geometry.sizeClass size = .huge
  · rw [allocateCached_past hPast, show a.shed c request = [] from if_pos hPast]
    exact ⟨fun _ hb => hb, .inr rfl⟩
  · obtain ⟨hPos, hSmall⟩ := not_or.mp hPast
    have hPerm := hCache.take_perm hg (hg.carved_of_class hPos hSmall) rfl a
    have hArena := c.arena_take a (a.geometry.sizeClass size) size
    rw [show c.shed _ size = a.shed c request from (if_neg hPast).symm] at hArena
    rw [allocateCached_via hPos rfl hSmall, ← hSize]
    -- what comes out of the queues was parked, and so was what stays
    split
    · rename_i block c' a' hTake
      rw [hTake] at hPerm
      have hMem : block ∈ c.blocks := hPerm.mem_iff.mp (by simp)
      exact ⟨fun b hb => hPerm.mem_iff.mp (by simp [hb]), .inl ⟨block, hMem, rfl⟩⟩
    · rename_i c' a' hTake
      rw [hTake] at hPerm hArena
      obtain rfl : a' = Cache.release a (a.shed c request) := hArena
      exact ⟨fun b hb => hPerm.mem_iff.mp (by simp [hb]), .inr rfl⟩

/-- A cache adds nothing to what the arena hands out. -/
theorem HandsOut.allocateCached (hOut : HandsOut g P) (h : a.Regular g) (hCache : c.Sound g)
    (hParked : ∀ b ∈ c.blocks, P b) (request : Nat) :
    (∀ block, (a.allocateCached c request).1 = .ok block → P block) ∧
      ∀ b ∈ (a.allocateCached c request).2.1.blocks, P b := by
  obtain ⟨hLeft, hAnswer⟩ := h.allocateCached_cases hCache request
  refine ⟨fun block hServed => ?_, fun b hb => hParked b (hLeft b hb)⟩
  rcases hAnswer with ⟨parked, hMem, hHit⟩ | hAsked
  · obtain rfl := Except.ok.inj (hHit.symm.trans hServed)
    exact hParked parked hMem
  · exact hOut _ (h.release (a.shed c request)) request block (hAsked.symm.trans hServed)

end Arena

namespace Session

open Arena (HandsOut)

variable {s : Session} {g : Geometry} {c : Cache} {block : Block} {held : List Block}
  {P : Block → Prop}

/-- Every block that callers hold, and every block that caches have parked, has a property. -/
structure Knows (s : Session) (P : Block → Prop) : Prop where
  parked : ∀ c ∈ s.caches, ∀ b ∈ c.blocks, P b
  held : ∀ b ∈ s.held, P b

theorem knows_start (index : Nat) (g : Geometry) (supply : Supply) (P : Block → Prop) :
    (start index g supply).Knows P :=
  ⟨fun _ hc => absurd hc (by simp [start]), fun _ hb => absurd hb (by simp [start])⟩

/-- Another cache in the place of one. -/
theorem Knows.setCache (h : s.Knows P) (hCache : ∀ b ∈ c.blocks, P b) (hHeld : ∀ b ∈ held, P b)
    (a' : Arena) (j : Nat) : (⟨a', s.caches.set j c, held⟩ : Session).Knows P where
  parked other hOther := by
    rcases List.mem_or_eq_of_mem_set hOther with hOld | rfl
    · exact h.parked other hOld
    · exact hCache
  held := hHeld

theorem Knows.eraseIdx (h : s.Knows P) (i : Nat) : ∀ b ∈ s.held.eraseIdx i, P b :=
  fun b hb => h.held b (List.mem_of_mem_eraseIdx hb)

theorem Knows.answer (h : s.Knows P) {result : Except ArenaError Block}
    (hResult : ∀ block, result = .ok block → P block) :
    ∀ b ∈ result.toOption.toList ++ s.held, P b := by
  intro b hb
  rcases List.mem_append.mp hb with hNew | hOld
  · cases result with
    | error error => exact absurd hNew (by simp [Except.toOption])
    | ok block =>
      obtain rfl : b = block := by simpa [Except.toOption] using hNew
      exact hResult b rfl
  · exact h.held b hOld

/-- A cache that is offered a block parks it, or stays as it is. -/
theorem Fit.parked_freeCached (hFit : s.Fit g) (h : s.Knows P) (hCache : c ∈ s.caches)
    (hHeld : block ∈ s.held) : ∀ b ∈ (s.arena.freeCached c block).2.1.blocks, P b := by
  have hParked := h.parked c hCache
  unfold Arena.freeCached
  split
  · rename_i c' hPark
    rw [hFit.arena.geometry] at hPark
    obtain ⟨-, hPerm⟩ := (hFit.caches c hCache).park (hFit.carved block hHeld) hPark
    intro b hb
    rcases List.mem_cons.mp (hPerm.mem_iff.mp hb) with rfl | hOld
    · exact h.held b hHeld
    · exact hParked b hOld
  · exact hParked

/-- What arenas hand out has the property, and nothing else comes to callers or into caches. -/
theorem Fit.knows_step (hFit : s.Fit g) (hOut : HandsOut g P) (h : s.Knows P) (op : Op) :
    (s.step op).Knows P := by
  have hMem : ∀ {j : Nat} {c : Cache}, s.caches[j]? = some c → c ∈ s.caches :=
    fun hCache => List.mem_of_getElem? hCache
  cases op with
  | allocate request =>
    exact ⟨h.parked, h.answer (hOut _ hFit.arena request)⟩
  | allocateVia j request =>
    unfold Session.step
    dsimp only
    split
    · exact h
    · rename_i c hCache
      -- either the arena is asked, or the answer is a block that was parked before
      obtain ⟨hServed, hLeft⟩ := hOut.allocateCached hFit.arena (hFit.caches c (hMem hCache))
        (h.parked c (hMem hCache)) request
      exact h.setCache hLeft (h.answer hServed) _ j
  | free i =>
    unfold Session.step
    dsimp only
    split
    · exact h
    · exact ⟨h.parked, h.eraseIdx i⟩
  | freeVia j i =>
    unfold Session.step
    dsimp only
    split
    · rename_i c block hCache hHeld
      -- the block moves from a caller to the cache
      exact h.setCache (hFit.parked_freeCached h (hMem hCache) (List.mem_of_getElem? hHeld))
        (h.eraseIdx i) _ j
    · exact h
  | bind config =>
    refine ⟨fun c hc b hb => ?_, h.held⟩
    -- the new cache is empty
    rcases List.mem_cons.mp hc with rfl | hOld
    · rw [Cache.blocks_empty] at hb
      exact absurd hb (by simp)
    · exact h.parked c hOld b hb
  | trim j =>
    unfold Session.step
    dsimp only
    split
    · exact h
    · rename_i c hCache
      -- a trim takes blocks out and puts none in
      obtain ⟨hPerm, -⟩ := (hFit.caches c (hMem hCache)).gather Cache.splits_trim
      exact h.setCache (fun b hb =>
        h.parked c (hMem hCache) b (hPerm.mem_iff.mp (List.mem_append_right _ hb))) h.held _ j
  | drop j =>
    unfold Session.step
    dsimp only
    split
    · exact h
    · exact ⟨fun c hc => h.parked c (List.mem_of_mem_eraseIdx hc), h.held⟩

theorem Fit.knows_act (hFit : s.Fit g) (hOut : HandsOut g P) (h : s.Knows P) (act : Act) :
    (s.act act).Knows P := by
  cases act with
  | op op => exact hFit.knows_step hOut h op
  | freeChunk id handle k => exact ⟨h.parked, h.held⟩

/-- What holds of every block that arenas hand out holds of every block that is around, whatever
callers do. -/
theorem Fit.knows_play (hFit : s.Fit g) (hOut : HandsOut g P) (h : s.Knows P)
    (acts : List Act) : (s.play acts).Knows P := by
  induction acts generalizing s with
  | nil => exact h
  | cons act rest ih => exact ih (hFit.act act) (hFit.knows_act hOut h act)

end Session

-- ---------------------------------------------------------------------------
-- The alignment
-- ---------------------------------------------------------------------------

namespace Geometry

variable {g : Geometry} {request : Nat} {block : Block}

/-- The alignment divides every size that a tiny request is rounded to. -/
theorem alignment_dvd_normalize (hg : g.WellFormed) (hAlign : g.alignment ≠ 0)
    (hTiny : request < 512) : g.alignment ∣ g.normalize request := by
  obtain ⟨⟨k, hk⟩, hLow, hHigh⟩ := hg.alignment.resolve_left hAlign
  rw [hg.pageSize_eq, hk, Nat.pow_le_pow_iff_right (by decide)] at hHigh
  rw [normalize_of_lt hg hTiny hHigh ((max_eq_left hLow).trans hk), hk]
  exact Nat.dvd_mul_left ..

/-- Every other size that a chunk serves is a power of two like the alignment, and so the smaller of
the two divides the other. -/
theorem min_alignment_dvd (hg : g.WellFormed) (hAlign : g.alignment ≠ 0)
    (hSize : g.Carved (g.normalize request)) :
    min g.alignment (g.normalize request) ∣ g.pageSize.gcd (g.normalize request) := by
  obtain ⟨⟨k, hk⟩, -, hHigh⟩ := hg.alignment.resolve_left hAlign
  have hPowers : ∀ {i j : Nat}, 2 ^ i ≤ 2 ^ j → 2 ^ i ∣ 2 ^ j :=
    fun hLe => Nat.pow_dvd_pow 2 ((Nat.pow_le_pow_iff_right (by decide)).mp hLe)
  have hPage : g.alignment ∣ g.pageSize := by
    rw [hg.pageSize_eq, hk] at hHigh ⊢
    exact hPowers hHigh
  rcases Nat.lt_or_ge request 512 with hTiny | hLarge
  · have hDvd := alignment_dvd_normalize hg hAlign hTiny
    rw [min_eq_left (Nat.le_of_dvd hSize.pos hDvd)]
    exact Nat.dvd_gcd hPage hDvd
  · obtain ⟨j, -, -, hj⟩ := hSize.exists_of_tiny_le (hLarge.trans (le_normalize hg request))
    -- both are powers of two now, and either may be the smaller one
    rcases Nat.le_total g.alignment (g.normalize request) with hLe | hLe
    · have hDvd : g.alignment ∣ g.normalize request := by
        rw [hk, hj] at hLe ⊢
        exact hPowers hLe
      rw [min_eq_left hLe]
      exact Nat.dvd_gcd hPage hDvd
    · have hDvd : g.normalize request ∣ g.alignment := by
        rw [hk, hj] at hLe ⊢
        exact hPowers hLe
      rw [min_eq_right hLe]
      exact Nat.dvd_gcd (hDvd.trans hPage) (dvd_refl _)

/-- How a block that serves a request is aligned. -/
structure Aligns (g : Geometry) (request : Nat) (block : Block) : Prop where
  /-- To the alignment, or to the size of the block where that is less. -/
  share : min g.alignment block.capacity ∣ block.offset
  /-- To the alignment, if the request is tiny or the size of the block is no less, as it always is
  where the alignment is no more than the tiny limit. -/
  full : request < 512 ∨ g.alignment ≤ 512 ∨ g.alignment ≤ block.capacity →
    g.alignment ∣ block.offset

/-- A spaced block of the normalized size is aligned. -/
theorem aligns_of_spaced (hg : g.WellFormed) (hAlign : g.alignment ≠ 0)
    (hSpaced : block.Spaced g.pageSize) (hCapacity : block.capacity = g.normalize request)
    (hSize : g.Carved block.capacity) : g.Aligns request block := by
  have hShare : min g.alignment block.capacity ∣ block.offset := by
    refine dvd_trans ?_ hSpaced
    rw [hCapacity] at hSize ⊢
    exact min_alignment_dvd hg hAlign hSize
  refine ⟨hShare, fun hFull => ?_⟩
  have hLe : g.alignment ≤ block.capacity := by
    rcases Nat.lt_or_ge request 512 with hTiny | hLarge
    · exact Nat.le_of_dvd hSize.pos (hCapacity ▸ alignment_dvd_normalize hg hAlign hTiny)
    · have hRequest := le_normalize hg request
      omega
  rwa [min_eq_left hLe] at hShare

end Geometry

-- ---------------------------------------------------------------------------
-- Every request of every run
-- ---------------------------------------------------------------------------

namespace Session

variable {g : Geometry}

/-- Every block of a chunk that an arena hands out is spaced. -/
theorem handsOut_spaced (g : Geometry) :
    Arena.HandsOut g fun block => block.isPooled = true → block.Spaced g.pageSize :=
  fun _ h _ _ hServed => h.spaced_allocate hServed

/-- Pages of 4096 bytes and an alignment to a quarter of one. -/
theorem wellFormed_coarse : (⟨4096, 1, 1024⟩ : Geometry).WellFormed where
  page := ⟨12, rfl⟩
  least := by decide
  order := by decide
  product := by decide
  alignment := .inr ⟨⟨10, rfl⟩, by decide, by decide⟩

/-- After every run, a block of a chunk that a request is answered with, past the caches or through
one of them, is aligned as far as its size goes, and in full if the request is tiny or the size of
the block is no less than the alignment. -/
theorem play_offset_aligned (hg : g.WellFormed) (hAlign : g.alignment ≠ 0) (index : Nat)
    (supply : Supply) (acts : List Act) (request : Nat) :
    let s := (start index g supply).play acts
    (∀ block, (s.arena.allocate request).1 = .ok block → block.isPooled = true →
      g.Aligns request block) ∧
    ∀ c ∈ s.caches, ∀ block, (s.arena.allocateCached c request).1 = .ok block →
      block.isPooled = true → g.Aligns request block := by
  intro s
  have hStart := fit_start hg index supply
  have hFit : s.Fit g := hStart.play acts
  have hKnows := hStart.knows_play (handsOut_spaced g) (knows_start index g supply _) acts
  constructor
  · intro block hServed hPooled
    have hAnswers := hFit.arena.answers_allocate request
    exact Geometry.aligns_of_spaced hg hAlign (hFit.arena.spaced_allocate hServed hPooled)
      (hAnswers.exact block hServed).1 (hAnswers.carved block hServed hPooled)
  · intro c hc block hServed hPooled
    have hAnswers := hFit.arena.answers_allocateCached (hFit.caches c hc) request
    obtain ⟨hSpaced, -⟩ := (handsOut_spaced g).allocateCached hFit.arena (hFit.caches c hc)
      (hKnows.parked c hc) request
    exact Geometry.aligns_of_spaced hg hAlign (hSpaced block hServed hPooled)
      (hAnswers.exact block hServed).1 (hAnswers.carved block hServed hPooled)

/-- Of a page of small slots the second one comes out, at a multiple of its size; a cache hands a
tiny block out again that is aligned in full. -/
theorem play_offset_aligned_small_and_hit :
    (⟨4096, 1, 1024⟩ : Geometry).WellFormed ∧ ∃ s : Session,
      s = (start 0 ⟨4096, 1, 1024⟩ fun _ => Provider.below (2 ^ 20)).play
        [.op (.bind (PoolConfig.defaults 1)), .op (.allocate 512), .op (.allocate 100),
          .op (.allocateVia 0 100), .op (.freeVia 0 0)] ∧
      (∃ block, (s.arena.allocate 512).1 = .ok block ∧ block.offset = 512 ∧
        min 1024 block.capacity ∣ block.offset) ∧
      ∃ c ∈ s.caches, ∃ block, (s.arena.allocateCached c 100).1 = .ok block ∧
        1024 ∣ block.offset := by
  have hAligned := play_offset_aligned wellFormed_coarse (by decide) 0
    (fun _ => Provider.below (2 ^ 20))
    [.op (.bind (PoolConfig.defaults 1)), .op (.allocate 512), .op (.allocate 100),
      .op (.allocateVia 0 100), .op (.freeVia 0 0)]
  -- only the facts below are computed, each by one evaluation of the run
  generalize hRun : (start 0 ⟨4096, 1, 1024⟩ fun _ => Provider.below (2 ^ 20)).play
    [.op (.bind (PoolConfig.defaults 1)), .op (.allocate 512), .op (.allocate 100),
      .op (.allocateVia 0 100), .op (.freeVia 0 0)] = s at hAligned
  have hSmall : (s.arena.allocate 512).1.toOption.map (fun b => (b.isPooled, b.offset)) =
      some (true, 512) := by
    rw [← hRun]
    decide +kernel
  obtain ⟨c, hCaches⟩ : ∃ c, s.caches = [c] := by
    refine List.length_eq_one_iff.mp ?_
    rw [← hRun]
    decide +kernel
  have hHit : s.caches.all (fun c =>
      (s.arena.allocateCached c 100).1.toOption.any (·.isPooled)) = true := by
    rw [← hRun]
    decide +kernel
  -- the slot first, then the block that was parked
  refine ⟨wellFormed_coarse, s, rfl, ?_, ?_⟩
  · cases hServed : (s.arena.allocate 512).1 with
    | error error => exact absurd hSmall (by simp [hServed, Except.toOption])
    | ok block =>
      obtain ⟨hPooled, hOffset⟩ : block.isPooled = true ∧ block.offset = 512 := by
        simpa [hServed, Except.toOption] using hSmall
      exact ⟨block, rfl, hOffset, ((hAligned 512).1 block hServed hPooled).share⟩
  · have hMem : c ∈ s.caches := by simp [hCaches]
    cases hServed : (s.arena.allocateCached c 100).1 with
    | error error => exact absurd hHit (by simp [hCaches, hServed, Except.toOption])
    | ok block =>
      have hPooled : block.isPooled = true := by
        simpa [hCaches, hServed, Except.toOption] using hHit
      have hFull := ((hAligned 100).2 c hMem block hServed hPooled).full
      exact ⟨c, hMem, block, hServed, hFull (.inl (by decide))⟩

/-- With one slot of a page taken, the next one of the tiny limit starts where no multiple of the
alignment is. -/
theorem play_offset_unaligned :
    (⟨4096, 1, 1024⟩ : Geometry).WellFormed ∧ ∃ block,
      (((start 0 ⟨4096, 1, 1024⟩ fun _ => Provider.below (2 ^ 20)).play
        [.op (.allocate 512)]).arena.allocate 512).1 = .ok block ∧
      block.isPooled = true ∧ ¬ 1024 ∣ block.offset := by
  refine ⟨wellFormed_coarse, ?_⟩
  generalize hServed : (((start 0 ⟨4096, 1, 1024⟩ fun _ => Provider.below (2 ^ 20)).play
    [.op (.allocate 512)]).arena.allocate 512).1 = result
  have hSecond : result.toOption.map (fun b => (b.isPooled, b.offset)) = some (true, 512) := by
    rw [← hServed]
    decide +kernel
  cases result with
  | error error => exact absurd hSecond (by simp [Except.toOption])
  | ok block =>
    obtain ⟨hPooled, hOffset⟩ : block.isPooled = true ∧ block.offset = 512 := by
      simpa [Except.toOption] using hSecond
    exact ⟨block, rfl, hPooled, by rw [hOffset]; decide⟩

end Session

end BlockPool
