import BlockPool.Arena.Metrics
import BlockPool.Proofs.Arena.Session
import BlockPool.Proofs.Total

/-!
# BlockPool — what an arena counts

An arena counts a block as handed out by the class of the request, and as given back by the class of
the block's size. The two agree: a block has the size that was asked for, and where a region of its
own serves a smaller request, both count it as huge. So the counts differ by the blocks that are
out.

* `Geometry.classOf?` — the class that a block counts in.
* `Arena.Charges`, `Arena.Credits` — what a request, or a return, does to the counts.
* `Arena.Tallied` — the counts differ by what is out.
* `Arena.Tallied.allocate`, `Arena.Tallied.free` — and go on to.
* `Session.tallied_run` — so the counts are exact after every run of a session.
* `Session.run_counts_exact` — and no count is ever taken below zero.
-/

namespace BlockPool

/-- The class that a block counts in: that of its size if it was carved from a chunk, and huge if it
is a region of its own. The block of no bytes counts in none. -/
def Geometry.classOf? (g : Geometry) (block : Block) : Option SizeClass :=
  match block.origin with
  | .pooled _ _ => some (g.sizeClass block.capacity)
  | .unpooled => if 0 < block.capacity then some .huge else none

/-- The number of blocks that count in a class. -/
def Geometry.tally (g : Geometry) (k : SizeClass) (blocks : List Block) : Nat :=
  blocks.countP fun block => decide (g.classOf? block = some k)

/-- The bytes of a block that is a region of its own. -/
def Block.wholeBytes (block : Block) : Nat :=
  match block.origin with
  | .pooled _ _ => 0
  | .unpooled => block.capacity

/-- One more in a class, if there is a class. -/
def ClassCounts.record (c : ClassCounts) (k? : Option SizeClass) : ClassCounts :=
  k?.elim c c.increment

theorem ClassCounts.get_record (c : ClassCounts) (k? : Option SizeClass) (k : SizeClass) :
    (c.record k?).get k = c.get k + if k? = some k then 1 else 0 := by
  cases k? with
  | none => rfl
  | some k' =>
    by_cases hk : k' = k
    · subst hk
      simp [record]
    · simp [record, ClassCounts.get_increment_of_ne c hk, hk]

theorem ClassCounts.total_record_le (c : ClassCounts) (k? : Option SizeClass) :
    (c.record k?).total ≤ c.total + 1 := by
  cases k? with
  | none => exact Nat.le_succ _
  | some k => exact (c.total_increment k).le

theorem ClassCounts.total_eq (c : ClassCounts) :
    c.total = c.get .tiny + c.get .small + c.get .normal + c.get .huge := rfl

-- ---------------------------------------------------------------------------
-- Blocks carved from a chunk
-- ---------------------------------------------------------------------------

theorem Subpage.isPooled_take {p q : Subpage} {block : Block} (h : p.take? = some (block, q)) :
    block.isPooled = true := by
  obtain ⟨-, slot, used, -, rfl, -⟩ := take?_eq_some h
  rfl

theorem SubpagePool.isPooled_takeAt {pool after : SubpagePool} {i : Nat} {block : Block}
    (h : pool.takeAt? i = some (block, after)) : block.isPooled = true := by
  simp only [takeAt?, Option.bind_eq_bind, Option.bind_eq_some_iff, Prod.exists] at h
  obtain ⟨p, -, taken, q, hSlot, hAfter⟩ := h
  simp only [Option.pure_def, Option.some.injEq, Prod.mk.injEq] at hAfter
  obtain ⟨rfl, -⟩ := hAfter
  exact Subpage.isPooled_take hSlot

theorem Chunk.isPooled_allocate {c c' : Chunk} {pools after : SubpagePools} {size : Nat}
    {block : Block} (h : c.allocate pools size = some (block, c', after)) :
    block.isPooled = true := by
  rcases allocate_cases h with ⟨-, hServed⟩ | ⟨-, hRun, -⟩
  · obtain ⟨pool, pool', node, tree, -, -, hServe, -, -⟩ := allocateSubpage_eq_some hServed
    obtain ⟨-, -, hTakeAt⟩ := Option.bind_eq_some_iff.mp hServe
    exact SubpagePool.isPooled_takeAt hTakeAt
  · obtain ⟨node, tree, -, rfl, -⟩ := allocateRun_eq_some hRun
    rfl

namespace Arena

variable {a a₀ a' : Arena} {id : ChunkId} {c : Chunk} {block : Block}
  {blocks rest blocks' : List Block} {k : SizeClass} {size : Nat} {handle : Handle}
  {result : Except ArenaError Block}

-- ---------------------------------------------------------------------------
-- Requests
-- ---------------------------------------------------------------------------

/-- The same counts, over the same geometry. -/
structure SameCounts (a a' : Arena) : Prop where
  geometry : a'.geometry = a.geometry
  allocations : a'.allocations = a.allocations
  deallocations : a'.deallocations = a.deallocations
  hugeBytes : a'.hugeBytes = a.hugeBytes

/-- A request counts the block that comes out of it, and nothing if none does. -/
structure Charges (a : Arena) (result : Except ArenaError Block) (a' : Arena) : Prop where
  geometry : a'.geometry = a.geometry
  allocations :
    a'.allocations = a.allocations.record (result.toOption.bind a.geometry.classOf?)
  deallocations : a'.deallocations = a.deallocations
  hugeBytes : a'.hugeBytes = a.hugeBytes + total (result.toOption.toList.map (·.wholeBytes))

theorem classOf?_of_isPooled {g : Geometry} (h : block.isPooled = true) :
    g.classOf? block = some (g.sizeClass block.capacity) ∧ block.wholeBytes = 0 := by
  unfold Block.isPooled at h
  cases hOrigin : block.origin with
  | pooled id handle => simp [Geometry.classOf?, Block.wholeBytes, hOrigin]
  | unpooled => simp [hOrigin] at h

/-- A block carved from a chunk counts in the class of its size. -/
theorem SameCounts.charges_pooled (h : a.SameCounts a') (hPooled : block.isPooled = true)
    (hSize : block.capacity = size) :
    a.Charges (.ok block) (a'.countAllocation (a.geometry.sizeClass size)) := by
  obtain ⟨hClass, hBytes⟩ := classOf?_of_isPooled (g := a.geometry) hPooled
  rw [hSize] at hClass
  refine ⟨h.geometry, ?_, h.deallocations, ?_⟩
  · simp [countAllocation, ClassCounts.record, Except.toOption, hClass, h.allocations]
  · simp [countAllocation, Except.toOption, hBytes, h.hugeBytes]

/-- A region of its own counts as huge. -/
theorem charges_allocateUnpooled (a : Arena) (hPos : 0 < size) :
    a.Charges (a.allocateUnpooled size).1 (a.allocateUnpooled size).2 := by
  unfold allocateUnpooled
  dsimp only
  split
  · exact ⟨rfl, rfl, rfl, rfl⟩
  · refine ⟨rfl, ?_, rfl, ?_⟩
    · simp [countAllocation, ClassCounts.record, Except.toOption, Geometry.classOf?,
        Block.unpooled, hPos]
    · simp [Except.toOption, Block.wholeBytes, Block.unpooled]

theorem SameCounts.charges (hSame : a.SameCounts a₀) (h : a₀.Charges result a') :
    a.Charges result a' where
  geometry := h.geometry.trans hSame.geometry
  allocations := by rw [h.allocations, hSame.allocations, hSame.geometry]
  deallocations := h.deallocations.trans hSame.deallocations
  hugeBytes := by rw [h.hugeBytes, hSame.hugeBytes]

theorem sameCounts_allocateListed {bands : List Band}
    (hListed : a.allocateListed size bands = some (block, a')) :
    a.SameCounts a' ∧ block.isPooled = true := by
  obtain ⟨band, -, lists, chunks, pools, hBand, rfl⟩ := allocateListed_eq_some hListed
  obtain ⟨index, c, c', -, -, hServed, -⟩ := BandLists.allocate_cases hBand
  exact ⟨⟨rfl, rfl, rfl, rfl⟩, Chunk.isPooled_allocate hServed⟩

theorem Sound.charges_allocateSlot (h : a.Sound) (hSize : a.geometry.Carved size)
    (hPage : size < a.geometry.pageSize)
    (hSlot : a.allocateSlot (a.geometry.sizeClass size) size = some (block, a')) :
    a.Charges (.ok block) a' := by
  have hCapacity := (h.serves_allocateSlot hSize hPage hSlot).capacity block rfl
  obtain ⟨pool, pool', -, hTake, rfl⟩ := allocateSlot_eq_some hSlot
  obtain ⟨index, -, hTakeAt⟩ := Option.bind_eq_some_iff.mp hTake
  refine SameCounts.charges_pooled ⟨rfl, rfl, rfl, rfl⟩ ?_ hCapacity
  exact SubpagePool.isPooled_takeAt hTakeAt

/-- A new chunk counts nothing by itself, only the block that is served from it. -/
theorem Sound.charges_allocateFrom (h : a.Sound) (hSize : a.geometry.Carved size) {region : Region}
    (hRegionSize : region.size = a.geometry.chunkSize) (hRegion : region.id = a.requests) :
    let chunk := Chunk.ofRegion a.chunks.nextKey a.geometry region
    let asked : Arena := { a with requests := a.requests + 1 }
    a.Charges (asked.allocateFrom (a.geometry.sizeClass size) size chunk).1
      (asked.allocateFrom (a.geometry.sizeClass size) size chunk).2 := by
  intro chunk asked
  have hServes :=
    h.serves_allocateFrom hSize hRegionSize hRegion (a.geometry.sizeClass size)
  have hCapacity := hServes.capacity
  unfold allocateFrom at hCapacity ⊢
  cases hAllocate : chunk.allocate a.pools size with
  | none =>
    exact ⟨rfl, rfl, rfl, rfl⟩
  | some served =>
    obtain ⟨block, chunk', pools'⟩ := served
    simp only [chunk, asked, hAllocate] at hCapacity ⊢
    exact SameCounts.charges_pooled ⟨rfl, rfl, rfl, rfl⟩ (Chunk.isPooled_allocate hAllocate)
      (hCapacity block rfl)

theorem Sound.charges_allocateChunked (h : a.Sound) (hSize : a.geometry.Carved size) :
    a.Charges (a.allocateChunked (a.geometry.sizeClass size) size).1
      (a.allocateChunked (a.geometry.sizeClass size) size).2 := by
  unfold allocateChunked
  split
  · rename_i block listed hListed
    obtain ⟨hSame, hPooled⟩ := sameCounts_allocateListed hListed
    exact hSame.charges_pooled hPooled ((h.serves_allocateListed hSize hListed).capacity block rfl)
  · dsimp only
    split
    · have hSame : a.SameCounts { a with requests := a.requests + 1 } := ⟨rfl, rfl, rfl, rfl⟩
      exact hSame.charges (charges_allocateUnpooled _ hSize.pos)
    · rename_i hNew
      obtain ⟨region, hRegion, rfl⟩ := Chunk.allocateNew_eq_ok hNew
      obtain ⟨hNumber, hRegionSize, -⟩ :=
        Region.allocate_eq_ok (hSize.pos.trans_le (hSize.le_chunkSize h.geometry)) hRegion
      exact h.charges_allocateFrom hSize hRegionSize hNumber

/-- Whichever way a request is served, the block is counted in its own class. -/
theorem Sound.charges_allocate (h : a.Sound) (request : Nat) :
    a.Charges (a.allocate request).1 (a.allocate request).2 := by
  unfold allocate
  dsimp only
  split
  · exact ⟨rfl, rfl, rfl, rfl⟩
  · rename_i hPos
    set size := a.geometry.normalize request with hNormal
    have hCarved : a.geometry.sizeClass size ≠ .huge → a.geometry.Carved size :=
      h.geometry.carved_of_class hPos
    -- tiny and small sizes are served from slots alike
    have hShared : (a.geometry.sizeClass size = .tiny ∨ a.geometry.sizeClass size = .small) →
        ∀ {block a'}, a.allocateSlot (a.geometry.sizeClass size) size = some (block, a') →
          a.Charges (.ok block) a' := by
      intro hTwo block a' hSlot
      refine h.charges_allocateSlot (hCarved ?_) (Geometry.lt_pageSize_of_sizeClass hTwo) hSlot
      rcases hTwo with hTiny | hSmall
      · simp [hTiny]
      · simp [hSmall]
    cases hClass : a.geometry.sizeClass size with
    | huge => exact charges_allocateUnpooled a (Nat.pos_of_ne_zero hPos)
    | normal =>
      have hChunked := h.charges_allocateChunked (hCarved (by simp [hClass]))
      rwa [hClass] at hChunked
    | tiny | small =>
      have hChunked := h.charges_allocateChunked (hCarved (by simp [hClass]))
      rw [hClass] at hChunked hShared
      rw [allocateClass]
      split
      · rename_i hSlot
        exact hShared (by simp) hSlot
      · exact hChunked

-- ---------------------------------------------------------------------------
-- Returns
-- ---------------------------------------------------------------------------

/-- A return counts the block that goes back. -/
structure Credits (a : Arena) (block : Block) (a' : Arena) : Prop where
  geometry : a'.geometry = a.geometry
  allocations : a'.allocations = a.allocations
  deallocations : a'.deallocations = a.deallocations.record (a.geometry.classOf? block)
  hugeBytes : a'.hugeBytes = a.hugeBytes - block.wholeBytes

theorem credits_freeUnpooled (a : Arena) (hOrigin : block.origin = .unpooled) :
    a.Credits block (a.freeUnpooled block.capacity) := by
  unfold freeUnpooled
  split
  · rename_i hPos
    refine ⟨rfl, rfl, ?_, ?_⟩
    · simp [countDeallocation, Geometry.classOf?, hOrigin, hPos, ClassCounts.record]
    · simp [Block.wholeBytes, hOrigin]
  · rename_i hZero
    refine ⟨rfl, rfl, ?_, ?_⟩
    · simp [Geometry.classOf?, hOrigin, hZero, ClassCounts.record]
    · simp only [Block.wholeBytes, hOrigin]
      omega

/-- Whichever way a block goes back, it is counted in its own class. -/
theorem credits_free (hDone : (a.free block).1 = .ok ()) : a.Credits block (a.free block).2 := by
  unfold free at hDone ⊢
  cases hOrigin : block.origin with
  | unpooled => exact credits_freeUnpooled a hOrigin
  | pooled id handle =>
    rw [hOrigin] at hDone
    dsimp only at hDone ⊢
    unfold freeChunk at hDone ⊢
    split at hDone
    · exact absurd hDone (by simp)
    · split at hDone
      · exact absurd hDone (by simp)
      · refine ⟨rfl, rfl, ?_, ?_⟩
        · simp [countDeallocation, Geometry.classOf?, hOrigin, ClassCounts.record]
        · simp [countDeallocation, Block.wholeBytes, hOrigin]

-- ---------------------------------------------------------------------------
-- The counts and what is out
-- ---------------------------------------------------------------------------

/-- In each class as many blocks are out as were handed out and not given back, and the regions that
are out have as many bytes as is said. -/
structure Tallied (a : Arena) (blocks : List Block) : Prop where
  classes : ∀ k, a.allocations.get k = a.deallocations.get k + a.geometry.tally k blocks
  hugeBytes : a.hugeBytes = total (blocks.map (·.wholeBytes))

theorem tallied_empty (index : Nat) (g : Geometry) (supply : Supply) :
    (empty index g supply).Tallied [] where
  classes k := by cases k <;> rfl
  hugeBytes := rfl

theorem Tallied.perm (h : a.Tallied blocks) (hPerm : blocks.Perm blocks') : a.Tallied blocks' where
  classes k := by
    rw [h.classes, Geometry.tally, Geometry.tally, hPerm.countP_eq]
  hugeBytes := by
    rw [h.hugeBytes, total_eq_sum, total_eq_sum]
    exact (hPerm.map _).sum_eq

theorem Tallied.sameCounts (h : a.Tallied blocks) (hSame : a.SameCounts a') :
    a'.Tallied blocks where
  classes k := by rw [hSame.allocations, hSame.deallocations, hSame.geometry, h.classes]
  hugeBytes := by rw [hSame.hugeBytes, h.hugeBytes]

theorem tally_cons (g : Geometry) (k : SizeClass) (block : Block) (rest : List Block) :
    g.tally k (block :: rest) = g.tally k rest + if g.classOf? block = some k then 1 else 0 := by
  rw [Geometry.tally, List.countP_cons, Geometry.tally]
  simp only [decide_eq_true_eq]

/-- Every block that counts does so in one class. -/
theorem countP_classOf? (g : Geometry) (blocks : List Block) :
    blocks.countP (fun block => (g.classOf? block).isSome) =
      g.tally .tiny blocks + g.tally .small blocks + g.tally .normal blocks +
        g.tally .huge blocks := by
  induction blocks with
  | nil => rfl
  | cons block rest ih =>
    rw [List.countP_cons, ih, tally_cons, tally_cons, tally_cons, tally_cons]
    cases hClass : g.classOf? block with
    | none => simp
    | some k => cases k <;> simp <;> omega

/-- The blocks that count are as many as were handed out and not given back. -/
theorem Tallied.total (h : a.Tallied blocks) :
    a.allocations.total = a.deallocations.total +
      blocks.countP fun block => (a.geometry.classOf? block).isSome := by
  rw [ClassCounts.total_eq, ClassCounts.total_eq, h.classes, h.classes, h.classes, h.classes,
    countP_classOf?]
  omega

/-- A region that is out is among the bytes that are counted. -/
theorem Tallied.wholeBytes_le (h : a.Tallied (block :: rest)) : block.wholeBytes ≤ a.hugeBytes := by
  rw [h.hugeBytes, List.map_cons, total_cons]
  exact Nat.le_add_right ..

/-- The block that comes out of a request is counted beside the others. -/
theorem Tallied.of_charges (h : a.Tallied blocks) (hCharges : a.Charges result a') :
    a'.Tallied (result.toOption.toList ++ blocks) where
  classes k := by
    rw [hCharges.allocations, hCharges.deallocations, hCharges.geometry, ClassCounts.get_record,
      h.classes]
    cases hResult : result.toOption with
    | none => simp
    | some block =>
      rw [Option.bind_some, Option.toList_some, List.singleton_append, tally_cons, Nat.add_assoc]
  hugeBytes := by
    rw [hCharges.hugeBytes, h.hugeBytes, List.map_append, total_append, Nat.add_comm]

/-- The block that goes back is counted no more. -/
theorem Tallied.of_credits (h : a.Tallied (block :: rest)) (hCredits : a.Credits block a') :
    a'.Tallied rest where
  classes k := by
    have hBefore := h.classes k
    rw [tally_cons] at hBefore
    rw [hCredits.allocations, hCredits.deallocations, hCredits.geometry, ClassCounts.get_record]
    omega
  hugeBytes := by
    rw [hCredits.hugeBytes, h.hugeBytes, List.map_cons, total_cons, Nat.add_sub_cancel_left]

theorem Tallied.allocate (h : a.Tallied blocks) (hSound : a.Sound) (request : Nat) :
    (a.allocate request).2.Tallied ((a.allocate request).1.toOption.toList ++ blocks) :=
  h.of_charges (hSound.charges_allocate request)

theorem Tallied.free (h : a.Tallied (block :: rest)) (hSound : a.Sound)
    (hOwes : a.Owes (block :: rest)) : (a.free block).2.Tallied rest :=
  h.of_credits (credits_free (hSound.takes_free hOwes).1)

/-- No return counts as a request, whether or not the block is accepted. -/
theorem allocations_free (a : Arena) (block : Block) :
    (a.free block).2.allocations = a.allocations := by
  unfold free
  split
  · unfold freeUnpooled
    split <;> rfl
  · unfold freeChunk
    split
    · rfl
    · split <;> rfl

theorem allocations_release (a : Arena) (blocks : List Block) :
    (Cache.release a blocks).allocations = a.allocations := by
  induction blocks generalizing a with
  | nil => rfl
  | cons block blocks ih => exact (ih (a.free block).2).trans (allocations_free a block)

end Arena

namespace Session

variable {g : Geometry} {s : Session}

theorem kept_tallied : Kept fun a blocks => a.Tallied blocks where
  perm h hPerm := h.perm hPerm
  caches _ h := h.sameCounts ⟨rfl, rfl, rfl, rfl⟩
  allocate hSound h request := h.allocate hSound request
  free hSound hOwes h := h.free hSound hOwes

/-- The counts are exact after every run. -/
theorem tallied_run (hg : g.WellFormed) (index : Nat) (supply : Supply) (ops : List Op) :
    ((start index g supply).run ops).arena.Tallied ((start index g supply).run ops).blocks :=
  kept_tallied.run (sound_start hg index supply) (Arena.tallied_empty index g supply) ops

/-- Whatever a caller does counts one block at most as handed out. -/
theorem Sound.total_step (h : s.Sound g) (op : Op) :
    (s.step op).arena.allocations.total ≤ s.arena.allocations.total + 1 := by
  obtain ⟨numCaches, hStep⟩ := h.arena_step op
  dsimp only at hStep
  have hSame : (Cache.release s.arena (s.returns op)).allocations = s.arena.allocations :=
    Arena.allocations_release ..
  rcases hStep with hStep | ⟨request, hStep⟩
  · rw [hStep, ← hSame]
    exact Nat.le_succ _
  · have hReleased : (Cache.release s.arena (s.returns op)).Resembles
        { Cache.release s.arena (s.returns op) with numCaches } := ⟨rfl, rfl, rfl, Nat.le_refl _⟩
    have hSound := hReleased.sound (h.arena.sound_release (s.returns op))
    rw [hStep, (hSound.charges_allocate request).allocations, ← hSame]
    exact ClassCounts.total_record_le ..

theorem Sound.total_run (h : s.Sound g) (ops : List Op) :
    (s.run ops).arena.allocations.total ≤ s.arena.allocations.total + ops.length := by
  induction ops generalizing s with
  | nil => exact Nat.le_refl _
  | cons op rest ih =>
    calc (s.run (op :: rest)).arena.allocations.total
        ≤ (s.step op).arena.allocations.total + rest.length := ih (h.step op)
      _ ≤ s.arena.allocations.total + 1 + rest.length :=
          Nat.add_le_add_right (h.total_step op) _
      _ = s.arena.allocations.total + (op :: rest).length := by
          rw [List.length_cons, Nat.add_assoc, Nat.add_comm 1]

/-- In every state, as many blocks of a class are held or parked as were handed out and not given
back, and the bytes of the regions that are out are those counted; a run counts no more blocks than
it has operations. No subtraction hides a fault: what was given back never exceeds what was handed
out, and each block that an operation gives back to the arena has no more bytes of its own than are
counted at that moment. -/
theorem run_counts_exact (hg : g.WellFormed) (index : Nat) (supply : Supply) (ops : List Op)
    (op : Op) :
    let s := (start index g supply).run ops
    (∀ k, s.arena.deallocations.get k ≤ s.arena.allocations.get k ∧
      s.arena.allocations.get k - s.arena.deallocations.get k = g.tally k s.blocks) ∧
    s.arena.hugeBytes = total (s.blocks.map (·.wholeBytes)) ∧
    s.arena.deallocations.total ≤ s.arena.allocations.total ∧
    s.arena.metrics.activeAllocations =
      s.blocks.countP (fun block => (g.classOf? block).isSome) ∧
    s.arena.allocations.total ≤ ops.length ∧
    (∃ numCaches, let a : Arena := { Cache.release s.arena (s.returns op) with numCaches }
      (s.step op).arena = a ∨ ∃ request, (s.step op).arena = (a.allocate request).2) ∧
    ∀ before block after, s.returns op = before ++ block :: after →
      let a := Cache.release s.arena before
      block.wholeBytes ≤ a.hugeBytes ∧
        (a.free block).2.hugeBytes + block.wholeBytes = a.hugeBytes := by
  intro s
  have hSound : s.Sound g := (sound_start hg index supply).run ops
  have hTallied : s.arena.Tallied s.blocks := tallied_run hg index supply ops
  have hTotal := hTallied.total
  rw [hSound.geometry] at hTotal
  refine ⟨fun k => ?_, hTallied.hugeBytes, by omega, ?_, ?_, hSound.arena_step op, ?_⟩
  · have hClass := hTallied.classes k
    rw [hSound.geometry] at hClass
    omega
  · rw [ArenaMetrics.activeAllocations, Arena.metrics, hTotal, Nat.add_sub_cancel_left]
  · have hCount := (sound_start hg index supply).total_run ops
    rwa [show (start index g supply).arena.allocations.total = 0 from rfl, Nat.zero_add] at hCount
  · intro before block after hReturns a
    obtain ⟨kept, hPerm⟩ := hSound.exists_returns op
    rw [hReturns, List.append_assoc, List.cons_append] at hPerm
    -- the arena just before the block goes back, which still counts it and the later ones
    have hOwes := hSound.owes.perm hPerm.symm
    obtain ⟨hArena, -, hOwesRest⟩ := hSound.arena.release hOwes
    have hNow : a.Tallied (block :: (after ++ kept)) :=
      kept_tallied.release hSound.arena hOwes (hTallied.perm hPerm.symm)
    have hBytes := hNow.wholeBytes_le
    have hAfter := (Arena.credits_free (hArena.takes_free hOwesRest).1).hugeBytes
    exact ⟨hBytes, by rw [hAfter, Nat.sub_add_cancel hBytes]⟩

/-- A page that no chunk could be had for counts as huge, a chunk that is out as normal, and a slot
that a cache has parked as tiny. -/
theorem run_counts_exact_fallback :
    (⟨4096, 1, 0⟩ : Geometry).WellFormed ∧ ∃ s : Session,
      s = (start 0 ⟨4096, 1, 0⟩ fun number =>
          if number = 1 then Provider.unsupported else Provider.below (2 ^ 20)).run
        [.bind (PoolConfig.defaults 1), .allocate 8192, .allocate 4096, .allocateVia 0 100,
          .freeVia 0 0] ∧
      s.arena.allocations.get .huge - s.arena.deallocations.get .huge = 1 ∧
        s.arena.allocations.get .normal - s.arena.deallocations.get .normal = 1 ∧
        s.arena.allocations.get .tiny - s.arena.deallocations.get .tiny = 1 ∧
        s.arena.hugeBytes = 4096 ∧ s.arena.metrics.activeAllocations = 3 ∧ s.held.length = 2 := by
  have hExact := run_counts_exact Geometry.wellFormed_two_pages 0
    (fun number => if number = 1 then Provider.unsupported else Provider.below (2 ^ 20))
    [.bind (PoolConfig.defaults 1), .allocate 8192, .allocate 4096, .allocateVia 0 100,
      .freeVia 0 0] (.trim 0)
  generalize hRun : (start 0 ⟨4096, 1, 0⟩ fun number =>
      if number = 1 then Provider.unsupported else Provider.below (2 ^ 20)).run
    [.bind (PoolConfig.defaults 1), .allocate 8192, .allocate 4096, .allocateVia 0 100,
      .freeVia 0 0] = s at hExact
  obtain ⟨hClasses, hHuge, -, hActive, -⟩ := hExact
  -- what is out decides the counts, and can be computed
  have hOut : ∀ k ∈ [SizeClass.huge, .normal, .tiny],
      (⟨4096, 1, 0⟩ : Geometry).tally k s.blocks = 1 := by
    rw [← hRun]
    decide +kernel
  have hBytes : total (s.blocks.map (·.wholeBytes)) = 4096 := by
    rw [← hRun]
    decide +kernel
  have hCount : s.blocks.countP
      (fun block => ((⟨4096, 1, 0⟩ : Geometry).classOf? block).isSome) = 3 := by
    rw [← hRun]
    decide +kernel
  have hHeld : s.held.length = 2 := by
    rw [← hRun]
    decide +kernel
  exact ⟨Geometry.wellFormed_two_pages, s, rfl, (hClasses .huge).2.trans (hOut .huge (by simp)),
    (hClasses .normal).2.trans (hOut .normal (by simp)),
    (hClasses .tiny).2.trans (hOut .tiny (by simp)), hHuge.trans hBytes, hActive.trans hCount,
    hHeld⟩

end Session

end BlockPool
