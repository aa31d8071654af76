import BlockPool.Proofs.Chunk.Live
import BlockPool.Proofs.Chunk.Outcomes

/-!
# BlockPool — blocks out of a chunk

What allocating does, said in live blocks: one handle that named nothing gets a block, and every
other handle keeps what it names. The bookkeeping behind it, a mark in the tree, a leaf record and
a slot of a page, is put together here and not seen again.

* `Chunk.Grants` — a block came out of a chunk, perhaps through the pools alone.
* `Chunk.Remarks` — one node has another mark, and its leaf another record.
* `Chunk.Sound.grants_of_allocate` — a block of the size comes out of the chunk.
* `Chunk.Sound.grants_of_serves` — a slot comes out of a page of the chunk.
* `Chunk.Sound.exists_allocate_of_free` — a chunk with nothing taken serves every size.
-/

namespace BlockPool.Chunk

open SubpagePools (subpageAt? Beside Updates Serves)

variable {c c' : Chunk} {pools after : SubpagePools} {record : LeafRecord} {p q : Subpage}
  {node slot size : Nat} {handle : Handle} {block : Block} {tree : Buddy}

/-- A chunk and its pools after a block was handed out. -/
structure Grants (c : Chunk) (pools : SubpagePools) (block : Block) (c' : Chunk)
    (after : SubpagePools) : Prop where
  same : c.SameMemory c'
  sound : c'.Sound after
  store : SubpagePools.Sound c.geometry after
  beside : Beside c.id pools after
  blocks : ∃ handle, block.origin = .pooled c.id handle ∧ c.blockAt? pools handle = none ∧
    ∀ other, c'.blockAt? after other =
      if other = handle then some block else c.blockAt? pools other

/-- What a handle names depends on the record of its leaf, the mark of its node and the subpage
of the record. -/
theorem blockAt?_congr (hSame : c.SameMemory c')
    (hRecord : c'.leafRecord? handle.node.toNat = c.leafRecord? handle.node.toNat)
    (hTaken : c'.tree.isTaken handle.node.toNat = c.tree.isTaken handle.node.toNat)
    (hPools : ∀ record, c.leafRecord? handle.node.toNat = some record →
      subpageAt? after record = subpageAt? pools record) :
    c'.blockAt? after handle = c.blockAt? pools handle := by
  cases hLeaf : c.leafRecord? handle.node.toNat with
  | none =>
    rw [blockAt?_run hLeaf, blockAt?_run (hRecord.trans hLeaf), hTaken, hSame.runBlock]
  | some record =>
    rw [blockAt?_slot hLeaf, blockAt?_slot (hRecord.trans hLeaf), hPools record hLeaf]

-- ---------------------------------------------------------------------------
-- Slots of a page
-- ---------------------------------------------------------------------------

/-- The handles of a divided node name the slots in use. -/
theorem Sound.blockAt?_page (h : c.Sound pools) (hFound : subpageAt? pools record = some p)
    (hChunk : p.chunk = c.id) (hNode : handle.node = p.node) :
    c.blockAt? pools handle = handle.slot.bind p.live? := by
  have hRecord := h.recorded record p hFound hChunk
  rw [← hNode] at hRecord
  rw [blockAt?_slot hRecord, hFound]
  rfl

/-- Another state of the slots of one page leaves the chunk sound. -/
theorem Sound.replacePage (h : c.Sound pools) (hFound : subpageAt? pools record = some p)
    (hChunk : p.chunk = c.id) (hPage : p.SamePage q)
    (hUpdates : Updates pools record (some q) after) : c.Sound after := by
  refine ⟨h.geometry, h.tree, h.order, h.leaves, h.freeBytes, ?_, ?_⟩
  · intro leaf other hOther
    obtain ⟨hTaken, p', hFound', hHas⟩ := h.divided leaf other hOther
    refine ⟨hTaken, ?_⟩
    rw [hUpdates other]
    split
    · rename_i hEq
      obtain rfl : p = p' := by simpa [hEq, hFound] using hFound'
      exact ⟨q, rfl, hHas.of_samePage hPage⟩
    · exact ⟨p', hFound', hHas⟩
  · intro other p' hFound' hChunk'
    rw [hUpdates other] at hFound'
    split at hFound'
    · rename_i hEq
      obtain rfl : q = p' := by simpa using hFound'
      rw [hEq, hPage.node]
      exact h.recorded record p hFound hChunk
    · exact h.recorded other p' hFound' hChunk'

/-- What the handles name after the slots of one page changed. -/
theorem Sound.blockAt?_replacePage (h : c.Sound pools) (hFound : subpageAt? pools record = some p)
    (hChunk : p.chunk = c.id) (hPage : p.SamePage q)
    (hUpdates : Updates pools record (some q) after) (handle : Handle) :
    c.blockAt? after handle =
      if handle.node = p.node then handle.slot.bind q.live? else c.blockAt? pools handle := by
  have hAfter := h.replacePage hFound hChunk hPage hUpdates
  split
  · rename_i hNode
    have hHere : subpageAt? after record = some q := by rw [hUpdates record, if_pos rfl]
    exact hAfter.blockAt?_page hHere (hPage.chunk.trans hChunk) (hNode.trans hPage.node.symm)
  · rename_i hNode
    refine blockAt?_congr ⟨rfl, rfl, rfl, rfl⟩ rfl rfl fun other hOther => ?_
    rw [hUpdates other, if_neg]
    rintro rfl
    obtain ⟨-, p', hFound', hHas⟩ := h.divided _ _ hOther
    obtain rfl : p = p' := by simpa [hFound] using hFound'
    exact hNode (by rw [hHas.node, UInt32.ofNat_toNat])

/-- The number of a slot fits the slot of a handle. -/
theorem Sound.slot_toNat (h : c.Sound pools) (hSub : p.Sound c.geometry.pageSize)
    (hSlot : slot < p.maxElems) : (UInt32.ofNat slot).toNat = slot := by
  have hPage := h.geometry.pageSize_le.trans h.geometry.chunkSize_le
  have hElems : p.maxElems ≤ c.geometry.pageSize := by
    rw [hSub.maxElems]
    exact Nat.div_le_self ..
  exact UInt32.toNat_ofNat_of_lt (by rw [UInt32.size]; omega)

/-- What the handles of a page name once a slot of it came in use. -/
theorem bind_live?_occupies (hOccupies : p.Occupies slot q)
    (hSlot : (UInt32.ofNat slot).toNat = slot) (hNode : handle.node = p.node) :
    handle.slot.bind q.live? =
      if handle = Handle.subpage p.node (UInt32.ofNat slot) then some (p.blockAt slot)
      else handle.slot.bind p.live? := by
  obtain ⟨node, number⟩ := handle
  obtain rfl : node = p.node := hNode
  cases number with
  | none => simp [Handle.subpage]
  | some number =>
    simp only [Option.bind_some, hOccupies.live? hSlot, Handle.subpage, Handle.mk.injEq,
      Option.some.injEq, true_and]

/-- A slot handed out by the pools is a block of the chunk that the page belongs to. -/
theorem Sound.grants_of_serves (h : c.Sound pools) (hPools : SubpagePools.Sound c.geometry pools)
    (hServes : Serves c.geometry pools record p block after) (hChunk : p.chunk = c.id) :
    c.Grants pools block c after := by
  obtain ⟨q, slot, hOccupies, rfl, hUpdates⟩ := hServes.slot
  have hSlot := h.slot_toNat (hPools.subpage record p hServes.found).1 hOccupies.lt
  refine ⟨⟨rfl, rfl, rfl, rfl⟩, h.replacePage hServes.found hChunk hOccupies.page hUpdates,
    hServes.sound, hChunk ▸ hServes.beside, Handle.subpage p.node (UInt32.ofNat slot), ?_, ?_, ?_⟩
  · rw [Subpage.blockAt, Block.pooled, hChunk]
  · rw [h.blockAt?_page hServes.found hChunk (show (Handle.subpage ..).node = p.node from rfl)]
    simp [Handle.subpage, Subpage.live?, hSlot, hOccupies.free]
  · intro other
    rw [h.blockAt?_replacePage hServes.found hChunk hOccupies.page hUpdates other]
    by_cases hNode : other.node = p.node
    · rw [if_pos hNode, h.blockAt?_page hServes.found hChunk hNode,
        bind_live?_occupies hOccupies hSlot hNode]
    · have hNe : other ≠ Handle.subpage p.node (UInt32.ofNat slot) :=
        fun hEq => hNode (by rw [hEq]; rfl)
      rw [if_neg hNode, if_neg hNe]

-- ---------------------------------------------------------------------------
-- Nodes of the tree
-- ---------------------------------------------------------------------------

/-- The chunk after one node got another mark, and its leaf another record. -/
structure Remarks (c : Chunk) (node : Nat) (mark : Bool) (value : Option LeafRecord)
    (c' : Chunk) : Prop where
  same : c.SameMemory c'
  tree : c'.tree.Sound
  order : c'.tree.order = c.tree.order
  leaves : c'.leaves.size = c.leaves.size
  freeBytes : c'.freeBytes + c'.takenBytes = c'.size
  isTaken : ∀ m, c'.tree.isTaken m = if m = node then mark else c.tree.isTaken m
  leafRecord? : ∀ m, c'.leafRecord? m = if m = node then value else c.leafRecord? m

/-- The chunk stays sound when the pools agree with the new record and keep all other pages. -/
theorem Remarks.sound {mark : Bool} {value : Option LeafRecord}
    (hRemarks : c.Remarks node mark value c') (h : c.Sound pools)
    (hDivided : ∀ record, value = some record →
      mark = true ∧ ∃ p, subpageAt? after record = some p ∧ c.HasPage node p)
    (hKept : ∀ m record, m ≠ node → c.leafRecord? m = some record →
      subpageAt? after record = subpageAt? pools record)
    (hRecorded : ∀ record p, subpageAt? after record = some p → p.chunk = c.id →
      (p.node.toNat = node ∧ value = some record) ∨
        (p.node.toNat ≠ node ∧ subpageAt? pools record = some p)) : c'.Sound after where
  geometry := hRemarks.same.geometry ▸ h.geometry
  tree := hRemarks.tree
  order := by rw [hRemarks.order, hRemarks.same.geometry, h.order]
  leaves := by rw [hRemarks.leaves, hRemarks.same.geometry, h.leaves]
  freeBytes := hRemarks.freeBytes
  -- the record of the node is the new one, all others are those before
  divided m record hRecord := by
    rw [hRemarks.leafRecord?] at hRecord
    rw [hRemarks.isTaken]
    by_cases hm : m = node
    · rw [if_pos hm] at hRecord ⊢
      obtain ⟨hMark, p, hFound, hPage⟩ := hDivided record hRecord
      exact ⟨hMark, p, hFound, (hm ▸ hPage).of_same hRemarks.same⟩
    · rw [if_neg hm] at hRecord ⊢
      obtain ⟨hTaken, p, hFound, hPage⟩ := h.divided m record hRecord
      exact ⟨hTaken, p, (hKept m record hm hRecord).trans hFound, hPage.of_same hRemarks.same⟩
  recorded record p hFound hChunk := by
    rw [hRemarks.same.id] at hChunk
    rw [hRemarks.leafRecord?]
    rcases hRecorded record p hFound hChunk with ⟨hNode, hValue⟩ | ⟨hNode, hBefore⟩
    · rw [if_pos hNode, hValue]
    · rw [if_neg hNode, h.recorded record p hBefore hChunk]

/-- The handles of other nodes name what they named. -/
theorem Remarks.blockAt?_of_ne {mark : Bool} {value : Option LeafRecord}
    (hRemarks : c.Remarks node mark value c')
    (hKept : ∀ m record, m ≠ node → c.leafRecord? m = some record →
      subpageAt? after record = subpageAt? pools record) (hNode : handle.node.toNat ≠ node) :
    c'.blockAt? after handle = c.blockAt? pools handle := by
  refine blockAt?_congr hRemarks.same ?_ ?_ fun record => hKept _ record hNode
  · rw [hRemarks.leafRecord?, if_neg hNode]
  · rw [hRemarks.isTaken, if_neg hNode]

theorem leafRecord?_eq_of_leaves (hOrder : c'.tree.order = c.tree.order)
    (hLeaves : c'.leaves = c.leaves) (node : Nat) : c'.leafRecord? node = c.leafRecord? node := by
  rw [leafRecord?, leafRecord?, Buddy.numPages, Buddy.numPages, hOrder, hLeaves]

/-- The records after the one of a leaf changed. -/
theorem leafRecord?_setLeaf (hOrder : c'.tree.order = c.tree.order)
    (hSize : c.leaves.size = c.tree.numPages) (hLow : c.tree.numPages ≤ node)
    (hHigh : node < 2 ^ (c.tree.order + 1)) {value : Option LeafRecord}
    (hLeaves : c'.leaves = c.leaves.setIfInBounds (node - c.tree.numPages) value) (other : Nat) :
    c'.leafRecord? other = if other = node then value else c.leafRecord? other := by
  have hPages : c'.tree.numPages = c.tree.numPages := by rw [Buddy.numPages, hOrder, Buddy.numPages]
  have hDouble : 2 ^ (c.tree.order + 1) = 2 * c.tree.numPages := by
    rw [Buddy.numPages_eq, pow_succ, mul_comm]
  rw [leafRecord?, leafRecord?, hPages, hLeaves, Array.getElem?_setIfInBounds]
  by_cases hOther : other = node
  · rw [if_pos hOther, hOther, if_pos hLow, if_pos rfl, if_pos (by omega), Option.join_some]
  · rw [if_neg hOther]
    split
    · rw [if_neg (by omega)]
    · rfl

theorem Sound.leaves_eq_numPages (h : c.Sound pools) : c.leaves.size = c.tree.numPages :=
  h.leaves.trans h.numPages_eq.symm

/-- A node that was taken has room in the count of free bytes. -/
theorem Sound.freeBytes_taken (h : c.Sound pools) (hTakes : c.tree.Takes node tree) :
    c.freeBytes - c.runLength node + ∑ id ∈ tree.taken.members, c.runLength id = c.size := by
  have hCount := h.freeBytes
  have hSum : ∑ id ∈ tree.taken.members, c.runLength id = c.runLength node + c.takenBytes := by
    rw [hTakes.members, Finset.sum_insert hTakes.notMem, takenBytes]
  have hRoom : ∑ id ∈ tree.taken.members, c.runLength id ≤ c.size := by
    simp only [runLength_eq h.geometry]
    rw [size_eq h.geometry]
    exact hTakes.sound.sum_spanLength_le (by rw [hTakes.order]; exact h.order_le_scale)
  omega

/-- The run of a node that can be taken is no longer than what is free. -/
theorem Sound.runLength_le (h : c.Sound pools) (hTakes : c.tree.Takes node tree) :
    c.runLength node ≤ c.freeBytes := by
  have hBefore := h.freeBytes
  have hAfter := h.freeBytes_taken hTakes
  rw [hTakes.members, Finset.sum_insert hTakes.notMem] at hAfter
  rw [takenBytes] at hBefore
  omega

-- ---------------------------------------------------------------------------
-- Runs out of the chunk
-- ---------------------------------------------------------------------------

/-- The chunk after a node was taken for a run. -/
theorem Sound.remarks_take (h : c.Sound pools) (hTakes : c.tree.Takes node tree) :
    c.Remarks node true none { c with tree, freeBytes := c.freeBytes - c.runLength node } := by
  have hLeaves : ∀ m, Chunk.leafRecord?
      { c with tree, freeBytes := c.freeBytes - c.runLength node } m = c.leafRecord? m :=
    leafRecord?_eq_of_leaves hTakes.order rfl
  refine ⟨⟨rfl, rfl, rfl, rfl⟩, hTakes.sound, hTakes.order, rfl, h.freeBytes_taken hTakes,
    hTakes.isTaken, fun m => ?_⟩
  rw [hLeaves]
  by_cases hm : m = node
  · rw [if_pos hm, hm, h.leafRecord?_of_free (hTakes.below node (.refl node))]
  · rw [if_neg hm]

/-- The run of a node that was taken is a block of the chunk. -/
theorem Sound.grants_of_remarks (h : c.Sound pools) (hPools : SubpagePools.Sound c.geometry pools)
    (hRemarks : c.Remarks node true none c') (hFree : c.tree.isTaken node = false) :
    c.Grants pools (c.runBlock (UInt32.ofNat node)) c' pools := by
  have hNone := h.leafRecord?_of_free hFree
  have hAfter := hRemarks.leafRecord? node
  have hNow := hRemarks.isTaken node
  rw [if_pos rfl] at hAfter hNow
  have hNumber : (UInt32.ofNat node).toNat = node :=
    h.toNat_ofNat (hRemarks.order ▸ hRemarks.tree.lt_of_isTaken hNow)
  have hSound : c'.Sound pools := by
    refine hRemarks.sound h (by simp) (fun _ _ _ _ => rfl) fun record p hFound hChunk => ?_
    refine .inr ⟨?_, hFound⟩
    rintro rfl
    rw [h.recorded record p hFound hChunk] at hNone
    exact absurd hNone (by simp)
  refine ⟨hRemarks.same, hSound, hPools, Beside.refl c.id pools, Handle.run (UInt32.ofNat node),
    rfl, ?_, ?_⟩
  · rw [blockAt?_run (by rw [Handle.run, hNumber, hNone])]
    simp [Handle.run, hNumber, hFree]
  · intro other
    -- under the node there is the run, and there was nothing before
    by_cases hOther : other.node.toNat = node
    · rw [blockAt?_run (hOther ▸ hAfter), blockAt?_run (hOther ▸ hNone), hOther, hNow, hFree,
        hRemarks.same.runBlock]
      obtain ⟨node', slot'⟩ := other
      obtain rfl : node' = UInt32.ofNat node := by rw [← hOther, UInt32.ofNat_toNat]
      cases slot' <;> simp [Handle.run]
    · have hNe : other ≠ Handle.run (UInt32.ofNat node) := by
        rintro rfl
        exact hOther hNumber
      rw [if_neg hNe]
      exact hRemarks.blockAt?_of_ne (fun _ _ _ _ => rfl) hOther

theorem Sound.grants_of_allocateRun (h : c.Sound pools)
    (hPools : SubpagePools.Sound c.geometry pools) (hSize : c.geometry.Carved size)
    (hPage : c.geometry.pageSize ≤ size) (hAllocate : c.allocateRun size = some (block, c')) :
    c.Grants pools block c' pools ∧ block.capacity = size := by
  obtain ⟨hDepth, hLength⟩ := hSize.runDepth h.geometry hPage
  obtain ⟨node, tree, hTake, rfl, rfl⟩ := allocateRun_eq_some hAllocate
  obtain ⟨hNode, hTakes⟩ := h.tree.takes_of_take? (h.order ▸ hDepth) hTake
  have hGrants := h.grants_of_remarks hPools (h.remarks_take hTakes)
    (hTakes.below node (.refl node))
  have hNumber : (UInt32.ofNat node).toNat = node :=
    h.toNat_ofNat ((Buddy.depthOf_lt_iff hTakes.pos).mp (by rw [h.order]; omega))
  rw [runBlock, hNumber] at hGrants
  refine ⟨hGrants, ?_⟩
  rw [Block.pooled, runLength_eq h.geometry, Buddy.spanLength, hNode, hLength]

-- ---------------------------------------------------------------------------
-- New subpages
-- ---------------------------------------------------------------------------

/-- The chunk after a leaf was taken and divided. -/
theorem Sound.remarks_divide (h : c.Sound pools) (hTakes : c.tree.Takes node tree)
    (hNode : Buddy.depthOf node = c.geometry.maxOrder) (record : LeafRecord) :
    c.Remarks node true (some record)
      { c with
        tree
        freeBytes := c.freeBytes - c.geometry.pageSize
        leaves := c.leaves.setIfInBounds (node - c.tree.numPages) (some record) } := by
  have hLow : c.tree.numPages ≤ node := by
    rw [h.numPages_eq, ← hNode]
    exact Buddy.two_pow_depthOf_le hTakes.pos
  have hHigh : node < 2 ^ (c.tree.order + 1) := by
    rw [h.order, ← hNode]
    exact Buddy.lt_two_pow_depthOf hTakes.pos
  refine ⟨⟨rfl, rfl, rfl, rfl⟩, hTakes.sound, hTakes.order, Array.size_setIfInBounds, ?_,
    hTakes.isTaken, leafRecord?_setLeaf hTakes.order h.leaves_eq_numPages hLow hHigh rfl⟩
  rw [← h.runLength_of_depth hNode]
  exact h.freeBytes_taken hTakes

/-- A leaf that was taken and divided is a page of the chunk, and its first slot in use a block. -/
theorem Sound.grants_of_divide (h : c.Sound pools)
    (hRemarks : c.Remarks node true (some record) c') (hFree : c.tree.isTaken node = false)
    (hStore : SubpagePools.Sound c.geometry after) (hNone : subpageAt? pools record = none)
    (hPage : c.HasPage node p) (hFresh : ∀ slot, p.isUsed slot = false)
    (hSub : p.Sound c.geometry.pageSize) (hOccupies : p.Occupies slot q)
    (hUpdates : Updates pools record (some q) after) :
    c.Grants pools (p.blockAt slot) c' after := by
  have hNoLeaf := h.leafRecord?_of_free hFree
  have hNow := hRemarks.isTaken node
  rw [if_pos rfl] at hNow
  have hNumber : (UInt32.ofNat node).toNat = node :=
    h.toNat_ofNat (hRemarks.order ▸ hRemarks.tree.lt_of_isTaken hNow)
  have hSlot := h.slot_toNat hSub hOccupies.lt
  have hHere : subpageAt? after record = some q := by rw [hUpdates record, if_pos rfl]
  have hPageNow : c.HasPage node q := hPage.of_samePage hOccupies.page
  -- the other leaves have other records, and these were not touched
  have hKept : ∀ m other, m ≠ node → c.leafRecord? m = some other →
      subpageAt? after other = subpageAt? pools other := by
    intro m other _ hLeaf
    obtain ⟨-, p', hFound, -⟩ := h.divided m other hLeaf
    rw [hUpdates other, if_neg]
    rintro rfl
    rw [hNone] at hFound
    exact absurd hFound (by simp)
  have hSound : c'.Sound after := by
    refine hRemarks.sound h ?_ hKept ?_
    · rintro other hOther
      obtain rfl : record = other := by simpa using hOther
      exact ⟨rfl, q, hHere, hPageNow⟩
    · intro other p' hFound hChunk
      rw [hUpdates other] at hFound
      split at hFound
      · rename_i hEq
        obtain rfl : q = p' := by simpa using hFound
        exact .inl ⟨by rw [hPageNow.node, hNumber], by rw [hEq]⟩
      · refine .inr ⟨?_, hFound⟩
        rintro rfl
        rw [h.recorded other p' hFound hChunk] at hNoLeaf
        exact absurd hNoLeaf (by simp)
  refine ⟨hRemarks.same, hSound, hStore, ?_, Handle.subpage p.node (UInt32.ofNat slot), ?_, ?_, ?_⟩
  · refine hUpdates.beside (fun p' hp' => ?_) (fun q' hq' => ?_)
    · rw [hNone] at hp'
      exact absurd hp' (by simp)
    · obtain rfl : q = q' := by simpa using hq'
      exact hPageNow.chunk
  · rw [Subpage.blockAt, Block.pooled, hPage.chunk]
  · rw [blockAt?_run (by rw [Handle.subpage, hPage.node, hNumber, hNoLeaf]),
      if_neg (by simp [Handle.subpage])]
  · intro other
    by_cases hAt : other.node = p.node
    · have hOther : other.node.toNat = node := by rw [hAt, hPage.node, hNumber]
      -- neither the node nor a slot of the page was a block before
      have hBefore : c.blockAt? pools other = none := by
        rw [blockAt?_run (hOther ▸ hNoLeaf), hOther, hFree, if_neg (by simp)]
      have hBind : other.slot.bind p.live? = none := by
        cases other.slot <;> simp [Subpage.live?, hFresh]
      rw [hSound.blockAt?_page hHere (hPageNow.of_same hRemarks.same).chunk
        (hAt.trans hOccupies.page.node.symm), bind_live?_occupies hOccupies hSlot hAt, hBefore,
        hBind]
    · have hNe : other ≠ Handle.subpage p.node (UInt32.ofNat slot) :=
        fun hEq => hAt (by rw [hEq]; rfl)
      rw [if_neg hNe]
      refine hRemarks.blockAt?_of_ne hKept fun hEq => hAt ?_
      rw [hPage.node, ← hEq, UInt32.ofNat_toNat]

/-- A page is taken from the tree, divided and filed, and its first slot is the block. -/
theorem Sound.grants_of_allocateSubpage (h : c.Sound pools)
    (hPools : SubpagePools.Sound c.geometry pools) (hSize : c.geometry.Carved size)
    (hPage : size < c.geometry.pageSize)
    (hAllocate : c.allocateSubpage pools size = some (block, c', after)) :
    c.Grants pools block c' after ∧ block.capacity = size := by
  obtain ⟨-, hElem⟩ := hSize.pool h.geometry hPage
  obtain ⟨pool, pool', node, tree, hPool, hTake, hServe, rfl, rfl⟩ :=
    allocateSubpage_eq_some hAllocate
  obtain ⟨hNode, hTakes⟩ := h.tree.takes_of_take? (Nat.le_of_eq h.order.symm) hTake
  have hFree : c.tree.isTaken node = false := hTakes.below node (.refl node)
  set p := c.dividedPage node size with hp
  have hFresh : ∀ slot, p.isUsed slot = false := Subpage.isUsed_divide _ _ _ _ _ _
  have hSub : p.Sound c.geometry.pageSize := Subpage.sound_divide _ _ _ _ hSize.pos hPage.le
  -- the page enters its pool under a new key, and serves at once
  obtain ⟨hKey, hNone, hInsert⟩ := SubpagePool.updates_insert (hPools.slab _ pool hPool) p
  rw [hKey] at hServe ⊢
  obtain ⟨p', q, hFound, hSlot, hUpdates⟩ := SubpagePool.takeIn?_eq_some hInsert.slab hServe
  obtain rfl : p = p' := by simpa [hInsert.get?] using hFound
  obtain ⟨hSubAfter, slot, hOccupies, rfl⟩ := hSub.take hSlot
  have hAll := hInsert.trans hUpdates
  refine ⟨h.grants_of_divide (h.remarks_divide hTakes hNode _) hFree
    (hPools.setPool hPool hAll ?_) ?_ ⟨rfl, rfl, rfl, rfl⟩ hFresh hSub
    hOccupies (SubpagePools.updates_setPool hPool hAll), rfl⟩
  · intro q' hq'
    obtain rfl : q = q' := by simpa using hq'
    exact ⟨hSubAfter, hOccupies.page.elemSize.trans hElem.symm⟩
  · rw [SubpagePools.subpageAt?_of_pool hPool, hNone]

/-- A block that comes out of a chunk has the size that was asked for. -/
theorem Sound.grants_of_allocate (h : c.Sound pools)
    (hPools : SubpagePools.Sound c.geometry pools) (hSize : c.geometry.Carved size)
    (hAllocate : c.allocate pools size = some (block, c', after)) :
    c.Grants pools block c' after ∧ block.capacity = size := by
  rcases allocate_cases hAllocate with ⟨hPage, hServed⟩ | ⟨hPage, hRun, rfl⟩
  · exact h.grants_of_allocateSubpage hPools hSize hPage hServed
  · exact h.grants_of_allocateRun hPools hSize hPage hRun

-- ---------------------------------------------------------------------------
-- Room for a size
-- ---------------------------------------------------------------------------

/-- A run comes out whenever the root promises one of its depth. -/
theorem Sound.exists_allocateRun (h : c.Sound pools) (hSize : c.geometry.Carved size)
    (hPage : c.geometry.pageSize ≤ size) (hRoom : c.tree.roomAt 1 ≤ c.geometry.runDepth size) :
    ∃ block c', c.allocateRun size = some (block, c') := by
  obtain ⟨hDepth, -⟩ := hSize.runDepth h.geometry hPage
  obtain ⟨node, tree, hTake, -⟩ := h.tree.exists_take (h.order ▸ hDepth) hRoom
  rw [allocateRun, hTake]
  exact ⟨_, _, rfl⟩

/-- A page can be divided whenever the root promises one: the size has a pool, and the new subpage
has a slot to give. -/
theorem Sound.exists_allocateSubpage (h : c.Sound pools)
    (hPools : SubpagePools.Sound c.geometry pools) (hSize : c.geometry.Carved size)
    (hPage : size < c.geometry.pageSize) (hRoom : c.tree.roomAt 1 ≤ c.geometry.maxOrder) :
    ∃ block c' after, c.allocateSubpage pools size = some (block, c', after) := by
  obtain ⟨hIndex, -⟩ := hSize.pool h.geometry hPage
  obtain ⟨pool, hPool⟩ : ∃ pool, pools[Geometry.poolIndex size]? = some pool :=
    ⟨_, Array.getElem?_eq_getElem (hPools.size ▸ hIndex)⟩
  obtain ⟨node, tree, hTake, -⟩ := h.tree.exists_take (Nat.le_of_eq h.order.symm) hRoom
  obtain ⟨hKey, -, hInsert⟩ :=
    SubpagePool.updates_insert (hPools.slab _ pool hPool) (c.dividedPage node size)
  have hFound : (pool.insert (c.dividedPage node size)).2.get?
      (pool.insert (c.dividedPage node size)).1 = some (c.dividedPage node size) := by
    rw [hInsert.get?, if_pos hKey]
  obtain ⟨first, q, hSlot⟩ := Subpage.exists_take_divide c.id (UInt32.ofNat node)
    (c.runOffset node) c.region hSize.pos hPage.le
  obtain ⟨pool', hServe⟩ := SubpagePool.exists_takeIn? hFound hSlot
  rw [allocateSubpage, hPool, Option.bind_eq_bind, Option.bind_some, hTake]
  simp only [Option.bind_eq_bind, Option.bind_some]
  rw [show Subpage.divide c.id (UInt32.ofNat node) (c.runOffset node) c.geometry.pageSize size
    c.region = c.dividedPage node size from rfl, hServe]
  exact ⟨_, _, _, rfl⟩

/-- A chunk with nothing taken serves every size. -/
theorem Sound.exists_allocate_of_free (h : c.Sound pools)
    (hPools : SubpagePools.Sound c.geometry pools) (hSize : c.geometry.Carved size)
    (hRoom : c.tree.roomAt 1 = 0) : ∃ block c' after, c.allocate pools size =
      some (block, c', after) := by
  unfold allocate
  split
  · rename_i hShared
    have hPage : size < c.geometry.pageSize := by simpa [Geometry.isTinyOrSmall] using hShared
    exact h.exists_allocateSubpage hPools hSize hPage (hRoom ▸ Nat.zero_le _)
  · rename_i hShared
    have hPage : c.geometry.pageSize ≤ size := by simpa [Geometry.isTinyOrSmall] using hShared
    obtain ⟨block, c', hRun⟩ := h.exists_allocateRun hSize hPage (hRoom ▸ Nat.zero_le _)
    rw [hRun]
    exact ⟨block, c', pools, rfl⟩

-- ---------------------------------------------------------------------------
-- The count of free bytes
-- ---------------------------------------------------------------------------

/-- Allocating takes whole pages off the count of free bytes, and never more than it says. -/
theorem Sound.freeBytes_of_allocate (h : c.Sound pools) (hSize : c.geometry.Carved size)
    (hAllocate : c.allocate pools size = some (block, c', after)) :
    c'.freeBytes + max size c.geometry.pageSize = c.freeBytes := by
  rcases allocate_cases hAllocate with ⟨hPage, hServed⟩ | ⟨hPage, hRun, -⟩
  · obtain ⟨pool, pool', node, tree, -, hTake, -, rfl, -⟩ := allocateSubpage_eq_some hServed
    obtain ⟨hNode, hTakes⟩ := h.tree.takes_of_take? (Nat.le_of_eq h.order.symm) hTake
    have hRoom := h.runLength_le hTakes
    rw [h.runLength_of_depth hNode] at hRoom
    rw [max_eq_right hPage.le]
    exact Nat.sub_add_cancel hRoom
  · obtain ⟨hDepth, hLength⟩ := hSize.runDepth h.geometry hPage
    obtain ⟨node, tree, hTake, -, rfl⟩ := allocateRun_eq_some hRun
    obtain ⟨hNode, hTakes⟩ := h.tree.takes_of_take? (h.order ▸ hDepth) hTake
    have hRoom := h.runLength_le hTakes
    have hLengthRun : c.runLength node = size := by
      rw [runLength_eq h.geometry, Buddy.spanLength, hNode, hLength]
    rw [hLengthRun] at hRoom
    rw [max_eq_left hPage]
    dsimp only
    rw [hLengthRun]
    exact Nat.sub_add_cancel hRoom

end BlockPool.Chunk
