import BlockPool.Proofs.Chunk.Grant

/-!
# BlockPool — blocks back into a chunk

What giving back does, said in live blocks: the handle loses its block, and every other handle
keeps what it names. A chunk accepts a handle exactly while it names a block, so a handle that
was never handed out, or was given back before, changes nothing.

* `Chunk.Regains` — a block went back.
* `Chunk.Sound.regains_of_free` — what an accepted handle does.
* `Chunk.Sound.exists_free` — a handle that names a block is accepted.
-/

namespace BlockPool.Chunk

open SubpagePools (subpageAt? Beside Updates)

variable {c c' : Chunk} {pools after : SubpagePools} {record : LeafRecord} {p q : Subpage}
  {node : Nat} {handle : Handle} {block : Block} {tree : Buddy}

/-- A chunk and its pools after a block went back. -/
structure Regains (c : Chunk) (pools : SubpagePools) (handle : Handle) (c' : Chunk)
    (after : SubpagePools) : Prop where
  same : c.SameMemory c'
  sound : c'.Sound after
  store : SubpagePools.Sound c.geometry after
  beside : Beside c.id pools after
  live : (c.blockAt? pools handle).isSome = true
  blocks : ∀ other, c'.blockAt? after other =
    if other = handle then none else c.blockAt? pools other

-- ---------------------------------------------------------------------------
-- Nodes back into the tree
-- ---------------------------------------------------------------------------

/-- A node that is given back has room in the count of free bytes. -/
theorem Sound.freeBytes_given (h : c.Sound pools) (hTaken : c.tree.isTaken node = true)
    (hGives : c.tree.Gives node tree) :
    c.freeBytes + c.runLength node + ∑ id ∈ tree.taken.members, c.runLength id = c.size := by
  have hCount := h.freeBytes
  have hSum := Finset.add_sum_erase c.tree.taken.members c.runLength (Buddy.mem_taken.mpr hTaken)
  rw [takenBytes] at hCount
  rw [hGives.members]
  omega

/-- Giving a node back succeeds exactly for a taken node. -/
theorem freeNode_eq_ok (hFree : c.freeNode handle = .ok c') (h : c.tree.Sound) :
    c.tree.isTaken handle.node.toNat = true ∧ ∃ tree, c.tree.Gives handle.node.toNat tree ∧
      c' = { c with tree, freeBytes := c.freeBytes + c.runLength handle.node.toNat } := by
  obtain ⟨tree, hGive, rfl⟩ := freeNode_cases hFree
  obtain ⟨hTaken, hGives⟩ := h.gives_of_give hGive
  exact ⟨hTaken, tree, hGives, rfl⟩

theorem exists_freeNode (h : c.tree.Sound) (hTaken : c.tree.isTaken handle.node.toNat = true) :
    ∃ c', c.freeNode handle = .ok c' := by
  obtain ⟨tree, hGive, -⟩ := h.exists_give hTaken
  exact ⟨_, by simp only [freeNode, hGive]; rfl⟩

/-- The chunk after a run went back. -/
theorem Sound.remarks_give (h : c.Sound pools) (hTaken : c.tree.isTaken node = true)
    (hGives : c.tree.Gives node tree) (hNone : c.leafRecord? node = none) :
    c.Remarks node false none { c with tree, freeBytes := c.freeBytes + c.runLength node } := by
  have hLeaves : ∀ m, Chunk.leafRecord?
      { c with tree, freeBytes := c.freeBytes + c.runLength node } m = c.leafRecord? m :=
    leafRecord?_eq_of_leaves hGives.order rfl
  refine ⟨⟨rfl, rfl, rfl, rfl⟩, hGives.sound, hGives.order, rfl, h.freeBytes_given hTaken hGives,
    hGives.isTaken, fun m => ?_⟩
  rw [hLeaves]
  by_cases hm : m = node
  · rw [if_pos hm, hm, hNone]
  · rw [if_neg hm]

/-- The chunk after a page went back. -/
theorem Sound.remarks_giveLeaf (h : c.Sound pools) (hTaken : c.tree.isTaken node = true)
    (hGives : c.tree.Gives node tree) (hRecord : c.leafRecord? node = some record) :
    c.Remarks node false none
      { c with
        tree
        freeBytes := c.freeBytes + c.runLength node
        leaves := c.leaves.setIfInBounds (node - c.tree.numPages) none } := by
  exact ⟨⟨rfl, rfl, rfl, rfl⟩, hGives.sound, hGives.order, Array.size_setIfInBounds,
    h.freeBytes_given hTaken hGives, hGives.isTaken,
    leafRecord?_setLeaf hGives.order h.leaves_eq_numPages (numPages_le_of_leafRecord? hRecord)
      (h.tree.lt_of_isTaken hTaken) rfl⟩

/-- A node that is free and not recorded names no blocks. -/
theorem blockAt?_eq_none (hNone : c.leafRecord? handle.node.toNat = none)
    (hFree : c.tree.isTaken handle.node.toNat = false) : c.blockAt? pools handle = none := by
  rw [blockAt?_run hNone, hFree, if_neg (by simp)]

-- ---------------------------------------------------------------------------
-- Runs
-- ---------------------------------------------------------------------------

/-- A run that is given back is no block any more. -/
theorem Sound.regains_run (h : c.Sound pools) (hPools : SubpagePools.Sound c.geometry pools)
    (hSlot : handle.slot = none) (hNone : c.leafRecord? handle.node.toNat = none)
    (hTaken : c.tree.isTaken handle.node.toNat = true)
    (hRemarks : c.Remarks handle.node.toNat false none c') : c.Regains pools handle c' pools := by
  have hAfter := hRemarks.leafRecord? handle.node.toNat
  have hNow := hRemarks.isTaken handle.node.toNat
  rw [if_pos rfl] at hAfter hNow
  -- no page of the pools is recorded at the node
  have hSound : c'.Sound pools := by
    refine hRemarks.sound h (by simp) (fun _ _ _ _ => rfl) fun record p hFound hChunk => ?_
    refine .inr ⟨?_, hFound⟩
    intro hEq
    rw [← hEq, h.recorded record p hFound hChunk] at hNone
    exact absurd hNone (by simp)
  refine ⟨hRemarks.same, hSound, hPools, Beside.refl c.id pools, ?_, fun other => ?_⟩
  · rw [blockAt?_run hNone, if_pos ⟨hSlot, hTaken⟩]
    rfl
  · by_cases hNode : other.node = handle.node
    · rw [blockAt?_eq_none (hNode ▸ hAfter) (hNode ▸ hNow)]
      split
      · rfl
      · rename_i hNe
        rw [blockAt?_run (hNode ▸ hNone), if_neg]
        rintro ⟨hOther, -⟩
        cases other
        cases handle
        simp_all
    · have hNe : other ≠ handle := fun hEq => hNode (by rw [hEq])
      rw [if_neg hNe]
      exact hRemarks.blockAt?_of_ne (fun _ _ _ _ => rfl) fun hEq =>
        hNode (UInt32.toNat_inj.mp hEq)

-- ---------------------------------------------------------------------------
-- Slots
-- ---------------------------------------------------------------------------

/-- What the handles of a page name once a slot of it came back. -/
theorem bind_live?_vacates {slot : UInt32} (hVacates : p.Vacates slot.toNat q)
    (hSlot : handle.slot = some slot) {other : Handle} (hNode : other.node = handle.node) :
    other.slot.bind q.live? = if other = handle then none else other.slot.bind p.live? := by
  obtain ⟨node, number⟩ := other
  obtain ⟨node', number'⟩ := handle
  obtain rfl : node = node' := hNode
  obtain rfl : number' = some slot := hSlot
  cases number with
  | none => simp
  | some number => simp only [Option.bind_some, hVacates.live?, Handle.mk.injEq, Option.some.injEq,
      true_and]

/-- A slot that is given back is no block any more, and its page stays with its subpage. -/
theorem Sound.regains_slot (h : c.Sound pools) {slot : UInt32} (hSlot : handle.slot = some slot)
    (hFound : subpageAt? pools record = some p) (hChunk : p.chunk = c.id)
    (hNode : p.node = handle.node) (hUsed : p.isUsed slot.toNat = true)
    (hVacates : p.Vacates slot.toNat q) (hStore : SubpagePools.Sound c.geometry after)
    (hUpdates : Updates pools record (some q) after) : c.Regains pools handle c after := by
  refine ⟨⟨rfl, rfl, rfl, rfl⟩, h.replacePage hFound hChunk hVacates.page hUpdates, hStore, ?_,
    ?_, fun other => ?_⟩
  · refine hUpdates.beside (fun p' hp' => ?_) (fun q' hq' => ?_)
    · obtain rfl : p = p' := by simpa [hFound] using hp'
      exact hChunk
    · obtain rfl : q = q' := by simpa using hq'
      exact hVacates.page.chunk.trans hChunk
  · rw [h.blockAt?_page hFound hChunk hNode.symm, hSlot, Option.bind_some, Subpage.live?,
      if_pos hUsed]
    rfl
  · rw [h.blockAt?_replacePage hFound hChunk hVacates.page hUpdates other]
    by_cases hAt : other.node = p.node
    · rw [if_pos hAt, h.blockAt?_page hFound hChunk hAt,
        bind_live?_vacates hVacates hSlot (hAt.trans hNode)]
    · have hNe : other ≠ handle := fun hEq => hAt (by rw [hEq, hNode])
      rw [if_neg hAt, if_neg hNe]

/-- The last slot of a page is given back, and the page with it. -/
theorem Sound.regains_page (h : c.Sound pools) {slot : UInt32} (hSlot : handle.slot = some slot)
    (hFound : subpageAt? pools record = some p) (hChunk : p.chunk = c.id)
    (hNode : p.node = handle.node) (hUsed : p.isUsed slot.toNat = true)
    (hVacates : p.Vacates slot.toNat q) (hEmpty : ∀ slot, q.isUsed slot = false)
    (hStore : SubpagePools.Sound c.geometry after) (hUpdates : Updates pools record none after)
    (hRemarks : c.Remarks handle.node.toNat false none c') : c.Regains pools handle c' after := by
  have hRecord := h.recorded record p hFound hChunk
  rw [hNode] at hRecord
  have hAfter := hRemarks.leafRecord? handle.node.toNat
  have hNow := hRemarks.isTaken handle.node.toNat
  rw [if_pos rfl] at hAfter hNow
  -- a record that is kept is not the one that goes
  have hKept : ∀ m other, m ≠ handle.node.toNat → c.leafRecord? m = some other →
      subpageAt? after other = subpageAt? pools other := by
    intro m other hm hLeaf
    rw [hUpdates other, if_neg]
    rintro rfl
    obtain ⟨-, p', hFound', hPage⟩ := h.divided m other hLeaf
    obtain rfl : p = p' := by simpa [hFound] using hFound'
    have hLt := h.tree.lt_of_isTaken (h.divided m other hLeaf).1
    exact hm (by rw [← hNode, hPage.node, h.toNat_ofNat hLt])
  have hSound : c'.Sound after := by
    refine hRemarks.sound h (by simp) hKept fun other p' hFound' hChunk' => ?_
    rw [hUpdates other] at hFound'
    split at hFound'
    · exact absurd hFound' (by simp)
    · rename_i hOther
      refine .inr ⟨?_, hFound'⟩
      intro hEq
      have hLeaf := h.recorded other p' hFound' hChunk'
      rw [hEq, hRecord] at hLeaf
      exact hOther (Option.some.inj hLeaf).symm
  refine ⟨hRemarks.same, hSound, hStore, ?_, ?_, fun other => ?_⟩
  · refine hUpdates.beside (fun p' hp' => ?_) (by simp)
    obtain rfl : p = p' := by simpa [hFound] using hp'
    exact hChunk
  · rw [h.blockAt?_page hFound hChunk hNode.symm, hSlot, Option.bind_some, Subpage.live?,
      if_pos hUsed]
    rfl
  · by_cases hAt : other.node = handle.node
    -- of the page no other slot was in use
    · have hBind : other.slot.bind q.live? = none := by
        cases other.slot <;> simp [Subpage.live?, hEmpty]
      rw [blockAt?_eq_none (hAt ▸ hAfter) (hAt ▸ hNow),
        h.blockAt?_page hFound hChunk (hAt.trans hNode.symm),
        ← bind_live?_vacates hVacates hSlot hAt,
        hBind]
    · have hNe : other ≠ handle := fun hEq => hAt (by rw [hEq])
      rw [if_neg hNe]
      exact hRemarks.blockAt?_of_ne hKept fun hEq => hAt (UInt32.toNat_inj.mp hEq)

/-- What giving a slot back does. -/
theorem Sound.regains_of_freeSlot (h : c.Sound pools)
    (hPools : SubpagePools.Sound c.geometry pools)
    (hRecord : c.leafRecord? handle.node.toNat = some record)
    (hFree : c.freeSlot pools handle record = .ok (c', after)) :
    c.Regains pools handle c' after := by
  obtain ⟨hTaken, p, hFound, hPage⟩ := h.divided _ _ hRecord
  obtain ⟨pool, stays, pool', hPool, hGive, rfl, hFate⟩ := freeSlot_cases hFree
  obtain ⟨slot, p', q, hSlot, hFound', hNode, hSlotGive, hChange⟩ :=
    SubpagePool.give_eq_ok (hPools.slab _ pool hPool) hGive
  rw [← SubpagePools.subpageAt?_of_pool hPool] at hFound'
  obtain rfl : p = p' := by simpa [hFound] using hFound'
  obtain ⟨hSub, hElem⟩ := hPools.subpage record p hFound
  obtain ⟨hSubAfter, hUsed, hVacates⟩ := hSub.give hSlotGive
  rcases hChange with ⟨rfl, hUpdates⟩ | ⟨rfl, hEmpty, hUpdates⟩
  · obtain rfl : c' = c := by simpa using hFate
    refine h.regains_slot hSlot hFound hPage.chunk hNode hUsed hVacates
      (hPools.setPool hPool hUpdates ?_) (SubpagePools.updates_setPool hPool hUpdates)
    intro q' hq'
    obtain rfl : q = q' := by simpa using hq'
    exact ⟨hSubAfter, hVacates.page.elemSize.trans hElem⟩
  · obtain ⟨-, hNodeFree⟩ := hFate.resolve_left (by simp)
    obtain ⟨-, tree, hGives, rfl⟩ := freeNode_eq_ok hNodeFree h.tree
    exact h.regains_page hSlot hFound hPage.chunk hNode hUsed hVacates
      (hSubAfter.isEmpty_iff.mp hEmpty) (hPools.setPool hPool hUpdates (by simp))
      (SubpagePools.updates_setPool hPool hUpdates)
      (h.remarks_giveLeaf hTaken hGives hRecord)

-- ---------------------------------------------------------------------------
-- Giving a block back
-- ---------------------------------------------------------------------------

/-- What giving back does where it is accepted. -/
theorem Sound.regains_of_free (h : c.Sound pools) (hPools : SubpagePools.Sound c.geometry pools)
    (hFree : c.free pools handle = .ok (c', after)) : c.Regains pools handle c' after := by
  rcases free_cases hFree with ⟨record, -, hRecord, hSlotFree⟩ | ⟨hRun, hNone, hNodeFree, rfl⟩
  · exact h.regains_of_freeSlot hPools hRecord hSlotFree
  · obtain ⟨hTaken, tree, hGives, rfl⟩ := freeNode_eq_ok hNodeFree h.tree
    have hSlot : handle.slot = none := by simpa [Handle.isSubpage] using hRun
    exact h.regains_run hPools hSlot hNone hTaken (h.remarks_give hTaken hGives hNone)

/-- A handle that names a block is accepted. -/
theorem Sound.exists_free (h : c.Sound pools) (hPools : SubpagePools.Sound c.geometry pools)
    (hBlock : c.blockAt? pools handle = some block) :
    ∃ c' after, c.free pools handle = .ok (c', after) := by
  have hTaken := (h.inside hPools hBlock).taken
  have hPos := h.tree.pos_of_isTaken hTaken
  have hLt := h.tree.lt_of_isTaken hTaken
  unfold free
  rw [if_neg (by rw [Buddy.numNodes, h.tree.size]; omega)]
  rcases blockAt?_cases hBlock with
    ⟨hNone, hSlot, -, -⟩ | ⟨slot, record, p, hSlot, hRecord, hFound, hUsed, -⟩
  · obtain ⟨c', hFree⟩ := exists_freeNode h.tree hTaken
    simp only [Handle.isSubpage, hSlot, Option.isSome_none, hNone, hFree]
    exact ⟨_, _, rfl⟩
  · obtain ⟨-, p', hFound', hPage⟩ := h.divided _ _ hRecord
    obtain rfl : p = p' := by simpa [hFound] using hFound'
    obtain ⟨pool, hPool, hGet⟩ := Option.bind_eq_some_iff.mp hFound
    obtain ⟨q, hGive⟩ := Subpage.exists_give hUsed
    obtain ⟨stays, pool', hPoolGive⟩ := SubpagePool.exists_give hSlot hGet
      (by rw [hPage.node, UInt32.ofNat_toNat]) hGive
    obtain ⟨tree, hTree, -⟩ := h.tree.exists_give hTaken
    simp only [Handle.isSubpage, hSlot, Option.isSome_some, hRecord, freeSlot, hPool, hPoolGive,
      freeNode, hTree]
    split
    · exact ⟨_, _, rfl⟩
    · exact ⟨_, _, rfl⟩

end BlockPool.Chunk
