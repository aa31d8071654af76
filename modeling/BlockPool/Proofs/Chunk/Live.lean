import BlockPool.Proofs.Chunk.Buddy
import BlockPool.Proofs.Chunk.Pools

/-!
# BlockPool — the live blocks of a chunk

What a chunk has handed out can be read off its state: the runs of the taken nodes that are not
divided, and the slots in use of those that are. Allocating and giving back are described by what
they do to this one partial map from handles to blocks.

* `Chunk.blockAt?` — the block a handle names, while it is handed out.
* `Chunk.Sound` — the tree, the leaf records, the subpages and the count of free bytes agree.
* `Chunk.Sound.apart` — blocks under different handles do not overlap.
-/

namespace BlockPool

/-- Two blocks of one memory do not overlap. -/
def Block.Apart (b c : Block) : Prop :=
  b.offset + b.capacity ≤ c.offset ∨ c.offset + c.capacity ≤ b.offset

theorem Block.Apart.symm {b c : Block} (h : b.Apart c) : c.Apart b := Or.symm h

namespace Chunk

open SubpagePools (subpageAt? Beside Updates Serves)

variable {c c' other : Chunk} {pools after : SubpagePools} {record : LeafRecord} {p q : Subpage}
  {node : Nat} {handle handle' : Handle} {block block' : Block}

-- ---------------------------------------------------------------------------
-- Live blocks
-- ---------------------------------------------------------------------------

/-- The block of a run. -/
def runBlock (c : Chunk) (node : UInt32) : Block :=
  Block.pooled c.region (c.runOffset node.toNat) (c.runLength node.toNat) c.id (Handle.run node)

/-- The block that a handle names, while it is handed out. -/
def blockAt? (c : Chunk) (pools : SubpagePools) (handle : Handle) : Option Block :=
  match handle.slot, c.leafRecord? handle.node.toNat with
  | none, none => if c.tree.isTaken handle.node.toNat then some (c.runBlock handle.node) else none
  | some slot, some record => (subpageAt? pools record).bind (·.live? slot)
  | _, _ => none

/-- The bytes of the taken nodes. -/
def takenBytes (c : Chunk) : Nat := ∑ node ∈ c.tree.taken.members, c.runLength node

/-- The subpage is the page of a node of the chunk. -/
structure HasPage (c : Chunk) (leaf : Nat) (p : Subpage) : Prop where
  chunk : p.chunk = c.id
  node : p.node = UInt32.ofNat leaf
  runOffset : p.runOffset = c.runOffset leaf
  region : p.region = c.region

/-- What every reachable chunk satisfies together with the pools beside it. -/
structure Sound (c : Chunk) (pools : SubpagePools) : Prop where
  geometry : c.geometry.WellFormed
  tree : c.tree.Sound
  order : c.tree.order = c.geometry.maxOrder
  leaves : c.leaves.size = 2 ^ c.geometry.maxOrder
  freeBytes : c.freeBytes + c.takenBytes = c.size
  /-- A recorded leaf is taken, and the record leads to the subpage of its page. -/
  divided : ∀ node record, c.leafRecord? node = some record →
    c.tree.isTaken node = true ∧ ∃ p, subpageAt? pools record = some p ∧ c.HasPage node p
  /-- A subpage of the chunk is recorded at its leaf. -/
  recorded : ∀ record p, subpageAt? pools record = some p → p.chunk = c.id →
    c.leafRecord? p.node.toNat = some record

/-- The same memory under the same identity, perhaps in another state. -/
structure SameMemory (c c' : Chunk) : Prop where
  id : c'.id = c.id
  band : c'.band = c.band
  geometry : c'.geometry = c.geometry
  region : c'.region = c.region

theorem SameMemory.trans {c'' : Chunk} (h : c.SameMemory c') (h' : c'.SameMemory c'') :
    c.SameMemory c'' :=
  ⟨h'.id.trans h.id, h'.band.trans h.band, h'.geometry.trans h.geometry, h'.region.trans h.region⟩

theorem SameMemory.runLength (h : c.SameMemory c') (node : Nat) :
    c'.runLength node = c.runLength node := by
  rw [Chunk.runLength, Chunk.runLength, size, size, h.geometry]

theorem SameMemory.runOffset (h : c.SameMemory c') (node : Nat) :
    c'.runOffset node = c.runOffset node := by
  rw [Chunk.runOffset, Chunk.runOffset, h.runLength]

theorem SameMemory.runBlock (h : c.SameMemory c') (node : UInt32) :
    c'.runBlock node = c.runBlock node := by
  rw [Chunk.runBlock, Chunk.runBlock, h.runLength, h.runOffset, h.region, h.id]

theorem HasPage.of_same (h : c.HasPage node p) (hSame : c.SameMemory c') : c'.HasPage node p :=
  ⟨h.chunk.trans hSame.id.symm, h.node, h.runOffset.trans (hSame.runOffset node).symm,
    h.region.trans hSame.region.symm⟩

theorem HasPage.of_samePage (h : c.HasPage node p) (hPage : p.SamePage q) : c.HasPage node q :=
  ⟨hPage.chunk.trans h.chunk, hPage.node.trans h.node, hPage.runOffset.trans h.runOffset,
    hPage.region.trans h.region⟩

-- ---------------------------------------------------------------------------
-- Where things lie
-- ---------------------------------------------------------------------------

theorem runLength_eq (hg : c.geometry.WellFormed) (node : Nat) :
    c.runLength node = Buddy.spanLength c.geometry.scale node := by
  rw [runLength, size, hg.chunkSize_eq, Nat.log2_two_pow, Nat.one_shiftLeft, Buddy.spanLength]

theorem runOffset_eq (hg : c.geometry.WellFormed) (node : Nat) :
    c.runOffset node = Buddy.spanStart c.geometry.scale node := by
  rw [runOffset, runLength_eq hg, Nat.one_shiftLeft, Buddy.spanStart]

theorem size_eq (hg : c.geometry.WellFormed) : c.size = 2 ^ c.geometry.scale := hg.chunkSize_eq

theorem Sound.order_le_scale (h : c.Sound pools) : c.tree.order ≤ c.geometry.scale := by
  rw [h.order, Geometry.scale]
  omega

theorem Sound.numPages_eq (h : c.Sound pools) : c.tree.numPages = 2 ^ c.geometry.maxOrder := by
  rw [Buddy.numPages_eq, h.order]

/-- The runs of two taken nodes do not overlap. -/
theorem Sound.runs_apart (h : c.Sound pools) {a b : Nat} (ha : c.tree.isTaken a = true)
    (hb : c.tree.isTaken b = true) (hNe : a ≠ b) :
    c.runOffset a + c.runLength a ≤ c.runOffset b ∨
      c.runOffset b + c.runLength b ≤ c.runOffset a := by
  simp only [runLength_eq h.geometry, runOffset_eq h.geometry]
  exact h.tree.spans_apart h.order_le_scale ha hb hNe

theorem Sound.run_le (h : c.Sound pools) (hTaken : c.tree.isTaken node = true) :
    c.runOffset node + c.runLength node ≤ c.size := by
  rw [runLength_eq h.geometry, runOffset_eq h.geometry, size_eq h.geometry]
  exact h.tree.span_le h.order_le_scale hTaken

/-- The number of a node of the tree fits the node of a handle. -/
theorem Sound.toNat_ofNat (h : c.Sound pools) (hLt : node < 2 ^ (c.tree.order + 1)) :
    (UInt32.ofNat node).toNat = node := by
  have hOrder := h.geometry.order
  have hPow : 2 ^ (c.tree.order + 1) ≤ 2 ^ 15 := by
    rw [h.order]
    exact Nat.pow_le_pow_right (by decide) (by omega)
  exact UInt32.toNat_ofNat_of_lt (by rw [UInt32.size]; omega)

/-- The run of a node as deep as the pages is one page. -/
theorem Sound.runLength_of_depth (h : c.Sound pools)
    (hNode : Buddy.depthOf node = c.geometry.maxOrder) :
    c.runLength node = c.geometry.pageSize := by
  rw [runLength_eq h.geometry, Buddy.spanLength, hNode, Geometry.scale, Nat.add_sub_cancel,
    h.geometry.pageSize_eq]

theorem Sound.runLength_of_leaf (h : c.Sound pools) (hTaken : c.tree.isTaken node = true)
    (hLeaf : c.tree.numPages ≤ node) : c.runLength node = c.geometry.pageSize := by
  have hLt := h.tree.lt_of_isTaken hTaken
  rw [Buddy.numPages_eq] at hLeaf
  refine h.runLength_of_depth ?_
  rw [← h.order]
  exact (Buddy.depthOf_eq_iff (h.tree.pos_of_isTaken hTaken)).mpr ⟨hLeaf, hLt⟩

theorem numPages_le_of_leafRecord? (h : c.leafRecord? node = some record) :
    c.tree.numPages ≤ node := by
  by_contra hNot
  rw [leafRecord?, if_neg (by omega)] at h
  exact absurd h (by simp)

/-- A node that is not taken has no record. -/
theorem Sound.leafRecord?_of_free (h : c.Sound pools) (hFree : c.tree.isTaken node = false) :
    c.leafRecord? node = none := by
  cases hRecord : c.leafRecord? node with
  | none => rfl
  | some record =>
    rw [(h.divided node record hRecord).1] at hFree
    exact absurd hFree (by simp)

-- ---------------------------------------------------------------------------
-- What a live block is
-- ---------------------------------------------------------------------------

theorem blockAt?_run (h : c.leafRecord? handle.node.toNat = none) :
    c.blockAt? pools handle =
      if handle.slot = none ∧ c.tree.isTaken handle.node.toNat = true
      then some (c.runBlock handle.node) else none := by
  unfold blockAt?
  rw [h]
  cases handle.slot <;> simp

theorem blockAt?_slot (h : c.leafRecord? handle.node.toNat = some record) :
    c.blockAt? pools handle =
      handle.slot.bind fun slot => (subpageAt? pools record).bind (·.live? slot) := by
  unfold blockAt?
  rw [h]
  cases handle.slot <;> rfl

/-- A live block is the run of an undivided node, or a slot in use of a divided one. -/
theorem blockAt?_cases (h : c.blockAt? pools handle = some block) :
    (c.leafRecord? handle.node.toNat = none ∧ handle.slot = none ∧
        c.tree.isTaken handle.node.toNat = true ∧ block = c.runBlock handle.node) ∨
      ∃ slot record p, handle.slot = some slot ∧
        c.leafRecord? handle.node.toNat = some record ∧ subpageAt? pools record = some p ∧
        p.isUsed slot.toNat = true ∧ block = p.blockAt slot.toNat := by
  cases hRecord : c.leafRecord? handle.node.toNat with
  | none =>
    rw [blockAt?_run hRecord] at h
    split at h
    · rename_i hRun
      exact .inl ⟨rfl, hRun.1, hRun.2, (Option.some.inj h).symm⟩
    · exact absurd h (by simp)
  | some record =>
    rw [blockAt?_slot hRecord, Option.bind_eq_some_iff] at h
    obtain ⟨slot, hSlot, hBlock⟩ := h
    obtain ⟨p, hFound, hLive⟩ := Option.bind_eq_some_iff.mp hBlock
    obtain ⟨hUsed, hBlock⟩ := Subpage.live?_eq_some hLive
    exact .inr ⟨slot, record, p, hSlot, rfl, hFound, hUsed, hBlock⟩

/-- A live block lies inside the run of its node and is not empty. -/
structure Inside (c : Chunk) (handle : Handle) (block : Block) : Prop where
  taken : c.tree.isTaken handle.node.toNat = true
  start : c.runOffset handle.node.toNat ≤ block.offset
  stop : block.offset + block.capacity ≤
    c.runOffset handle.node.toNat + c.runLength handle.node.toNat
  pos : 0 < block.capacity
  region : block.region = c.region
  origin : block.origin = .pooled c.id handle

/-- A live block lies within the run of its node, and is named by the chunk and the handle. -/
theorem Sound.inside (h : c.Sound pools) (hPools : SubpagePools.Sound c.geometry pools)
    (hBlock : c.blockAt? pools handle = some block) : c.Inside handle block := by
  rcases blockAt?_cases hBlock with
    ⟨-, hSlot, hTaken, rfl⟩ | ⟨slot, record, p, hSlot, hRecord, hFound, hUsed, rfl⟩
  · refine ⟨hTaken, Nat.le_refl _, Nat.le_refl _, ?_, rfl, ?_⟩
    · rw [runBlock, Block.pooled, runLength_eq h.geometry]
      exact Buddy.spanLength_pos ..
    · cases handle
      simp_all [runBlock, Block.pooled, Handle.run]
  · obtain ⟨hTaken, p', hFound', hPage⟩ := h.divided _ _ hRecord
    obtain rfl : p = p' := by simpa [hFound] using hFound'
    obtain ⟨hSub, -⟩ := hPools.subpage record p hFound
    have hEnd := hSub.slot_end_le (hSub.slot_lt hUsed)
    have hLength := h.runLength_of_leaf hTaken (numPages_le_of_leafRecord? hRecord)
    refine ⟨hTaken, ?_, ?_, hSub.elemSize, hPage.region, ?_⟩
    · simp only [Subpage.blockAt, Block.pooled, hPage.runOffset]
      omega
    · simp only [Subpage.blockAt, Block.pooled, hPage.runOffset]
      omega
    · have hNode : p.node = handle.node := by rw [hPage.node, UInt32.ofNat_toNat]
      cases handle
      simp_all [Subpage.blockAt, Block.pooled, Handle.subpage, hPage.chunk]

theorem Sound.offset_le (h : c.Sound pools) (hPools : SubpagePools.Sound c.geometry pools)
    (hBlock : c.blockAt? pools handle = some block) : block.offset + block.capacity ≤ c.size := by
  have hInside := h.inside hPools hBlock
  exact hInside.stop.trans (h.run_le hInside.taken)

/-- The size of a live block is one that chunks serve. -/
theorem Sound.carved (h : c.Sound pools) (hPools : SubpagePools.Sound c.geometry pools)
    (hBlock : c.blockAt? pools handle = some block) : c.geometry.Carved block.capacity := by
  rcases blockAt?_cases hBlock with
    ⟨-, -, hTaken, rfl⟩ | ⟨slot, record, p, -, -, hFound, -, rfl⟩
  · have hDepth := Buddy.depthOf_le_order (h.tree.pos_of_isTaken hTaken)
      (h.tree.lt_of_isTaken hTaken)
    have hShift := h.geometry.pageShift_ge
    rw [h.order] at hDepth
    refine .inr ⟨c.geometry.scale - Buddy.depthOf handle.node.toNat, ?_, Nat.sub_le .., ?_⟩
    · rw [Geometry.scale]
      omega
    · rw [runBlock, Block.pooled, runLength_eq h.geometry, Buddy.spanLength]
  · exact hPools.carved h.geometry hFound

/-- Blocks under different handles do not overlap. -/
theorem Sound.apart (h : c.Sound pools) (hPools : SubpagePools.Sound c.geometry pools)
    (hBlock : c.blockAt? pools handle = some block)
    (hBlock' : c.blockAt? pools handle' = some block') (hNe : handle ≠ handle') :
    block.Apart block' := by
  have hInside := h.inside hPools hBlock
  have hInside' := h.inside hPools hBlock'
  by_cases hNode : handle.node = handle'.node
  · -- two handles of one node are two slots of its page
    have hSlots : handle.slot ≠ handle'.slot := by
      intro hSlot
      cases handle
      cases handle'
      simp_all
    rcases blockAt?_cases hBlock with
      ⟨hNone, hSlot, -, -⟩ | ⟨slot, record, p, hSlot, hRecord, hFound, hUsed, rfl⟩
    · rw [hNode] at hNone
      rw [blockAt?_run hNone] at hBlock'
      split at hBlock'
      · rename_i hRun
        exact absurd (hSlot.trans hRun.1.symm) hSlots
      · exact absurd hBlock' (by simp)
    · rw [hNode] at hRecord
      rw [blockAt?_slot hRecord, Option.bind_eq_some_iff] at hBlock'
      obtain ⟨slot', hSlot', hBlock'⟩ := hBlock'
      rw [hFound, Option.bind_some] at hBlock'
      obtain ⟨-, rfl⟩ := Subpage.live?_eq_some hBlock'
      have hNat : slot.toNat ≠ slot'.toNat := by
        intro hEq
        rw [UInt32.toNat_inj] at hEq
        exact hSlots (by rw [hSlot, hSlot', hEq])
      -- of two slots the lower one ends where the higher one begins, or before
      rcases Nat.lt_or_gt_of_ne hNat with hLt | hGt
      · have hStep := Nat.mul_le_mul_right p.elemSize hLt
        rw [Nat.succ_mul] at hStep
        exact .inl (by simp only [Subpage.blockAt, Block.pooled]; omega)
      · have hStep := Nat.mul_le_mul_right p.elemSize hGt
        rw [Nat.succ_mul] at hStep
        exact .inr (by simp only [Subpage.blockAt, Block.pooled]; omega)
  · have hNat : handle.node.toNat ≠ handle'.node.toNat := fun hEq =>
      hNode (UInt32.toNat_inj.mp hEq)
    -- of two nodes that are taken the runs do not overlap
    have hStart := hInside.start
    have hStop := hInside.stop
    have hStart' := hInside'.start
    have hStop' := hInside'.stop
    rcases h.runs_apart hInside.taken hInside'.taken hNat with hLt | hGt
    · exact .inl (by omega)
    · exact .inr (by omega)

-- ---------------------------------------------------------------------------
-- A chunk with nothing in use
-- ---------------------------------------------------------------------------

theorem Sound.isTaken_eq_false (h : c.Sound pools) (hFree : c.size ≤ c.freeBytes) (node : Nat) :
    c.tree.isTaken node = false := by
  have hCount := h.freeBytes
  by_contra hTaken
  have hMem : node ∈ c.tree.taken.members := Buddy.mem_taken.mpr (by simpa using hTaken)
  have hLength : c.runLength node ≤ c.takenBytes :=
    Finset.single_le_sum (fun _ _ => Nat.zero_le _) hMem
  have hPos := Buddy.spanLength_pos c.geometry.scale node
  rw [runLength_eq h.geometry] at hLength
  omega

/-- A chunk that is free as a whole has no live blocks, and no subpage carries its identity. -/
theorem Sound.unused (h : c.Sound pools) (hFree : c.size ≤ c.freeBytes) :
    (∀ handle, c.blockAt? pools handle = none) ∧
      ∀ record p, subpageAt? pools record = some p → p.chunk ≠ c.id := by
  have hNone := h.isTaken_eq_false hFree
  constructor
  · intro handle
    rw [blockAt?_run (h.leafRecord?_of_free (hNone _)), hNone, if_neg (by simp)]
  · intro record p hFound hChunk
    have hRecord := h.recorded record p hFound hChunk
    rw [h.leafRecord?_of_free (hNone _)] at hRecord
    exact absurd hRecord (by simp)

-- ---------------------------------------------------------------------------
-- A fresh chunk
-- ---------------------------------------------------------------------------

theorem leafRecord?_ofRegion (id : ChunkId) (g : Geometry) (region : Region) (node : Nat) :
    (ofRegion id g region).leafRecord? node = none := by
  rw [leafRecord?]
  split
  · rw [ofRegion, Array.getElem?_replicate]
    split <;> rfl
  · rfl

theorem blockAt?_ofRegion (id : ChunkId) (g : Geometry) (region : Region) (pools : SubpagePools)
    (handle : Handle) : (ofRegion id g region).blockAt? pools handle = none := by
  rw [blockAt?_run (leafRecord?_ofRegion ..), if_neg]
  simp [ofRegion, Buddy.isTaken_fresh]

/-- A fresh chunk is sound beside pools without subpages of its identity. -/
theorem sound_ofRegion {id : ChunkId} {g : Geometry} (hg : g.WellFormed) (region : Region)
    (hNone : ∀ record p, subpageAt? pools record = some p → p.chunk ≠ id) :
    (ofRegion id g region).Sound pools where
  geometry := hg
  tree := Buddy.sound_fresh _
  order := rfl
  leaves := by simp [ofRegion, Nat.one_shiftLeft]
  freeBytes := by
    have hEmpty : (ofRegion id g region).tree.taken.members = ∅ := by
      refine Finset.eq_empty_iff_forall_notMem.mpr fun node hNode => ?_
      rw [Buddy.mem_taken] at hNode
      simp [ofRegion, Buddy.isTaken_fresh] at hNode
    rw [takenBytes, hEmpty]
    rfl
  divided node record hRecord := by
    rw [leafRecord?_ofRegion] at hRecord
    exact absurd hRecord (by simp)
  recorded record p hFound hChunk := absurd hChunk (hNone record p hFound)

-- ---------------------------------------------------------------------------
-- Changes that concern other chunks
-- ---------------------------------------------------------------------------

/-- A change of the subpages of one chunk leaves every other chunk as it was. -/
theorem Sound.frame (h : other.Sound pools) {id : ChunkId} (hBeside : Beside id pools after)
    (hNe : other.id ≠ id) :
    other.Sound after ∧ ∀ handle, other.blockAt? after handle = other.blockAt? pools handle := by
  have hSame : ∀ node record, other.leafRecord? node = some record →
      ∃ p, subpageAt? pools record = some p ∧ subpageAt? after record = some p ∧
        other.HasPage node p := by
    intro node record hRecord
    obtain ⟨-, p, hFound, hPage⟩ := h.divided node record hRecord
    exact ⟨p, hFound, (hBeside record p (hPage.chunk ▸ hNe)).mpr hFound, hPage⟩
  refine ⟨⟨h.geometry, h.tree, h.order, h.leaves, h.freeBytes, ?_, ?_⟩, ?_⟩
  · intro node record hRecord
    obtain ⟨p, -, hAfter, hPage⟩ := hSame node record hRecord
    exact ⟨(h.divided node record hRecord).1, p, hAfter, hPage⟩
  · intro record p hFound hChunk
    exact h.recorded record p ((hBeside record p (hChunk ▸ hNe)).mp hFound) hChunk
  · intro handle
    cases hRecord : other.leafRecord? handle.node.toNat with
    | none => rw [blockAt?_run hRecord, blockAt?_run hRecord]
    | some record =>
      obtain ⟨p, hBefore, hAfter, -⟩ := hSame _ record hRecord
      rw [blockAt?_slot hRecord, blockAt?_slot hRecord]
      simp only [hBefore, hAfter]

end Chunk

end BlockPool
