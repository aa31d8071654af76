import BlockPool.Proofs.Arena.Handles
import BlockPool.Proofs.Chunk.Slots

/-!
# BlockPool — packed handles

A handle is packed into one word: the node in the lower half, and for a slot its number above that,
with a mark at bit 62. A slot number has as many bits as a node, so a large one runs into the mark
and past it; and a word has bits that no handle is unpacked to. Where neither happens, packing and
unpacking undo each other. No page has so many slots that it could happen to a handle in use.

* `Handle.Packable` — the slot, where there is one, stays below the mark.
* `Handle.decode_encode_iff`, `Handle.encode_decode_iff` — when the way back ends where it began.
* `Chunk.Packs` — what a chunk hands out can be packed, and is told apart when it is packed.
* `Chunk.packed_handles_exact` — so it is after every history of a chunk, an arena or a pool.
-/

namespace BlockPool

namespace Handle

variable {h other : Handle} {raw : UInt64} {node slot : UInt32}

/-- The slot, where there is one, stays below the mark. -/
def Packable (h : Handle) : Prop := ∀ slot, h.slot = some slot → slot.toNat < 2 ^ 30

theorem packable_run (node : UInt32) : (run node).Packable := by
  intro slot hSlot
  exact absurd hSlot (by simp [run])

theorem packable_subpage_iff : (subpage node slot).Packable ↔ slot.toNat < 2 ^ 30 := by
  simp [Packable, subpage]

-- ---------------------------------------------------------------------------
-- Packing
-- ---------------------------------------------------------------------------

@[simp] theorem toNat_encode_run (node : UInt32) : (run node).encode.toNat = node.toNat := by
  simp [run, encode]

/-- The node, the slot and the mark take up bits of their own. -/
theorem toNat_encode_subpage (hSlot : slot.toNat < 2 ^ 30) (node : UInt32) :
    (subpage node slot).encode.toNat = 2 ^ 62 + slot.toNat * 2 ^ 32 + node.toNat := by
  have hNode := node.toNat_lt
  have hMark : (slotTag).toNat = 1 <<< 62 := by decide
  have hMoved : (slot.toUInt64 <<< 32).toNat = slot.toNat <<< 32 := by
    rw [UInt64.toNat_shiftLeft, UInt32.toNat_toUInt64, Nat.mod_eq_of_lt]
    · rfl
    · rw [Nat.shiftLeft_eq]
      show slot.toNat * 2 ^ 32 < 2 ^ 64
      omega
  have hHigh : slot.toNat <<< 32 < 2 ^ 62 := by
    rw [Nat.shiftLeft_eq]
    omega
  have hJoin := Nat.shiftLeft_add_eq_or_of_lt (i := 32) hNode (2 ^ 30 + slot.toNat)
  have hTop : (2 ^ 30 + slot.toNat) <<< 32 = 1 <<< 62 + slot.toNat <<< 32 := by
    simp only [Nat.shiftLeft_eq, Nat.add_mul]
    rfl
  simp only [encode, subpage, UInt64.toNat_or, hMark, hMoved, UInt32.toNat_toUInt64]
  rw [← Nat.shiftLeft_add_eq_or_of_lt hHigh, ← hTop, ← hJoin, hTop, Nat.shiftLeft_eq,
    Nat.shiftLeft_eq, Nat.one_mul]

-- ---------------------------------------------------------------------------
-- Unpacking
-- ---------------------------------------------------------------------------

theorem and_slotTag_eq_zero_iff : raw &&& slotTag = 0 ↔ raw.toNat.testBit 62 = false := by
  have hMark : (slotTag).toNat = 2 ^ 62 := by decide
  rw [← UInt64.toNat_inj, UInt64.toNat_and, hMark, Nat.and_two_pow]
  cases raw.toNat.testBit 62 <;> simp

theorem decode_of_unmarked (h : raw.toNat.testBit 62 = false) : decode raw = run raw.toUInt32 := by
  rw [decode, if_neg (by simpa [and_slotTag_eq_zero_iff] using h)]

theorem decode_of_marked (h : raw.toNat.testBit 62 = true) :
    decode raw = subpage raw.toUInt32 ((raw >>> 32) &&& slotMask).toUInt32 := by
  rw [decode, if_pos (by simp [and_slotTag_eq_zero_iff, h])]

/-- The slot is read from 30 bits. -/
theorem toNat_slot_bits (raw : UInt64) :
    ((raw >>> 32) &&& slotMask).toUInt32.toNat = raw.toNat / 2 ^ 32 % 2 ^ 30 := by
  have hMask : (slotMask).toNat = 2 ^ 30 - 1 := by decide
  have hMoved : (raw >>> 32).toNat = raw.toNat / 2 ^ 32 := by
    rw [UInt64.toNat_shiftRight, Nat.shiftRight_eq_div_pow]
    rfl
  rw [UInt64.toNat_toUInt32, UInt64.toNat_and, hMoved, hMask, Nat.and_two_pow_sub_one_eq_mod]
  omega

/-- Whatever is unpacked can be packed. -/
theorem packable_decode (raw : UInt64) : (decode raw).Packable := by
  cases hMark : raw.toNat.testBit 62 with
  | false =>
    rw [decode_of_unmarked hMark]
    exact packable_run _
  | true =>
    rw [decode_of_marked hMark, packable_subpage_iff, toNat_slot_bits]
    omega

-- ---------------------------------------------------------------------------
-- Back and forth
-- ---------------------------------------------------------------------------

theorem decode_encode_run (node : UInt32) : decode (run node).encode = run node := by
  have hNat : (run node).encode.toNat = node.toNat := toNat_encode_run node
  have hNode := node.toNat_lt
  have hMark : (run node).encode.toNat.testBit 62 = false := by
    rw [hNat]
    exact Nat.testBit_lt_two_pow (by omega)
  have hBack : (run node).encode.toUInt32 = node := by
    rw [← UInt32.toNat_inj, UInt64.toNat_toUInt32, hNat]
    omega
  rw [decode_of_unmarked hMark, hBack]

theorem decode_encode_subpage (hSlot : slot.toNat < 2 ^ 30) (node : UInt32) :
    decode (subpage node slot).encode = subpage node slot := by
  have hNat := toNat_encode_subpage hSlot node
  have hNode := node.toNat_lt
  have hMark : (subpage node slot).encode.toNat.testBit 62 = true := by
    rw [hNat, Nat.testBit_eq_decide_div_mod_eq, decide_eq_true_eq]
    omega
  have hLow : (subpage node slot).encode.toUInt32 = node := by
    rw [← UInt32.toNat_inj, UInt64.toNat_toUInt32, hNat]
    omega
  have hHigh : (((subpage node slot).encode >>> 32) &&& slotMask).toUInt32 = slot := by
    rw [← UInt32.toNat_inj, toNat_slot_bits, hNat]
    omega
  rw [decode_of_marked hMark, hLow, hHigh]

theorem decode_encode (hPack : h.Packable) : decode (encode h) = h := by
  obtain ⟨node, number⟩ := h
  cases number with
  | none => exact decode_encode_run node
  | some slot => exact decode_encode_subpage (hPack slot rfl) node

theorem decode_encode_iff : decode (encode h) = h ↔ h.Packable := by
  constructor
  · intro hBack
    rw [← hBack]
    exact packable_decode _
  · exact decode_encode

theorem encode_decode_iff : encode (decode raw) = raw ↔
    (raw.toNat.testBit 62 = false ∧ raw.toNat < 2 ^ 32) ∨
      (raw.toNat.testBit 62 = true ∧ raw.toNat.testBit 63 = false) := by
  have hRaw := raw.toNat_lt
  cases hMark : raw.toNat.testBit 62 with
  | false =>
    rw [decode_of_unmarked hMark, ← UInt64.toNat_inj, toNat_encode_run, UInt64.toNat_toUInt32]
    simp only [true_and, Bool.false_eq_true, false_and, or_false]
    omega
  | true =>
    have hSlot : ((raw >>> 32) &&& slotMask).toUInt32.toNat < 2 ^ 30 := by
      rw [toNat_slot_bits]
      omega
    rw [decode_of_marked hMark, ← UInt64.toNat_inj, toNat_encode_subpage hSlot, toNat_slot_bits,
      UInt64.toNat_toUInt32]
    rw [Nat.testBit_eq_decide_div_mod_eq, decide_eq_true_eq] at hMark
    simp only [Bool.true_eq_false, false_and, true_and, false_or, Nat.testBit_eq_decide_div_mod_eq,
      decide_eq_false_iff_not]
    omega

theorem encode_inj (hPack : h.Packable) (hPack' : other.Packable) :
    h.encode = other.encode ↔ h = other := by
  constructor
  · intro hEq
    rw [← decode_encode hPack, hEq, decode_encode hPack']
  · exact congrArg encode

end Handle

-- ---------------------------------------------------------------------------
-- Handles of slots
-- ---------------------------------------------------------------------------

/-- The block carries the handle that it goes back under, and that handle can be packed. -/
def Block.Packable (block : Block) : Prop :=
  ∃ chunk handle, block.origin = .pooled chunk handle ∧ handle.Packable

namespace Subpage

variable {p q : Subpage} {block : Block} {slot pageSize : Nat}

/-- A page of at most 2 ^ 30 bytes has no more slots than handles can tell apart. -/
theorem Sound.slot_lt_two_pow (h : p.Sound pageSize) (hPage : pageSize ≤ 2 ^ 30)
    (hSlot : slot < p.maxElems) : slot < 2 ^ 30 := by
  have hElems : p.maxElems ≤ pageSize := by
    rw [h.maxElems]
    exact Nat.div_le_self ..
  omega

theorem Sound.packable_of_isUsed (h : p.Sound pageSize) (hPage : pageSize ≤ 2 ^ 30)
    {number : UInt32} (hUsed : p.isUsed number.toNat = true) :
    (Handle.subpage p.node number).Packable :=
  Handle.packable_subpage_iff.mpr (h.slot_lt_two_pow hPage (h.slot_lt hUsed))

/-- A slot is handed out under a handle that can be packed. -/
theorem Sound.packable_take (h : p.Sound pageSize) (hPage : pageSize ≤ 2 ^ 30)
    (hTake : p.take? = some (block, q)) : block.Packable := by
  obtain ⟨-, slot, hOccupies, rfl⟩ := h.take hTake
  have hSlot := h.slot_lt_two_pow hPage hOccupies.lt
  refine ⟨p.chunk, Handle.subpage p.node (UInt32.ofNat slot), rfl,
    Handle.packable_subpage_iff.mpr ?_⟩
  rw [UInt32.toNat_ofNat']
  exact (Nat.mod_le ..).trans_lt hSlot

end Subpage

namespace SubpagePool

variable {pool : SubpagePool} {pageSize : Nat}

/-- What a pool hands out, and what it has handed out, can be packed. -/
structure Packs (pool : SubpagePool) : Prop where
  take : ∀ block after, pool.take? = some (block, after) → block.Packable
  takeIn : ∀ key block after, pool.takeIn? key = some (block, after) → block.Packable
  inUse : ∀ key p number, pool.get? key = some p → p.isUsed number.toNat = true →
    (Handle.subpage p.node number).Packable

theorem packs (hSlab : pool.subpages.Sound) (hPage : pageSize ≤ 2 ^ 30)
    (hSound : ∀ key p, pool.get? key = some p → p.Sound pageSize) : pool.Packs where
  take block after hTake := by
    obtain ⟨key, p, q, hFound, hSlot, -⟩ := take?_eq_some hSlab hTake
    exact (hSound key p hFound).packable_take hPage hSlot
  takeIn key block after hTake := by
    obtain ⟨p, q, hFound, hSlot, -⟩ := takeIn?_eq_some hSlab hTake
    exact (hSound key p hFound).packable_take hPage hSlot
  inUse key p number hFound hUsed := (hSound key p hFound).packable_of_isUsed hPage hUsed

end SubpagePool

-- ---------------------------------------------------------------------------
-- Handles of a chunk
-- ---------------------------------------------------------------------------

namespace Chunk

open SubpagePools (subpageAt?)

variable {c : Chunk} {pools : SubpagePools} {handle : Handle} {g : Geometry}

/-- What a chunk and the pools beside it hand out can be packed, and so can all that is live. The
packed handles of a chunk tell its live blocks apart. -/
structure Packs (c : Chunk) (pools : SubpagePools) : Prop where
  beside : ∀ (i : Nat) (pool : SubpagePool), pools[i]? = some pool → pool.Packs
  allocate : ∀ request block c' pools',
    0 < c.geometry.normalize request → c.geometry.normalize request ≤ c.size →
    c.allocate pools (c.geometry.normalize request) = some (block, c', pools') → block.Packable
  live : ∀ handle, c.Live pools handle → handle.Packable
  apart : ∀ handle other, c.Live pools handle → c.Live pools other → handle ≠ other →
    handle.encode ≠ other.encode

theorem Sound.packable_of_live (h : c.Sound pools) (hPools : SubpagePools.Sound c.geometry pools)
    (hLive : c.Live pools handle) : handle.Packable := by
  obtain ⟨node, number⟩ := handle
  rcases hLive with ⟨rfl, -, -⟩ | ⟨slot, p, rfl, hHosts, hUsed⟩
  · exact Handle.packable_run node
  · obtain ⟨record, hFound⟩ := hHosts.found
    have hPage := h.geometry.pageSize_le.trans h.geometry.chunkSize_le
    obtain rfl := hHosts.node
    exact (hPools.subpage record p hFound).1.packable_of_isUsed hPage hUsed

/-- Pages are small enough for the slot numbers of a handle, and chunks for its nodes. -/
theorem Sound.packs (h : c.Sound pools) (hPools : SubpagePools.Sound c.geometry pools) :
    c.Packs pools where
  beside i pool hPool := by
    have hPage := h.geometry.pageSize_le.trans h.geometry.chunkSize_le
    refine SubpagePool.packs (hPools.slab i pool hPool) hPage fun key p hFound => ?_
    rw [← SubpagePools.subpageAt?_of_pool hPool] at hFound
    exact (hPools.subpage ⟨i, key⟩ p hFound).1
  allocate request block c' pools' hPos hLe hAllocate := by
    -- the block is live once it was handed out
    obtain ⟨hGrants, -⟩ := h.grants_of_allocate hPools (h.geometry.carved_of_le hPos hLe) hAllocate
    obtain ⟨handle, hOrigin, -, hBlocks⟩ := hGrants.blocks
    have hLive : c'.Live pools' handle := by
      rw [hGrants.sound.live_iff, hBlocks, if_pos rfl]
      rfl
    exact ⟨c.id, handle, hOrigin,
      hGrants.sound.packable_of_live (hGrants.same.geometry ▸ hGrants.store) hLive⟩
  live handle hLive := h.packable_of_live hPools hLive
  apart handle other hLive hLive' hNe hEq :=
    hNe ((Handle.encode_inj (h.packable_of_live hPools hLive)
      (h.packable_of_live hPools hLive')).mp hEq)

/-- A handle comes back from its packed form exactly if its slot has at most 30 bits, and a word
from the handle it unpacks to exactly if no bit of it is lost: those above the node where bit 62 is
clear, and bit 63 where it is set. What chunks and pools hand out comes back, whatever their
history, and the packed handles of one chunk tell its live blocks apart. -/
theorem packed_handles_exact :
    (∀ h : Handle, Handle.decode h.encode = h ↔ ∀ slot, h.slot = some slot → slot.toNat < 2 ^ 30) ∧
    (∀ raw : UInt64, (Handle.decode raw).encode = raw ↔
      (raw.toNat.testBit 62 = false ∧ raw.toNat < 2 ^ 32) ∨
        (raw.toNat.testBit 62 = true ∧ raw.toNat.testBit 63 = false)) ∧
    ∀ g : Geometry, g.WellFormed →
      (∀ (id : ChunkId) (region : Region) (ops : List Op),
        let s := (Site.fresh id g region).run ops
        s.chunk.Packs s.pools) ∧
      (∀ (index : Nat) (supply : Supply) (ops : List Arena.Op) (id : ChunkId) (c : Chunk),
        let a := (Arena.empty index g supply).run ops
        a.chunks.find? id = some c → c.Packs a.pools) ∧
      ∀ (elemSize : Nat) (requests : List SubpagePool.Request),
        0 < elemSize → elemSize ≤ g.pageSize / 2 →
          (SubpagePool.run g.pageSize elemSize requests).Packs := by
  refine ⟨fun h => Handle.decode_encode_iff, fun raw => Handle.encode_decode_iff, fun g hg => ?_⟩
  refine ⟨?_, ?_, ?_⟩
  -- a chunk with its pools, then the chunks of an arena, then a pool on its own
  · intro id region ops s
    have h := ((Site.sound_fresh hg id region).run ops).1
    exact h.chunk.packs h.pools
  · intro index supply ops id c a hFound
    have h : a.Sound := ((Arena.regular_empty hg index supply).run ops).sound
    obtain ⟨-, hGeometry, hSound⟩ := h.hosts_of_find? hFound
    exact hSound.packs (hGeometry ▸ h.pools)
  · intro elemSize requests hPos hHalf
    have h := SubpagePool.inOrder_run hPos hHalf requests
    exact SubpagePool.packs h.slab (hg.pageSize_le.trans hg.chunkSize_le)
      fun key p hFound => (h.page key p hFound).1

/-- A page is divided for one slot and the other one is a run. Both handles come back and are told
apart. A slot number of 31 bits would be lost in the mark. -/
theorem packed_handles_exact_two_pages :
    (⟨4096, 1, 0⟩ : Geometry).WellFormed ∧
      let s := (Site.fresh default ⟨4096, 1, 0⟩ default).run [.allocate 100, .allocate 4096]
      let slot := Handle.subpage 2 0
      s.chunk.Live s.pools slot ∧ s.chunk.Live s.pools (Handle.run 3) ∧
        Handle.decode slot.encode = slot ∧ slot.encode ≠ (Handle.run 3).encode ∧
        Handle.decode (Handle.subpage 2 0x40000000).encode ≠ Handle.subpage 2 0x40000000 := by
  have hg := Geometry.wellFormed_two_pages
  refine ⟨hg, ?_⟩
  intro s slot
  obtain ⟨hBack, -, hReached⟩ := packed_handles_exact
  have hPacks : s.chunk.Packs s.pools :=
    (hReached _ hg).1 default default [.allocate 100, .allocate 4096]
  have hSound : s.Sound := ((Site.sound_fresh hg default default).run _).1
  have hSlot : s.chunk.Live s.pools slot := by
    rw [hSound.chunk.live_iff]
    decide +kernel
  have hRun : s.chunk.Live s.pools (Handle.run 3) := by
    rw [hSound.chunk.live_iff]
    decide +kernel
  refine ⟨hSlot, hRun, ?_, hPacks.apart _ _ hSlot hRun (by decide), ?_⟩
  · rw [hBack]
    exact hPacks.live slot hSlot
  -- bit 30 of a slot number would fall on the mark
  · rw [Ne, hBack]
    intro hSmall
    exact absurd (hSmall _ rfl) (by decide)

end Chunk

end BlockPool
