import BlockPool.Chunk.Subpage
import BlockPool.Proofs.Store.Bitmap
import BlockPool.Proofs.Store.Nodes

/-!
# BlockPool — slots and pools of subpages

A subpage is a bitmap with a count and a hint beside it; a pool is a slab of subpages with a chain
beside it. Here both are reduced to what matters outside: which slots of which subpages are in use.
Each operation of a pool replaces, puts in or takes out the subpage under one key.

* `Subpage.Sound` — the count is exact and the hint names a free slot.
* `Subpage.Occupies`, `Subpage.Vacates` — one slot is taken, or given back, and nothing else.
* `SubpagePool.Updates` — one pool differs from another under one key only.
-/

namespace BlockPool

-- ---------------------------------------------------------------------------
-- Slots
-- ---------------------------------------------------------------------------

namespace Subpage

variable {p q : Subpage} {block : Block} {slot pageSize : Nat} {number : UInt32}

theorem isUsed_eq (p : Subpage) (slot : Nat) :
    p.isUsed slot = (decide (slot < p.used.bits) && p.used.holds slot) := by
  unfold isUsed Bitmap.get
  by_cases hLt : slot < p.used.bits
  · simp [hLt, Nat.not_le.mpr hLt]
  · simp [hLt, Nat.le_of_not_lt hLt]

/-- What every reachable subpage satisfies. -/
structure Sound (p : Subpage) (pageSize : Nat) : Prop where
  elemSize : 0 < p.elemSize
  maxElems : p.maxElems = pageSize / p.elemSize
  bitmap : p.used.Sound
  bits : p.used.bits = p.maxElems
  count : p.numFree + p.used.used = p.maxElems
  /-- The hint is a free slot. -/
  hint : ∀ slot, p.hint = some slot → slot < p.maxElems ∧ p.isUsed slot = false

/-- The same page, divided in the same way; the slots in use may differ. -/
structure SamePage (p q : Subpage) : Prop where
  chunk : q.chunk = p.chunk
  node : q.node = p.node
  runOffset : q.runOffset = p.runOffset
  elemSize : q.elemSize = p.elemSize
  maxElems : q.maxElems = p.maxElems
  region : q.region = p.region

theorem SamePage.blockAt (h : p.SamePage q) (slot : Nat) : q.blockAt slot = p.blockAt slot := by
  rw [Subpage.blockAt, Subpage.blockAt, h.chunk, h.node, h.runOffset, h.elemSize, h.region]

theorem Sound.slot_lt (h : p.Sound pageSize) (hUsed : p.isUsed slot = true) :
    slot < p.maxElems := by
  rw [isUsed_eq, Bool.and_eq_true, decide_eq_true_eq, h.bits] at hUsed
  exact hUsed.1

/-- A slot ends inside the page. -/
theorem Sound.slot_end_le (h : p.Sound pageSize) (hSlot : slot < p.maxElems) :
    slot * p.elemSize + p.elemSize ≤ pageSize := by
  rw [h.maxElems] at hSlot
  calc slot * p.elemSize + p.elemSize
      = (slot + 1) * p.elemSize := by ring
    _ ≤ pageSize / p.elemSize * p.elemSize := Nat.mul_le_mul_right _ hSlot
    _ ≤ pageSize := Nat.div_mul_le_self ..

/-- A subpage counts itself as empty exactly when no slot is in use. -/
theorem Sound.isEmpty_iff (h : p.Sound pageSize) :
    p.isEmpty = true ↔ ∀ slot, p.isUsed slot = false := by
  have hCount := h.count
  have hZero := h.bitmap.used_eq_zero_iff
  rw [isEmpty, beq_iff_eq]
  constructor
  · intro hAll slot
    rw [isUsed_eq]
    by_cases hLt : slot < p.used.bits
    · rw [hZero.mp (by omega) slot hLt, Bool.and_false]
    · simp [hLt]
  · intro hFree
    have : p.used.used = 0 := by
      refine hZero.mpr fun slot hLt => ?_
      have hSlot := hFree slot
      rw [isUsed_eq] at hSlot
      simpa [hLt] using hSlot
    omega

/-- One slot more is in use. -/
structure Occupies (p : Subpage) (slot : Nat) (q : Subpage) : Prop where
  page : p.SamePage q
  lt : slot < p.maxElems
  free : p.isUsed slot = false
  isUsed : ∀ other, q.isUsed other = if other = slot then true else p.isUsed other

/-- One slot fewer is in use. -/
structure Vacates (p : Subpage) (slot : Nat) (q : Subpage) : Prop where
  page : p.SamePage q
  isUsed : ∀ other, q.isUsed other = if other = slot then false else p.isUsed other

/-- The block of a slot, while the slot is in use. -/
def live? (p : Subpage) (slot : UInt32) : Option Block :=
  if p.isUsed slot.toNat then some (p.blockAt slot.toNat) else none

theorem live?_eq_some (h : p.live? number = some block) :
    p.isUsed number.toNat = true ∧ block = p.blockAt number.toNat := by
  unfold live? at h
  split at h
  · rename_i hUsed
    exact ⟨hUsed, (Option.some.inj h).symm⟩
  · exact absurd h (by simp)

/-- The live blocks after one slot more came in use. -/
theorem Occupies.live? (h : p.Occupies slot q) (hSlot : (UInt32.ofNat slot).toNat = slot)
    (number : UInt32) :
    q.live? number =
      if number = UInt32.ofNat slot then some (p.blockAt slot) else p.live? number := by
  have hIff : number.toNat = slot ↔ number = UInt32.ofNat slot := by
    rw [← UInt32.toNat_inj, hSlot]
  simp only [Subpage.live?, h.isUsed, h.page.blockAt, ← hIff]
  by_cases hEq : number.toNat = slot <;> simp [hEq]

/-- The live blocks after one slot came back. -/
theorem Vacates.live? {given : UInt32} (h : p.Vacates given.toNat q) (number : UInt32) :
    q.live? number = if number = given then none else p.live? number := by
  simp only [Subpage.live?, h.isUsed, h.page.blockAt, ← UInt32.toNat_inj]
  by_cases hEq : number.toNat = given.toNat <;> simp [hEq]

/-- All that taking a slot can do. -/
theorem take?_eq_some (hTake : p.take? = some (block, q)) :
    p.numFree ≠ 0 ∧ ∃ slot used, p.used.set slot = .ok used ∧ block = p.blockAt slot ∧
      q = { p with used, hint := none, numFree := p.numFree - 1 } := by
  unfold take? at hTake
  split at hTake
  · exact absurd hTake (by simp)
  · rename_i hSome
    split at hTake
    · exact absurd hTake (by simp)
    · rename_i slot hSlot
      split at hTake
      · exact absurd hTake (by simp)
      · rename_i used hSet
        simp only [Option.some.injEq, Prod.mk.injEq] at hTake
        obtain ⟨rfl, rfl⟩ := hTake
        exact ⟨hSome, slot, used, hSet, rfl, rfl⟩

/-- Taking occupies a slot that was free and hands out its block. -/
theorem Sound.take (h : p.Sound pageSize) (hTake : p.take? = some (block, q)) :
    q.Sound pageSize ∧ ∃ slot, p.Occupies slot q ∧ block = p.blockAt slot := by
  obtain ⟨hSome, slot, used, hSet, rfl, rfl⟩ := take?_eq_some hTake
  obtain ⟨hLt, hFree, hEq⟩ := Bitmap.set_eq_ok hSet
  have hBits : used.bits = p.used.bits := by rw [hEq]
  have hUsed : used.used = p.used.used + 1 := by rw [hEq]
  have hCount := h.count
  refine ⟨⟨h.elemSize, h.maxElems, h.bitmap.set hSet, hBits.trans h.bits, ?_, by simp⟩,
    slot, ⟨⟨rfl, rfl, rfl, rfl, rfl, rfl⟩, h.bits ▸ hLt, by simp [isUsed_eq, hFree], ?_⟩, rfl⟩
  · dsimp only
    omega
  · intro other
    rw [isUsed_eq, isUsed_eq, hBits, h.bitmap.holds_set hSet]
    by_cases hOther : other = slot
    · simp [hOther, hLt]
    · simp [hOther]

/-- Giving a slot back is refused unless the slot is in use. -/
theorem Sound.give (h : p.Sound pageSize) (hGive : p.give slot = .ok q) :
    q.Sound pageSize ∧ p.isUsed slot = true ∧ p.Vacates slot q := by
  unfold Subpage.give at hGive
  split at hGive
  · exact absurd hGive (by simp)
  · rename_i used hClear
    simp only [Except.ok.injEq] at hGive
    subst hGive
    obtain ⟨hLt, hHeld, hEq⟩ := Bitmap.clear_eq_ok hClear
    have hBits : used.bits = p.used.bits := by rw [hEq]
    have hUsed : used.used = p.used.used - 1 := by rw [hEq]
    -- a slot was in use, so the count does not go below zero
    have hSome : p.used.used ≠ 0 := by
      rw [Ne, h.bitmap.used_eq_zero_iff]
      intro hNone
      rw [hNone slot hLt] at hHeld
      exact absurd hHeld (by simp)
    have hCount := h.count
    have hAfter : ∀ other, ({ p with used, hint := some slot, numFree := p.numFree + 1 } :
        Subpage).isUsed other = if other = slot then false else p.isUsed other := by
      intro other
      rw [isUsed_eq, isUsed_eq, hBits, h.bitmap.holds_clear hClear]
      by_cases hOther : other = slot <;> simp [hOther]
    refine ⟨⟨h.elemSize, h.maxElems, h.bitmap.clear hClear, hBits.trans h.bits, ?_, ?_⟩,
      by simp [isUsed_eq, hLt, hHeld], ⟨rfl, rfl, rfl, rfl, rfl, rfl⟩, hAfter⟩
    · dsimp only
      omega
    · intro known hKnown
      obtain rfl : slot = known := by simpa using hKnown
      exact ⟨h.bits ▸ hLt, by rw [hAfter, if_pos rfl]⟩

theorem exists_give (hUsed : p.isUsed slot = true) : ∃ q, p.give slot = .ok q := by
  rw [isUsed_eq, Bool.and_eq_true, decide_eq_true_eq] at hUsed
  obtain ⟨used, hClear⟩ := Bitmap.exists_clear hUsed.1 hUsed.2
  exact ⟨_, by simp only [Subpage.give, hClear]; rfl⟩

theorem isUsed_divide (chunk : ChunkId) (node : UInt32) (runOffset pageSize elemSize : Nat)
    (region : Region) (slot : Nat) :
    (divide chunk node runOffset pageSize elemSize region).isUsed slot = false := by
  rw [isUsed_eq, divide, Bitmap.holds_withCapacity, Bool.and_false]

theorem sound_divide (chunk : ChunkId) (node : UInt32) (runOffset : Nat) {pageSize elemSize : Nat}
    (region : Region) (hPos : 0 < elemSize) (hLe : elemSize ≤ pageSize) :
    (divide chunk node runOffset pageSize elemSize region).Sound pageSize where
  elemSize := hPos
  maxElems := rfl
  bitmap := Bitmap.sound_withCapacity ..
  bits := rfl
  count := rfl
  hint slot hSlot := by
    obtain rfl : 0 = slot := by simpa [divide] using hSlot
    exact ⟨Nat.div_pos hLe hPos, isUsed_divide ..⟩

/-- A new subpage has a slot to give: its first one. -/
theorem exists_take_divide (chunk : ChunkId) (node : UInt32) (runOffset : Nat)
    {pageSize elemSize : Nat} (region : Region) (hPos : 0 < elemSize) (hLe : elemSize ≤ pageSize) :
    ∃ block q, (divide chunk node runOffset pageSize elemSize region).take? = some (block, q) := by
  have hSlots : 0 < pageSize / elemSize := Nat.div_pos hLe hPos
  obtain ⟨used, hSet⟩ := Bitmap.exists_set
    (b := Bitmap.withCapacity (pageSize / elemSize) (pageSize / Geometry.tinyQuantum)) (i := 0)
    hSlots (Bitmap.holds_withCapacity ..)
  have hSome : (divide chunk node runOffset pageSize elemSize region).take?.isSome = true := by
    simp only [take?, divide, Option.some_or, hSet]
    rw [if_neg (by omega)]
    rfl
  obtain ⟨⟨block, q⟩, hTake⟩ := Option.isSome_iff_exists.mp hSome
  exact ⟨block, q, hTake⟩

end Subpage

-- ---------------------------------------------------------------------------
-- Pools
-- ---------------------------------------------------------------------------

namespace SubpagePool

variable {pool after : SubpagePool} {key : Slab.Key} {handle : Handle} {block : Block}
  {p q : Subpage} {found : Option Subpage}

theorem get?_eq (pool : SubpagePool) (key : Slab.Key) : pool.get? key = pool.subpages.find? key :=
  rfl

/-- The pool after the subpage under one key was replaced, put in or taken out. -/
structure Updates (pool : SubpagePool) (key : Slab.Key) (found : Option Subpage)
    (after : SubpagePool) : Prop where
  slab : after.subpages.Sound
  elemSize : after.elemSize = pool.elemSize
  get? : ∀ other, after.get? other = if other = key then found else pool.get? other

/-- Of two changes under one key the later one counts. -/
theorem Updates.trans {middle : SubpagePool} {found' : Option Subpage}
    (h : pool.Updates key found middle) (h' : middle.Updates key found' after) :
    pool.Updates key found' after where
  slab := h'.slab
  elemSize := h'.elemSize.trans h.elemSize
  get? other := by
    rw [h'.get?, h.get?]
    split <;> rfl

/-- The chain of the available subpages matters to nobody who looks a subpage up. -/
theorem Updates.of_relinked {middle : SubpagePool} (h : pool.Updates key found middle)
    (hSize : after.elemSize = middle.elemSize)
    (hLinks : Nodes.Relinked middle.subpages after.subpages) : pool.Updates key found after where
  slab := hLinks.sound h.slab
  elemSize := hSize.trans h.elemSize
  get? other := by rw [get?_eq, hLinks.find?, ← get?_eq, h.get?]

theorem relinked_link (pool : SubpagePool) (index : Nat) :
    Nodes.Relinked pool.subpages (pool.link index).subpages ∧
      (pool.link index).elemSize = pool.elemSize := by
  unfold link
  split
  · rename_i hPush
    exact ⟨Chain.relinked_pushFront hPush, rfl⟩
  · exact ⟨Nodes.Relinked.refl _, rfl⟩

theorem relinked_unlink (pool : SubpagePool) (index : Nat) :
    Nodes.Relinked pool.subpages (pool.unlink index).subpages ∧
      (pool.unlink index).elemSize = pool.elemSize := by
  unfold unlink
  split
  · rename_i hUnlink
    exact ⟨Chain.relinked_unlink hUnlink, rfl⟩
  · exact ⟨Nodes.Relinked.refl _, rfl⟩

theorem Updates.link (h : pool.Updates key found after) (index : Nat) :
    pool.Updates key found (after.link index) :=
  h.of_relinked (relinked_link ..).2 (relinked_link ..).1

theorem Updates.unlink (h : pool.Updates key found after) (index : Nat) :
    pool.Updates key found (after.unlink index) :=
  h.of_relinked (relinked_unlink ..).2 (relinked_unlink ..).1

/-- A subpage that is taken out of the slab is found no more. -/
theorem Updates.remove (h : pool.Updates key found after) {node : Node Subpage}
    {rest : Nodes Subpage} (hRemove : after.subpages.remove key = some (node, rest)) :
    pool.Updates key none { after with subpages := rest } where
  slab := h.slab.remove hRemove
  elemSize := h.elemSize
  get? other := by
    rw [get?_eq, Nodes.find?_remove hRemove, ← get?_eq, h.get?]
    split <;> rfl

/-- A new subpage comes under a key that found nothing. -/
theorem updates_insert (hSlab : pool.subpages.Sound) (p : Subpage) :
    (pool.insert p).1 = pool.subpages.nextKey ∧ pool.get? pool.subpages.nextKey = none ∧
      pool.Updates pool.subpages.nextKey (some p) (pool.insert p).2 := by
  have hPut : pool.Updates pool.subpages.nextKey (some p)
      { pool with subpages := (pool.subpages.insertValue p).2 } :=
    ⟨Nodes.sound_insertValue hSlab p, rfl, Nodes.find?_insertValue hSlab p⟩
  exact ⟨Nodes.insertValue_fst .., Nodes.find?_nextKey hSlab, hPut.link _⟩

theorem updates_putValue (hSlab : pool.subpages.Sound) (hFound : pool.get? key = some p)
    (q : Subpage) :
    pool.Updates key (some q) { pool with subpages := pool.subpages.putValue key.index q } :=
  ⟨(Nodes.sameKeys_putValue ..).sound hSlab, rfl, Nodes.find?_putValue hFound q⟩

/-- Taking in a slot of the slab takes a slot of the subpage there. -/
theorem takeAt?_eq_some (hSlab : pool.subpages.Sound) {index : Nat}
    (hTake : pool.takeAt? index = some (block, after)) :
    ∃ key p q, key.index = index ∧ pool.get? key = some p ∧ p.take? = some (block, q) ∧
      pool.Updates key (some q) after := by
  simp only [takeAt?, Option.bind_eq_bind, Option.bind_eq_some_iff, Prod.exists] at hTake
  obtain ⟨p, hValue, taken, q, hSlot, hAfter⟩ := hTake
  simp only [Option.pure_def, Option.some.injEq, Prod.mk.injEq] at hAfter
  obtain ⟨rfl, rfl⟩ := hAfter
  obtain ⟨key, hKey, hFound⟩ := Nodes.exists_find?_of_value? hValue
  refine ⟨key, p, q, hKey, hFound, hSlot, ?_⟩
  have hPut := updates_putValue hSlab hFound q
  rw [hKey] at hPut
  split
  · exact hPut.unlink index
  · exact hPut

theorem take?_eq_some (hSlab : pool.subpages.Sound) (hTake : pool.take? = some (block, after)) :
    ∃ key p q, pool.get? key = some p ∧ p.take? = some (block, q) ∧
      pool.Updates key (some q) after := by
  simp only [take?, Option.bind_eq_bind, Option.bind_eq_some_iff] at hTake
  obtain ⟨index, -, hTake⟩ := hTake
  obtain ⟨key, p, q, -, hFound, hSlot, hUpdates⟩ := takeAt?_eq_some hSlab hTake
  exact ⟨key, p, q, hFound, hSlot, hUpdates⟩

theorem takeIn?_eq_some (hSlab : pool.subpages.Sound)
    (hTake : pool.takeIn? key = some (block, after)) :
    ∃ p q, pool.get? key = some p ∧ p.take? = some (block, q) ∧
      pool.Updates key (some q) after := by
  simp only [takeIn?, Option.bind_eq_bind, Option.bind_eq_some_iff] at hTake
  obtain ⟨node, hNode, hTake⟩ := hTake
  obtain ⟨other, p, q, hIndex, hFound, hSlot, hUpdates⟩ := takeAt?_eq_some hSlab hTake
  have hKey : pool.subpages.find? key = some node.value := by simp [Nodes.find?, hNode]
  obtain rfl := Nodes.key_eq_of_index_eq hFound hKey hIndex
  exact ⟨p, q, hFound, hSlot, hUpdates⟩

theorem exists_takeIn? (hFound : pool.get? key = some p) (hTake : p.take? = some (block, q)) :
    ∃ after, pool.takeIn? key = some (block, after) := by
  obtain ⟨node, hNode, hValue⟩ := Nodes.get?_isSome_of_find? hFound
  have hAt := Nodes.value?_of_find? hFound
  simp only [takeIn?, takeAt?, Option.bind_eq_bind, hNode, hAt, hTake, Option.bind_some,
    Option.pure_def]
  exact ⟨_, rfl⟩

/-- All that giving a slot back can do. A subpage that was full becomes available. Another one
stays as it is if a slot of it is in use or if it alone is available, and leaves the pool if not. -/
theorem give_cases (hSlab : pool.subpages.Sound) {stays : Bool}
    (hGive : pool.give key handle = .ok (stays, after)) :
    ∃ slot p q put, handle.slot = some slot ∧ pool.get? key = some p ∧ p.node = handle.node ∧
      p.give slot.toNat = .ok q ∧
      put = { pool with subpages := pool.subpages.putValue key.index q } ∧
      ((q.numFree = 1 ∧ stays = true ∧ after = put.link key.index) ∨
        (q.numFree ≠ 1 ∧ (q.isEmpty = false ∨ pool.available.length = 1) ∧ stays = true ∧
          after = put) ∨
        (q.numFree ≠ 1 ∧ (q.isEmpty = true ∧ pool.available.length ≠ 1) ∧ stays = false ∧
          ∃ node rest, (put.unlink key.index).subpages.remove key = some (node, rest) ∧
            after = { put.unlink key.index with subpages := rest })) := by
  unfold give at hGive
  split at hGive
  · rename_i slot p hSlot hFound
    split at hGive
    · exact absurd hGive (by simp)
    · rename_i hNode
      split at hGive
      · exact absurd hGive (by simp)
      · rename_i q hQ
        refine ⟨slot, p, q, _, hSlot, hFound, by simpa using hNode, hQ, rfl, ?_⟩
        dsimp only at hGive
        split at hGive
        · rename_i hFirst
          obtain ⟨rfl, rfl⟩ := by simpa using hGive
          exact .inl ⟨hFirst, rfl, rfl⟩
        · rename_i hFirst
          split at hGive
          · rename_i hUsed
            obtain ⟨rfl, rfl⟩ := by simpa using hGive
            exact .inr (.inl ⟨hFirst, .inl (by simpa using hUsed), rfl, rfl⟩)
          · rename_i hEmpty
            split at hGive
            · rename_i hAlone
              obtain ⟨rfl, rfl⟩ := by simpa using hGive
              exact .inr (.inl ⟨hFirst, .inr hAlone, rfl, rfl⟩)
            · rename_i hOthers
              -- the subpage leaves, and its key is one that finds it
              have hGone := (updates_putValue hSlab hFound q).unlink key.index
              obtain ⟨node, rest, hRemove, -⟩ := Nodes.exists_remove
                (show _ = some q by rw [← get?_eq, hGone.get?, if_pos rfl])
              rw [hRemove] at hGive
              obtain ⟨rfl, rfl⟩ := by simpa using hGive
              exact .inr (.inr
                ⟨hFirst, ⟨by simpa using hEmpty, hOthers⟩, rfl, node, rest, hRemove, rfl⟩)
  · exact absurd hGive (by simp)

/-- Giving a slot back empties it. The subpage stays, or leaves the pool because no slot of it is
in use any more. -/
theorem give_eq_ok (hSlab : pool.subpages.Sound) {stays : Bool}
    (hGive : pool.give key handle = .ok (stays, after)) :
    ∃ slot p q, handle.slot = some slot ∧ pool.get? key = some p ∧ p.node = handle.node ∧
      p.give slot.toNat = .ok q ∧
      ((stays = true ∧ pool.Updates key (some q) after) ∨
        (stays = false ∧ q.isEmpty = true ∧ pool.Updates key none after)) := by
  obtain ⟨slot, p, q, put, hSlot, hFound, hNode, hQ, rfl, hCases⟩ := give_cases hSlab hGive
  have hPut := updates_putValue hSlab hFound q
  refine ⟨slot, p, q, hSlot, hFound, hNode, hQ, ?_⟩
  rcases hCases with ⟨-, rfl, rfl⟩ | ⟨-, -, rfl, rfl⟩ |
    ⟨-, ⟨hEmpty, -⟩, rfl, node, rest, hRemove, rfl⟩
  · exact .inl ⟨rfl, hPut.link key.index⟩
  · exact .inl ⟨rfl, hPut⟩
  · exact .inr ⟨rfl, hEmpty, (hPut.unlink key.index).remove hRemove⟩

theorem exists_give {slot : UInt32} (hSlot : handle.slot = some slot)
    (hFound : pool.get? key = some p) (hNode : p.node = handle.node)
    (hGive : p.give slot.toNat = .ok q) :
    ∃ stays after, pool.give key handle = .ok (stays, after) := by
  simp only [give, hSlot, hFound, hGive, hNode, ne_eq, not_true_eq_false, if_false]
  split
  · exact ⟨_, _, rfl⟩
  · split
    · exact ⟨_, _, rfl⟩
    · split
      · exact ⟨_, _, rfl⟩
      · split <;> exact ⟨_, _, rfl⟩

end SubpagePool

end BlockPool
