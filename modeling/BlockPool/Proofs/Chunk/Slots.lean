import BlockPool.Proofs.Chunk.Available
import BlockPool.Proofs.Store.Search

/-!
# BlockPool — slots of one pool

A pool that starts empty, is given new subpages and is asked for slots and to take them back, under
whatever keys and handles, answers as its slots say: it has a slot to give exactly when one is
free, and takes one back exactly when it is in use.

* `Subpage.Sound.exists_take` — a subpage with room gives a slot: the hint or the first free one.
* `SubpagePool.InOrder` — what holds of a pool after any requests.
* `SubpagePool.Serves`, `SubpagePool.Regains` — a slot goes out, and comes back.
* `SubpagePool.run_slots_exact` — what a pool answers, after any requests.
-/

namespace BlockPool

namespace Subpage

variable {p q : Subpage} {slot pageSize : Nat}

/-- Whether some slot is not in use. -/
def HasFree (p : Subpage) : Prop := ∃ slot < p.maxElems, p.isUsed slot = false

theorem Sound.hasFree_iff (h : p.Sound pageSize) : p.HasFree ↔ p.numFree ≠ 0 :=
  h.numFree_ne_zero_iff.symm

theorem Sound.holds_eq_false (h : p.Sound pageSize) (hSlot : slot < p.maxElems)
    (hFree : p.isUsed slot = false) : p.used.holds slot = false := by
  rw [isUsed_eq, h.bits] at hFree
  simpa [hSlot] using hFree

/-- A subpage that counts a free slot gives one. Where it has a hint, that slot is free; where it
has none, the search finds the first one. -/
theorem Sound.exists_take (h : p.Sound pageSize) (hSome : p.numFree ≠ 0) :
    ∃ block q, p.take? = some (block, q) := by
  have hSlot : ∃ slot, p.hint.or p.used.findClear? = some slot ∧ slot < p.maxElems ∧
      p.used.holds slot = false := by
    cases hHint : p.hint with
    | some slot =>
      obtain ⟨hLt, hFree⟩ := h.hint slot hHint
      exact ⟨slot, rfl, hLt, h.holds_eq_false hLt hFree⟩
    | none =>
      cases hFind : p.used.findClear? with
      | some slot =>
        obtain ⟨hLt, hClear, -⟩ := Bitmap.findClear?_eq_some hFind
        exact ⟨slot, rfl, h.bits ▸ hLt, hClear⟩
      | none =>
        obtain ⟨slot, hLt, hFree⟩ := h.hasFree_iff.mpr hSome
        have hHeld := Bitmap.findClear?_eq_none hFind (h.bits.symm ▸ hLt)
        rw [h.holds_eq_false hLt hFree] at hHeld
        exact absurd hHeld (by simp)
  obtain ⟨slot, hEq, hLt, hClear⟩ := hSlot
  obtain ⟨used, hSet⟩ := Bitmap.exists_set (h.bits.symm ▸ hLt) hClear
  simp only [take?, if_neg hSome, hEq, hSet]
  exact ⟨_, _, rfl⟩

theorem Sound.exists_take_iff (h : p.Sound pageSize) :
    (∃ block q, p.take? = some (block, q)) ↔ p.HasFree := by
  rw [h.hasFree_iff]
  constructor
  · rintro ⟨block, q, hTake⟩
    exact (numFree_of_take hTake).1
  · exact h.exists_take

/-- The subpage that a slot came back to is empty if that slot was the only one in use. -/
theorem Vacates.isEmpty_iff (h : p.Vacates slot q) (hSound : q.Sound pageSize) :
    q.isEmpty = true ↔ ∀ other, other ≠ slot → p.isUsed other = false := by
  rw [hSound.isEmpty_iff]
  constructor
  · intro hNone other hOther
    have hUsed := h.isUsed other
    rwa [if_neg hOther, hNone, eq_comm] at hUsed
  · intro hNone other
    rw [h.isUsed]
    split
    · rfl
    · rename_i hOther
      exact hNone other hOther

end Subpage

namespace SubpagePool

variable {pool after : SubpagePool} {key : Slab.Key} {handle : Handle} {block : Block}
  {p q : Subpage} {i pageSize elemSize : Nat}

-- ---------------------------------------------------------------------------
-- Requests
-- ---------------------------------------------------------------------------

/-- What can be asked of a pool. -/
inductive Request where
  /-- A new subpage comes. -/
  | insert (chunk : ChunkId) (node : UInt32) (runOffset : Nat) (region : Region)
  /-- A slot of any subpage. -/
  | take
  /-- A slot of the subpage under a key. -/
  | takeIn (key : Slab.Key)
  /-- A slot comes back. -/
  | give (key : Slab.Key) (handle : Handle)

/-- The pool after a request. One that is refused leaves it as it is. -/
def serve (pageSize : Nat) (pool : SubpagePool) : Request → SubpagePool
  | .insert chunk node runOffset region =>
    (pool.insert (Subpage.divide chunk node runOffset pageSize pool.elemSize region)).2
  | .take =>
    match pool.take? with
    | some (_, after) => after
    | none => pool
  | .takeIn key =>
    match pool.takeIn? key with
    | some (_, after) => after
    | none => pool
  | .give key handle =>
    match pool.give key handle with
    | .ok (_, after) => after
    | .error _ => pool

/-- The pool of a slot size after any requests, from the beginning. -/
def run (pageSize elemSize : Nat) (requests : List Request) : SubpagePool :=
  requests.foldl (serve pageSize) (empty elemSize)

-- ---------------------------------------------------------------------------
-- What holds of a pool
-- ---------------------------------------------------------------------------

/-- What holds of a pool after any requests: the subpages with room are the available ones, and
every subpage is a page of at least two slots of the size of the pool. -/
structure InOrder (pageSize elemSize : Nat) (pool : SubpagePool) : Prop where
  size : pool.elemSize = elemSize
  slab : pool.subpages.Sound
  filed : pool.Filed
  page : ∀ key p, pool.get? key = some p →
    p.Sound pageSize ∧ p.elemSize = elemSize ∧ 2 ≤ p.maxElems

theorem inOrder_empty (pageSize elemSize : Nat) : (empty elemSize).InOrder pageSize elemSize where
  size := rfl
  slab := Slab.sound_empty
  filed := (tidy_empty elemSize).toFiled
  page key p hFound := by
    rw [get?_eq, empty, Nodes.find?_empty] at hFound
    exact absurd hFound (by simp)

/-- The subpages stay in order when the one under one key is changed, and when it goes. -/
theorem InOrder.update (h : pool.InOrder pageSize elemSize) {found : Option Subpage}
    (hFiled : after.Filed) (hUpdates : pool.Updates key found after)
    (hPage : ∀ p, found = some p → p.Sound pageSize ∧ p.elemSize = elemSize ∧ 2 ≤ p.maxElems) :
    after.InOrder pageSize elemSize where
  size := hUpdates.elemSize.trans h.size
  slab := hUpdates.slab
  filed := hFiled
  page other p hFound := by
    rw [hUpdates.get?] at hFound
    split at hFound
    · exact hPage p hFound
    · exact h.page other p hFound

/-- A subpage that has room is available under its slot of the slab. -/
theorem InOrder.mem_available (h : pool.InOrder pageSize elemSize) (hFound : pool.get? key = some p)
    (hRoom : p.numFree ≠ 0) : key.index ∈ pool.available.toList pool.subpages :=
  h.filed.mem_available.mpr ⟨p, Nodes.value?_of_find? hFound, hRoom⟩

theorem InOrder.exists_of_mem_available (h : pool.InOrder pageSize elemSize)
    (hMem : i ∈ pool.available.toList pool.subpages) :
    ∃ key p, key.index = i ∧ pool.get? key = some p ∧ p.numFree ≠ 0 := by
  obtain ⟨p, hValue, hRoom⟩ := h.filed.mem_available.mp hMem
  obtain ⟨key, hKey, hFound⟩ := Nodes.exists_find?_of_value? hValue
  exact ⟨key, p, hKey, hFound, hRoom⟩

/-- One subpage alone has room exactly when no other one has. -/
theorem InOrder.length_ne_one_iff (h : pool.InOrder pageSize elemSize)
    (hFound : pool.get? key = some p) (hRoom : p.numFree ≠ 0) :
    pool.available.length ≠ 1 ↔
      ∃ other q, other ≠ key ∧ pool.get? other = some q ∧ q.numFree ≠ 0 := by
  have hSpells := h.filed.files.spells_toList ()
  have hMem := h.mem_available hFound hRoom
  rw [hSpells.length]
  constructor
  · intro hLength
    obtain ⟨i, hi, hNe⟩ : ∃ i ∈ pool.available.toList pool.subpages, i ≠ key.index := by
      by_contra hNone
      push Not at hNone
      have hSubset : pool.available.toList pool.subpages ⊆ [key.index] := fun i hi => by
        rw [List.mem_singleton]
        exact hNone i hi
      have hLe := hSpells.nodup.length_le_of_subset hSubset
      have hPos := List.length_pos_of_mem hMem
      rw [List.length_singleton] at hLe
      omega
    obtain ⟨other, q, hOther, hFound', hRoom'⟩ := h.exists_of_mem_available hi
    exact ⟨other, q, fun hEq => hNe (by rw [← hOther, hEq]), hFound', hRoom'⟩
  · rintro ⟨other, q, hNe, hFound', hRoom'⟩ hLength
    obtain ⟨i, hAlone⟩ := List.length_eq_one_iff.mp hLength
    have hMem' := h.mem_available hFound' hRoom'
    rw [hAlone, List.mem_singleton] at hMem hMem'
    exact hNe (Nodes.key_eq_of_index_eq hFound' hFound (hMem'.trans hMem.symm))

-- ---------------------------------------------------------------------------
-- A slot goes out
-- ---------------------------------------------------------------------------

/-- A slot that was free is handed out, as a block inside the page of its subpage. -/
structure Serves (pageSize : Nat) (pool : SubpagePool) (key : Slab.Key) (p : Subpage) (slot : Nat)
    (block : Block) (after : SubpagePool) : Prop where
  found : pool.get? key = some p
  lt : slot < p.maxElems
  free : p.isUsed slot = false
  block_eq : block = p.blockAt slot
  inside : p.runOffset ≤ block.offset ∧ block.offset + block.capacity ≤ p.runOffset + pageSize
  /-- The handle of the block has as many bits for the slot as any page below 2 ^ 36 bytes needs. -/
  named : p.maxElems ≤ 2 ^ 32 → (UInt32.ofNat slot).toNat = slot
  after : ∃ q, p.Occupies slot q ∧ pool.Updates key (some q) after

theorem InOrder.serves (h : pool.InOrder pageSize elemSize) (hFound : pool.get? key = some p)
    (hTake : p.take? = some (block, q)) (hUpdates : pool.Updates key (some q) after) :
    ∃ slot, pool.Serves pageSize key p slot block after := by
  have hSub := (h.page key p hFound).1
  obtain ⟨-, slot, hOccupies, rfl⟩ := hSub.take hTake
  refine ⟨slot, hFound, hOccupies.lt, hOccupies.free, rfl, ⟨Nat.le_add_right .., ?_⟩,
    fun hSlots => ?_, q, hOccupies, hUpdates⟩
  · have hEnd := hSub.slot_end_le hOccupies.lt
    simp only [Subpage.blockAt, Block.pooled]
    omega
  · rw [UInt32.toNat_ofNat', Nat.mod_eq_of_lt (hOccupies.lt.trans_le hSlots)]

theorem InOrder.take_page (h : pool.InOrder pageSize elemSize) (hFound : pool.get? key = some p)
    (hTake : p.take? = some (block, q)) (hUpdates : pool.Updates key (some q) after)
    (hFiled : after.Filed) : after.InOrder pageSize elemSize := by
  obtain ⟨hSub, hSize, hTwo⟩ := h.page key p hFound
  obtain ⟨hSound, slot, hOccupies, -⟩ := hSub.take hTake
  refine h.update hFiled hUpdates fun p' hp' => ?_
  obtain rfl : q = p' := by simpa using hp'
  exact ⟨hSound, hOccupies.page.elemSize.trans hSize, hTwo.trans_eq hOccupies.page.maxElems.symm⟩

theorem InOrder.take (h : pool.InOrder pageSize elemSize)
    (hTake : pool.take? = some (block, after)) : after.InOrder pageSize elemSize := by
  obtain ⟨key, p, q, hFound, hSlot, hUpdates⟩ := take?_eq_some h.slab hTake
  obtain ⟨index, -, hTakeAt⟩ := Option.bind_eq_some_iff.mp hTake
  exact h.take_page hFound hSlot hUpdates (h.filed.takeAt hTakeAt)

theorem InOrder.takeIn (h : pool.InOrder pageSize elemSize)
    (hTake : pool.takeIn? key = some (block, after)) : after.InOrder pageSize elemSize := by
  obtain ⟨p, q, hFound, hSlot, hUpdates⟩ := takeIn?_eq_some h.slab hTake
  obtain ⟨node, -, hTakeAt⟩ := Option.bind_eq_some_iff.mp hTake
  exact h.take_page hFound hSlot hUpdates (h.filed.takeAt hTakeAt)

/-- A slot of a subpage can be had exactly when the key finds it and it has one. -/
theorem InOrder.takeIn_iff (h : pool.InOrder pageSize elemSize) (key : Slab.Key) :
    (pool.takeIn? key).isSome = true ↔ ∃ p, pool.get? key = some p ∧ p.HasFree := by
  rw [Option.isSome_iff_exists, Prod.exists]
  constructor
  · rintro ⟨block, after, hTake⟩
    obtain ⟨p, q, hFound, hSlot, -⟩ := takeIn?_eq_some h.slab hTake
    exact ⟨p, hFound, (h.page key p hFound).1.exists_take_iff.mp ⟨block, q, hSlot⟩⟩
  · rintro ⟨p, hFound, hFree⟩
    obtain ⟨block, q, hSlot⟩ := (h.page key p hFound).1.exists_take_iff.mpr hFree
    obtain ⟨after, hTake⟩ := exists_takeIn? hFound hSlot
    exact ⟨block, after, hTake⟩

/-- A slot of any subpage can be had exactly when one has one: the first available subpage is one
with room, and there is none only where no subpage has any. -/
theorem InOrder.take_iff (h : pool.InOrder pageSize elemSize) :
    pool.take?.isSome = true ↔ ∃ key p, pool.get? key = some p ∧ p.HasFree := by
  have hHead := (h.filed.files.spells_toList ()).head
  constructor
  · intro hSome
    obtain ⟨⟨block, after⟩, hTake⟩ := Option.isSome_iff_exists.mp hSome
    obtain ⟨key, p, q, hFound, hSlot, -⟩ := take?_eq_some h.slab hTake
    exact ⟨key, p, hFound, (h.page key p hFound).1.exists_take_iff.mp ⟨block, q, hSlot⟩⟩
  · rintro ⟨key, p, hFound, hFree⟩
    have hMem := h.mem_available hFound ((h.page key p hFound).1.hasFree_iff.mp hFree)
    obtain ⟨first, rest, hList⟩ := List.exists_cons_of_ne_nil (List.ne_nil_of_mem hMem)
    obtain ⟨other, p', hKey, hFound', hRoom⟩ :=
      h.exists_of_mem_available (hList ▸ List.mem_cons_self : first ∈ _)
    obtain ⟨block, q, hSlot⟩ := (h.page other p' hFound').1.exists_take hRoom
    rw [hList] at hHead
    have hAt : pool.subpages.value? first = some p' := hKey ▸ Nodes.value?_of_find? hFound'
    simp [take?, takeAt?, hHead, hAt, hSlot]

-- ---------------------------------------------------------------------------
-- A slot comes back
-- ---------------------------------------------------------------------------

/-- A slot that was in use comes back. The answer is whether the subpage stays. -/
structure Regains (pool : SubpagePool) (key : Slab.Key) (handle : Handle) (p : Subpage)
    (slot : UInt32) (stays : Bool) (after : SubpagePool) : Prop where
  slot_eq : handle.slot = some slot
  found : pool.get? key = some p
  node : p.node = handle.node
  inUse : p.isUsed slot.toNat = true
  /-- The subpage goes with its last slot in use, where another one has a slot to give. -/
  goes : stays = false ↔ (∀ other, other ≠ slot.toNat → p.isUsed other = false) ∧
    ∃ key' p', key' ≠ key ∧ pool.get? key' = some p' ∧ p'.HasFree
  after : ∃ q, p.Vacates slot.toNat q ∧
    pool.Updates key (if stays then some q else none) after

theorem InOrder.exists_other_iff (h : pool.InOrder pageSize elemSize) :
    (∃ other q, other ≠ key ∧ pool.get? other = some q ∧ q.numFree ≠ 0) ↔
      ∃ other q, other ≠ key ∧ pool.get? other = some q ∧ q.HasFree := by
  refine exists_congr fun other => exists_congr fun q => and_congr_right fun _ =>
    and_congr_right fun hFound => ((h.page other q hFound).1.hasFree_iff).symm

/-- A slot that comes back is free then, and its page leaves if it is empty and another has room. -/
theorem InOrder.give (h : pool.InOrder pageSize elemSize) {stays : Bool}
    (hGive : pool.give key handle = .ok (stays, after)) :
    after.InOrder pageSize elemSize ∧ ∃ p slot, pool.Regains key handle p slot stays after := by
  obtain ⟨slot, p, q, put, hSlot, hFound, hNode, hQ, rfl, hCases⟩ := give_cases h.slab hGive
  obtain ⟨hSub, hSize, hTwo⟩ := h.page key p hFound
  obtain ⟨hSound, hInUse, hVacates⟩ := hSub.give hQ
  have hCount := Subpage.numFree_of_give hQ
  have hElems := hVacates.page.maxElems
  have hEmpty := hVacates.isEmpty_iff hSound
  have hPut := updates_putValue h.slab hFound q
  have hPage : ∀ p', some q = some p' → p'.Sound pageSize ∧ p'.elemSize = elemSize ∧
      2 ≤ p'.maxElems := fun p' hp' => by
    obtain rfl := Option.some.inj hp'
    exact ⟨hSound, hVacates.page.elemSize.trans hSize, hTwo.trans_eq hElems.symm⟩
  rcases hCases with ⟨hFirst, rfl, rfl⟩ | ⟨hFirst, hStays, rfl, rfl⟩ |
    ⟨hFirst, ⟨hBlank, hOthers⟩, rfl, node, rest, hRemove, rfl⟩
  · -- one of at least two slots is free, so another one is in use
    have hUpdates := hPut.link key.index
    have hNotEmpty : q.isEmpty = false := by
      rw [Subpage.isEmpty, beq_eq_false_iff_ne]
      omega
    refine ⟨h.update (h.filed.putValue_link hFound (by omega) (by omega)) hUpdates hPage,
      p, slot, hSlot, hFound, hNode, hInUse, ?_, q, hVacates, hUpdates⟩
    rw [← hEmpty, hNotEmpty]
    simp
  · refine ⟨h.update (h.filed.putValue (q := q) (Nodes.value?_of_find? hFound) (by omega)) hPut
      hPage, p, slot, hSlot, hFound, hNode, hInUse, ?_, q, hVacates, hPut⟩
    rw [← hEmpty]
    rcases hStays with hUsed | hAlone
    · rw [hUsed]
      simp
    · -- the subpage had room before, and is the only one that has
      have hNone := (h.length_ne_one_iff hFound (by omega)).not_right.mp (by simpa using hAlone)
      rw [h.exists_other_iff] at hNone
      exact ⟨fun hEq => absurd hEq (by simp), fun hBoth => absurd hBoth.2 hNone⟩
  · have hUpdates := (hPut.unlink key.index).remove hRemove
    refine ⟨h.update (h.filed.putValue_unlink_remove h.slab hFound (by omega) hRemove) hUpdates
      (by simp), p, slot, hSlot, hFound, hNode, hInUse, ?_, q, hVacates, hUpdates⟩
    have hSome := (h.length_ne_one_iff hFound (by omega)).mp hOthers
    rw [h.exists_other_iff] at hSome
    exact ⟨fun _ => ⟨hEmpty.mp hBlank, hSome⟩, fun _ => rfl⟩

/-- A slot is taken back exactly when the key finds the subpage of the handle and the slot is in
use there. -/
theorem InOrder.give_iff (h : pool.InOrder pageSize elemSize) (key : Slab.Key) (handle : Handle) :
    (∃ stays after, pool.give key handle = .ok (stays, after)) ↔
      ∃ slot p, handle.slot = some slot ∧ pool.get? key = some p ∧ p.node = handle.node ∧
        p.isUsed slot.toNat = true := by
  constructor
  · rintro ⟨stays, after, hGive⟩
    obtain ⟨-, p, slot, hRegains⟩ := h.give hGive
    exact ⟨slot, p, hRegains.slot_eq, hRegains.found, hRegains.node, hRegains.inUse⟩
  · rintro ⟨slot, p, hSlot, hFound, hNode, hInUse⟩
    obtain ⟨q, hQ⟩ := Subpage.exists_give hInUse
    exact exists_give hSlot hFound hNode hQ

-- ---------------------------------------------------------------------------
-- Any requests
-- ---------------------------------------------------------------------------

theorem InOrder.insert (h : pool.InOrder pageSize elemSize) (hPos : 0 < elemSize)
    (hHalf : elemSize ≤ pageSize / 2) (chunk : ChunkId) (node : UInt32) (runOffset : Nat)
    (region : Region) :
    (pool.insert (Subpage.divide chunk node runOffset pageSize pool.elemSize region)).2.InOrder
      pageSize elemSize := by
  obtain ⟨-, -, hUpdates⟩ := updates_insert h.slab
    (Subpage.divide chunk node runOffset pageSize pool.elemSize region)
  rw [h.size] at hUpdates ⊢
  have hTwo : 2 ≤ pageSize / elemSize := by
    rw [Nat.le_div_iff_mul_le hPos]
    omega
  have hSound := Subpage.sound_divide chunk node runOffset region hPos
    (show elemSize ≤ pageSize by omega)
  refine h.update (h.filed.insert h.slab (show pageSize / elemSize ≠ 0 by omega)) hUpdates
    fun p hp => ?_
  obtain rfl := Option.some.inj hp
  exact ⟨hSound, rfl, hTwo⟩

/-- Every request keeps a pool in order. -/
theorem InOrder.serve (h : pool.InOrder pageSize elemSize) (hPos : 0 < elemSize)
    (hHalf : elemSize ≤ pageSize / 2) (request : Request) :
    (pool.serve pageSize request).InOrder pageSize elemSize := by
  cases request with
  | insert chunk node runOffset region => exact h.insert hPos hHalf chunk node runOffset region
  | take =>
    simp only [SubpagePool.serve]
    split
    · rename_i hTake
      exact h.take hTake
    · exact h
  | takeIn key =>
    simp only [SubpagePool.serve]
    split
    · rename_i hTake
      exact h.takeIn hTake
    · exact h
  | give key handle =>
    simp only [SubpagePool.serve]
    split
    · rename_i hGive
      exact (h.give hGive).1
    · exact h

theorem inOrder_run (hPos : 0 < elemSize) (hHalf : elemSize ≤ pageSize / 2)
    (requests : List Request) : (run pageSize elemSize requests).InOrder pageSize elemSize := by
  induction requests using List.reverseRecOn with
  | nil => exact inOrder_empty pageSize elemSize
  | append_singleton requests request ih =>
    rw [run, List.foldl_append]
    exact ih.serve hPos hHalf request

/-- What a pool answers to the next request, and what it is after that. -/
structure Exact (pageSize : Nat) (pool : SubpagePool) : Prop where
  take_iff : pool.take?.isSome = true ↔ ∃ key p, pool.get? key = some p ∧ p.HasFree
  take : ∀ block after, pool.take? = some (block, after) →
    pool.serve pageSize .take = after ∧
      ∃ key p slot, pool.Serves pageSize key p slot block after
  takeIn_iff : ∀ key,
    (pool.takeIn? key).isSome = true ↔ ∃ p, pool.get? key = some p ∧ p.HasFree
  takeIn : ∀ key block after, pool.takeIn? key = some (block, after) →
    pool.serve pageSize (.takeIn key) = after ∧
      ∃ p slot, pool.Serves pageSize key p slot block after
  give_iff : ∀ key handle, (∃ stays after, pool.give key handle = .ok (stays, after)) ↔
    ∃ slot p, handle.slot = some slot ∧ pool.get? key = some p ∧ p.node = handle.node ∧
      p.isUsed slot.toNat = true
  give : ∀ key handle stays after, pool.give key handle = .ok (stays, after) →
    pool.serve pageSize (.give key handle) = after ∧
      ∃ p slot, pool.Regains key handle p slot stays after
  refused : ∀ key handle e, pool.give key handle = .error e →
    pool.serve pageSize (.give key handle) = pool
  /-- A new subpage comes under a key that found none. -/
  insert : ∀ chunk node runOffset region,
    let page := Subpage.divide chunk node runOffset pageSize pool.elemSize region
    pool.get? (pool.insert page).1 = none ∧
      pool.Updates (pool.insert page).1 (some page)
        (pool.serve pageSize (.insert chunk node runOffset region))

/-- A pool that is in order answers each of its calls as the records of its pages have it. -/
theorem InOrder.exact (h : pool.InOrder pageSize elemSize) : pool.Exact pageSize where
  take_iff := h.take_iff
  take block after hTake := by
    obtain ⟨key, p, q, hFound, hSlot, hUpdates⟩ := take?_eq_some h.slab hTake
    obtain ⟨slot, hServes⟩ := h.serves hFound hSlot hUpdates
    exact ⟨by simp only [SubpagePool.serve, hTake], key, p, slot, hServes⟩
  takeIn_iff := h.takeIn_iff
  takeIn key block after hTake := by
    obtain ⟨p, q, hFound, hSlot, hUpdates⟩ := takeIn?_eq_some h.slab hTake
    obtain ⟨slot, hServes⟩ := h.serves hFound hSlot hUpdates
    exact ⟨by simp only [SubpagePool.serve, hTake], p, slot, hServes⟩
  give_iff := h.give_iff
  give key handle stays after hGive :=
    ⟨by simp only [SubpagePool.serve, hGive], (h.give hGive).2⟩
  refused key handle e hGive := by simp only [SubpagePool.serve, hGive]
  insert chunk node runOffset region := by
    obtain ⟨hKey, hNone, hUpdates⟩ := updates_insert h.slab
      (Subpage.divide chunk node runOffset pageSize pool.elemSize region)
    rw [← hKey] at hNone hUpdates
    exact ⟨hNone, hUpdates⟩

/-- A pool of slots of at most half a page gives and takes back exactly what its subpages have. -/
theorem run_slots_exact (hPos : 0 < elemSize) (hHalf : elemSize ≤ pageSize / 2)
    (requests : List Request) : (run pageSize elemSize requests).Exact pageSize :=
  (inOrder_run hPos hHalf requests).exact

/-- Of two pages of two slots each the first is full and the second has room. -/
theorem run_slots_exact_full_and_new :
    let pool := run 4096 2048 [.insert ⟨0, 0⟩ 2 0 default, .take, .take,
      .insert ⟨0, 0⟩ 3 4096 default]
    pool.Exact 4096 ∧ pool.take?.isSome = true ∧ pool.takeIn? ⟨0, 0⟩ = none :=
  ⟨run_slots_exact (by decide) (by decide) _, by decide +kernel,
    Option.isNone_iff_eq_none.mp (by decide +kernel)⟩

end SubpagePool

end BlockPool
