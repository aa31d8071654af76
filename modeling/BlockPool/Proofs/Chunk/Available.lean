import BlockPool.Proofs.Chunk.Subpage
import BlockPool.Proofs.Store.Chain
import BlockPool.Proofs.Store.Entries

/-!
# BlockPool — subpages with room

A pool chains the subpages that have a free slot, and keeps at most one subpage without a slot in
use. The second follows from the first: a subpage whose last slot comes back stays only if it is the
one with room, and a subpage without a slot in use has room.

* `SubpagePool.Filed` — exactly the subpages with a free slot are chained.
* `SubpagePool.Lone` — at most one subpage has no slot in use.
* `SubpagePool.Tidy` — both, for a pool in between two requests.
* `SubpagePool.Tidy.take`, `SubpagePool.Tidy.insert`, `SubpagePool.Tidy.give` — and so after them.
-/

namespace BlockPool

namespace Subpage

variable {p q : Subpage} {block : Block} {slot pageSize : Nat}

theorem numFree_of_take (h : p.take? = some (block, q)) :
    p.numFree ≠ 0 ∧ q.numFree = p.numFree - 1 := by
  obtain ⟨hSome, slot, used, -, -, rfl⟩ := take?_eq_some h
  exact ⟨hSome, rfl⟩

theorem numFree_of_give (h : p.give slot = .ok q) : q.numFree = p.numFree + 1 := by
  unfold give at h
  split at h
  · exact absurd h (by simp)
  · obtain rfl := Except.ok.inj h
    rfl

/-- The slots in use. -/
def usedSlots (p : Subpage) : Finset Nat :=
  (Finset.range p.maxElems).filter fun slot => p.isUsed slot = true

/-- The slots that are counted as free are those that are not in use. -/
theorem Sound.numFree_add_card (h : p.Sound pageSize) :
    p.numFree + p.usedSlots.card = p.maxElems := by
  have hSlots : p.usedSlots = p.used.members := by
    ext slot
    rw [usedSlots, Finset.mem_filter, Finset.mem_range, isUsed_eq, Bitmap.mem_members, h.bits]
    simp
  rw [hSlots, ← h.bitmap.count, h.count]

theorem Sound.numFree_ne_zero_iff (h : p.Sound pageSize) :
    p.numFree ≠ 0 ↔ ∃ slot < p.maxElems, p.isUsed slot = false := by
  have hCount := h.numFree_add_card
  constructor
  · intro hSome
    by_contra hNone
    push Not at hNone
    have hAll : p.usedSlots = Finset.range p.maxElems :=
      Finset.filter_true_of_mem fun slot hSlot => by
        simpa using hNone slot (Finset.mem_range.mp hSlot)
    rw [hAll, Finset.card_range] at hCount
    omega
  · rintro ⟨slot, hLt, hFree⟩ hZero
    have hAll : p.usedSlots = Finset.range p.maxElems :=
      Finset.eq_of_subset_of_card_le (Finset.filter_subset ..) (by rw [Finset.card_range]; omega)
    have hMem : slot ∈ p.usedSlots := hAll ▸ Finset.mem_range.mpr hLt
    rw [usedSlots, Finset.mem_filter, hFree] at hMem
    exact absurd hMem.2 (by simp)

/-- A subpage that a slot was just taken of is not empty. -/
theorem Sound.isEmpty_take (h : p.Sound pageSize) (hTake : p.take? = some (block, q)) :
    q.isEmpty = false := by
  obtain ⟨hSound, slot, hOccupies, -⟩ := h.take hTake
  rw [← Bool.not_eq_true, hSound.isEmpty_iff]
  intro hNone
  have hUsed := hOccupies.isUsed slot
  rw [if_pos rfl, hNone] at hUsed
  exact absurd hUsed (by simp)

end Subpage

namespace SubpagePool

variable {pool after : SubpagePool} {key : Slab.Key} {handle : Handle} {block : Block}
  {p q : Subpage} {found : Option Subpage} {i pageSize : Nat} {place : Nat → Option Unit}

-- ---------------------------------------------------------------------------
-- What a pool holds
-- ---------------------------------------------------------------------------

/-- An entry of a pool is a subpage under its key. -/
theorem get?_of_mem_entries {entry : Slab.Key × Node Subpage}
    (h : entry ∈ pool.subpages.entries) : pool.get? entry.1 = some entry.2.value := by
  rw [get?, Slab.mem_entries.mp h]
  rfl

theorem mem_toList : p ∈ pool.toList ↔ ∃ key, pool.get? key = some p := by
  simp only [toList, List.mem_map, Prod.exists, Slab.mem_entries, get?, Option.map_eq_some_iff]

-- ---------------------------------------------------------------------------
-- The chain of the available subpages
-- ---------------------------------------------------------------------------

/-- Whether the subpage in a slot has room, and so belongs with the available ones. -/
def roomAt? (pool : SubpagePool) (i : Nat) : Option Unit :=
  (pool.subpages.value? i).bind fun p => if p.numFree = 0 then none else some ()

theorem roomAt?_of_value? (h : pool.subpages.value? i = some p) :
    pool.roomAt? i = if p.numFree = 0 then none else some () := by
  rw [SubpagePool.roomAt?, h, Option.bind_some]

theorem roomAt?_of_relinked (h : Nodes.Relinked pool.subpages after.subpages) :
    after.roomAt? = pool.roomAt? := by
  funext i
  rw [SubpagePool.roomAt?, SubpagePool.roomAt?, h.value]

/-- A subpage in place of another changes the place of its own slot at most. -/
theorem roomAt?_putValue (h : pool.subpages.value? i = some p) (q : Subpage) :
    SubpagePool.roomAt? { pool with subpages := pool.subpages.putValue i q } =
      Function.update pool.roomAt? i (if q.numFree = 0 then none else some ()) := by
  funext j
  rw [SubpagePool.roomAt?, Nodes.value?_putValue, h]
  by_cases hj : j = i
  · simp [hj]
  · simp [hj, SubpagePool.roomAt?]

/-- Exactly the subpages with a free slot are chained, and there are as many subpages as counted. -/
structure Filed (pool : SubpagePool) : Prop where
  files : Chain.Files (fun _ : Unit => pool.available) pool.subpages pool.roomAt?
  counted : pool.subpages.Counted

/-- The available subpages are those with a free slot. -/
theorem Filed.mem_available (h : pool.Filed) :
    i ∈ pool.available.toList pool.subpages ↔
      ∃ p, pool.subpages.value? i = some p ∧ p.numFree ≠ 0 := by
  rw [h.files.mem_toList (k := ()), SubpagePool.roomAt?, Option.bind_eq_some_iff]
  simp

/-- At most one subpage has no slot in use. -/
def Lone (pool : SubpagePool) : Prop :=
  ∀ key key' p p', pool.get? key = some p → pool.get? key' = some p' → p.isEmpty = true →
    p'.isEmpty = true → key = key'

/-- What every pool satisfies in between two requests. -/
structure Tidy (pool : SubpagePool) : Prop extends Filed pool where
  lone : pool.Lone

theorem tidy_empty (elemSize : Nat) : (empty elemSize).Tidy where
  files := ⟨fun _ => ⟨[], Chain.spells_empty _, by simp [SubpagePool.roomAt?, empty, Nodes.value?,
    Slab.empty, Slab.at?]⟩, fun i link hLink => by
      simp [empty, Nodes.link?, Slab.empty, Slab.at?] at hLink⟩
  counted := Slab.counted_empty
  lone key key' p p' hFound := by simp [empty, get?] at hFound

theorem update_unit (c c' : Chain) : Function.update (fun _ : Unit => c) () c' = fun _ => c' :=
  funext fun _ => Function.update_self ..

/-- A subpage joins the available ones. -/
theorem filed_link (pool : SubpagePool)
    (h : Chain.Files (fun _ : Unit => pool.available) pool.subpages place)
    (hCounted : pool.subpages.Counted) (hValue : pool.subpages.value? i = some p)
    (hNone : place i = none) (hPlace : pool.roomAt? = Function.update place i (some ())) :
    (pool.link i).Filed := by
  obtain ⟨link, hLink⟩ : ∃ link, pool.subpages.link? i = some link :=
    Option.isSome_iff_exists.mp (by rw [← Nodes.isSome_value?, hValue]; rfl)
  obtain ⟨chain, subpages, hPush, hFiles⟩ := h.pushFront hNone hLink ()
  have hAfter : pool.link i = { pool with available := chain, subpages } := by
    simp only [SubpagePool.link, hPush]
  rw [update_unit] at hFiles
  rw [hAfter]
  refine ⟨?_, Chain.counted_pushFront hCounted hPush⟩
  rw [roomAt?_of_relinked (Chain.relinked_pushFront hPush), hPlace]
  exact hFiles

/-- A subpage leaves the available ones. -/
theorem filed_unlink (pool : SubpagePool)
    (h : Chain.Files (fun _ : Unit => pool.available) pool.subpages place)
    (hCounted : pool.subpages.Counted) (hSome : place i = some ()) :
    Chain.Files (fun _ : Unit => (pool.unlink i).available) (pool.unlink i).subpages
        (Function.update place i none) ∧
      (pool.unlink i).subpages.Counted ∧ (pool.unlink i).roomAt? = pool.roomAt? := by
  obtain ⟨chain, subpages, hUnlink, hFiles⟩ := h.unlink hSome
  have hAfter : pool.unlink i = { pool with available := chain, subpages } := by
    simp only [SubpagePool.unlink, hUnlink]
  rw [update_unit] at hFiles
  rw [hAfter]
  exact ⟨hFiles, Chain.counted_unlink hCounted hUnlink,
    roomAt?_of_relinked (Chain.relinked_unlink hUnlink)⟩

/-- The links do not notice another subpage in place of one. -/
theorem Filed.files_putValue (h : pool.Filed) (i : Nat) (q : Subpage) :
    Chain.Files (fun _ : Unit => pool.available) (pool.subpages.putValue i q) pool.roomAt? :=
  h.files.congr (fun _ => Nodes.link?_putValue ..) fun _ => rfl

/-- A subpage that has room as before, or none as before, may take the place of one. -/
theorem Filed.putValue (h : pool.Filed) (hValue : pool.subpages.value? i = some p)
    (hRoom : q.numFree = 0 ↔ p.numFree = 0) :
    Filed { pool with subpages := pool.subpages.putValue i q } := by
  refine ⟨?_, Nodes.counted_putValue h.counted i q⟩
  have hSame : Function.update pool.roomAt? i (if q.numFree = 0 then none else some ()) =
      pool.roomAt? := by
    rw [Function.update_eq_self_iff, roomAt?_of_value? hValue]
    simp only [hRoom]
  rw [roomAt?_putValue hValue, hSame]
  exact h.files_putValue i q

-- ---------------------------------------------------------------------------
-- At most one empty subpage
-- ---------------------------------------------------------------------------

/-- A change under one key adds no empty subpage if what it puts there is not empty. -/
theorem Lone.update (h : pool.Lone) (hUpdates : pool.Updates key found after)
    (hFound : ∀ q, found = some q → q.isEmpty = false) : after.Lone := by
  have hBefore : ∀ {other p}, after.get? other = some p → p.isEmpty = true →
      pool.get? other = some p := by
    intro other p hHere hEmpty
    rw [hUpdates.get?] at hHere
    split at hHere
    · rw [hFound p hHere] at hEmpty
      exact absurd hEmpty (by simp)
    · exact hHere
  intro key₁ key₂ p₁ p₂ h₁ h₂ hEmpty₁ hEmpty₂
  exact h key₁ key₂ p₁ p₂ (hBefore h₁ hEmpty₁) (hBefore h₂ hEmpty₂) hEmpty₁ hEmpty₂

/-- Where one subpage alone has room, one at most is empty. -/
theorem Filed.lone_of_length (h : pool.Filed) (hLength : pool.available.length = 1)
    (hSlots : ∀ key p, pool.get? key = some p → 0 < p.maxElems) : pool.Lone := by
  obtain ⟨i, hAlone⟩ : ∃ i, pool.available.toList pool.subpages = [i] :=
    List.length_eq_one_iff.mp ((h.files.spells_toList ()).length.symm.trans hLength)
  have hIndex : ∀ key p, pool.get? key = some p → p.isEmpty = true → key.index = i := by
    intro key p hFound hEmpty
    have hSome := hSlots key p hFound
    have hRoom : p.numFree ≠ 0 := by
      rw [Subpage.isEmpty, beq_iff_eq] at hEmpty
      omega
    have hMem : key.index ∈ pool.available.toList pool.subpages := by
      rw [h.files.mem_toList (k := ()), roomAt?_of_value? (Nodes.value?_of_find? hFound),
        if_neg hRoom]
    simpa [hAlone] using hMem
  intro key key' p p' hFound hFound' hEmpty hEmpty'
  exact Nodes.key_eq_of_index_eq hFound hFound'
    ((hIndex key p hFound hEmpty).trans (hIndex key' p' hFound' hEmpty').symm)

/-- The subpages that a pool has are as many as it counts. -/
theorem Filed.length_toList (h : pool.Filed) (hSlab : pool.subpages.Sound) :
    pool.toList.length = pool.size := by
  rw [toList, List.length_map, hSlab.length_entries h.counted, size]

/-- A pool without a slot in use has one subpage at most. -/
theorem Tidy.length_toList_le_one (h : pool.Tidy)
    (hEmpty : ∀ p ∈ pool.toList, p.isEmpty = true) : pool.toList.length ≤ 1 := by
  have hOne : ∀ e ∈ pool.subpages.entries, ∀ e' ∈ pool.subpages.entries, e.1 = e'.1 := by
    intro e he e' he'
    have hBlank : ∀ entry ∈ pool.subpages.entries, entry.2.value.isEmpty = true :=
      fun entry hEntry => hEmpty _ (List.mem_map.mpr ⟨entry, hEntry, rfl⟩)
    exact h.lone e.1 e'.1 _ _ (get?_of_mem_entries he) (get?_of_mem_entries he') (hBlank e he)
      (hBlank e' he')
  have hApart := pool.subpages.pairwise_entries
  rw [toList, List.length_map]
  cases hEntries : pool.subpages.entries with
  | nil => exact Nat.zero_le 1
  | cons e rest =>
    cases rest with
    | nil => exact Nat.le_refl 1
    | cons e' later =>
      rw [hEntries] at hOne hApart
      have hNe := (List.pairwise_cons.mp hApart).1 e' List.mem_cons_self
      exact absurd (congrArg Slab.Key.index (hOne e List.mem_cons_self e'
        (List.mem_cons_of_mem _ List.mem_cons_self))) hNe

-- ---------------------------------------------------------------------------
-- Slots out of the pool
-- ---------------------------------------------------------------------------

/-- A slot is taken, and the subpage leaves the available ones if that was its last free one. -/
theorem Filed.takeAt (h : pool.Filed) (hTake : pool.takeAt? i = some (block, after)) :
    after.Filed := by
  simp only [takeAt?, Option.bind_eq_bind, Option.bind_eq_some_iff, Prod.exists] at hTake
  obtain ⟨p, hValue, taken, q, hSlot, hAfter⟩ := hTake
  simp only [Option.pure_def, Option.some.injEq, Prod.mk.injEq] at hAfter
  obtain ⟨-, rfl⟩ := hAfter
  obtain ⟨hSome, hFree⟩ := Subpage.numFree_of_take hSlot
  split
  · rename_i hFull
    have hRoom : pool.roomAt? i = some () := by rw [roomAt?_of_value? hValue, if_neg hSome]
    obtain ⟨hFiles, hCounted, hPlace⟩ := filed_unlink
      { pool with subpages := pool.subpages.putValue i q } (h.files_putValue i q)
      (Nodes.counted_putValue h.counted i q) hRoom
    refine ⟨?_, hCounted⟩
    rw [hPlace, roomAt?_putValue hValue, if_pos hFull]
    exact hFiles
  · rename_i hLeft
    exact h.putValue hValue (by omega)

/-- The pool is in order after a slot was handed out. -/
theorem Tidy.of_updates (h : pool.Tidy) (hFiled : after.Filed)
    (hUpdates : pool.Updates key found after)
    (hFound : ∀ q, found = some q → q.isEmpty = false) : after.Tidy :=
  ⟨hFiled, h.lone.update hUpdates hFound⟩

theorem Tidy.take (h : pool.Tidy) (hSlab : pool.subpages.Sound)
    (hSound : ∀ key p, pool.get? key = some p → p.Sound pageSize)
    (hTake : pool.take? = some (block, after)) : after.Tidy := by
  obtain ⟨key, p, q, hFound, hSlot, hUpdates⟩ := take?_eq_some hSlab hTake
  obtain ⟨index, -, hTakeAt⟩ := Option.bind_eq_some_iff.mp hTake
  refine h.of_updates (h.toFiled.takeAt hTakeAt) hUpdates fun q' hq' => ?_
  obtain rfl : q = q' := by simpa using hq'
  exact (hSound key p hFound).isEmpty_take hSlot

/-- A subpage that comes in is available. -/
theorem Filed.insert (h : pool.Filed) (hSlab : pool.subpages.Sound) (hRoom : p.numFree ≠ 0) :
    (pool.insert p).2.Filed := by
  have hNone : pool.roomAt? pool.subpages.nextKey.index = none := by
    rw [SubpagePool.roomAt?, Nodes.value?_nextKey hSlab]
    rfl
  have hValue : (pool.subpages.insertValue p).2.value? pool.subpages.nextKey.index = some p := by
    rw [Nodes.value?_insertValue hSlab, if_pos rfl]
  have hKey : (pool.subpages.insertValue p).1.index = pool.subpages.nextKey.index := by
    rw [Nodes.insertValue_fst]
  rw [SubpagePool.insert]
  dsimp only
  rw [hKey]
  refine filed_link { pool with subpages := (pool.subpages.insertValue p).2 }
    (h.files.insertValue hSlab hNone p) (h.counted.insert _) hValue hNone (funext fun j => ?_)
  rw [SubpagePool.roomAt?, Nodes.value?_insertValue hSlab]
  by_cases hj : j = pool.subpages.nextKey.index
  · simp [hj, hRoom]
  · simp [hj, SubpagePool.roomAt?]

/-- A subpage comes in and a slot of it goes out at once. -/
theorem Tidy.insert_take (h : pool.Tidy) (hSlab : pool.subpages.Sound) (hSub : p.Sound pageSize)
    (hRoom : p.numFree ≠ 0)
    (hTake : (pool.insert p).2.takeIn? (pool.insert p).1 = some (block, after)) : after.Tidy := by
  obtain ⟨hKey, -, hInsert⟩ := updates_insert hSlab p
  obtain ⟨p', q, hFound, hSlot, hUpdates⟩ := takeIn?_eq_some hInsert.slab hTake
  obtain ⟨-, -, hTakeAt⟩ := Option.bind_eq_some_iff.mp hTake
  rw [hKey] at hFound hUpdates
  obtain rfl : p = p' := by simpa [hInsert.get?] using hFound
  refine h.of_updates ((h.toFiled.insert hSlab hRoom).takeAt hTakeAt) (hInsert.trans hUpdates)
    fun q' hq' => ?_
  obtain rfl : q = q' := by simpa using hq'
  exact hSub.isEmpty_take hSlot

-- ---------------------------------------------------------------------------
-- Slots back into the pool
-- ---------------------------------------------------------------------------

/-- A subpage that is not available goes. -/
theorem filed_remove (hFiles : Chain.Files (fun _ : Unit => pool.available) pool.subpages place)
    (hCounted : pool.subpages.Counted) (hSlab : pool.subpages.Sound) {node : Node Subpage}
    {rest : Nodes Subpage} (hRemove : pool.subpages.remove key = some (node, rest))
    (hNone : place key.index = none) (hPlace : ∀ j, j ≠ key.index → place j = pool.roomAt? j) :
    Filed { pool with subpages := rest } := by
  refine ⟨(hFiles.remove hRemove hNone).congr (fun _ => rfl) fun j => ?_,
    hCounted.remove hSlab hRemove⟩
  rw [SubpagePool.roomAt?, Nodes.value?_remove hRemove]
  by_cases hj : j = key.index
  · rw [if_pos hj, hj, hNone]
    rfl
  · rw [if_neg hj, hPlace j hj]
    rfl

/-- A subpage that had no free slot and has one now becomes available. -/
theorem Filed.putValue_link (h : pool.Filed) (hFound : pool.get? key = some p)
    (hFull : p.numFree = 0) (hRoom : q.numFree ≠ 0) :
    (SubpagePool.link { pool with subpages := pool.subpages.putValue key.index q }
      key.index).Filed := by
  have hValue := Nodes.value?_of_find? hFound
  refine filed_link { pool with subpages := pool.subpages.putValue key.index q } (p := q)
    (h.files_putValue key.index q) (Nodes.counted_putValue h.counted key.index q) ?_ ?_ ?_
  · rw [Nodes.value?_putValue, hValue, if_pos ⟨rfl, rfl⟩]
  · rw [roomAt?_of_value? hValue, if_pos hFull]
  · rw [roomAt?_putValue hValue, if_neg hRoom]

/-- A subpage that was available leaves the chain first, and then the pool. -/
theorem Filed.putValue_unlink_remove (h : pool.Filed) (hSlab : pool.subpages.Sound)
    (hFound : pool.get? key = some p) (hSome : p.numFree ≠ 0) {node : Node Subpage}
    {rest : Nodes Subpage}
    (hRemove : (SubpagePool.unlink { pool with subpages := pool.subpages.putValue key.index q }
      key.index).subpages.remove key = some (node, rest)) :
    Filed { SubpagePool.unlink { pool with subpages := pool.subpages.putValue key.index q }
      key.index with subpages := rest } := by
  have hValue := Nodes.value?_of_find? hFound
  have hGone := (updates_putValue hSlab hFound q).unlink key.index
  obtain ⟨hUnlinked, hCounted, hPlace⟩ := filed_unlink
    { pool with subpages := pool.subpages.putValue key.index q }
    (h.files_putValue key.index q) (Nodes.counted_putValue h.counted key.index q)
    (i := key.index) (by rw [roomAt?_of_value? hValue, if_neg hSome])
  refine filed_remove hUnlinked hCounted hGone.slab hRemove (Function.update_self ..) fun j hj => ?_
  rw [hPlace, roomAt?_putValue hValue, Function.update_of_ne hj, Function.update_of_ne hj]

/-- A slot comes back. A subpage that had no free slot becomes available, and one without a slot in
use goes, unless it is the only available one. -/
theorem Tidy.give (h : pool.Tidy) (hSlab : pool.subpages.Sound)
    (hSlots : ∀ key p, pool.get? key = some p → p.Sound pageSize ∧ 2 ≤ p.maxElems) {stays : Bool}
    (hGive : pool.give key handle = .ok (stays, after)) : after.Tidy := by
  obtain ⟨slot, p, q, put, -, hFound, -, hQ, rfl, hCases⟩ := give_cases hSlab hGive
  obtain ⟨hSub, hTwo⟩ := hSlots key p hFound
  obtain ⟨-, -, hVacates⟩ := hSub.give hQ
  have hElems := hVacates.page.maxElems
  have hFree := Subpage.numFree_of_give hQ
  have hPut := updates_putValue hSlab hFound q
  rcases hCases with ⟨hFirst, -, rfl⟩ | ⟨hFirst, hStays, -, rfl⟩ |
    ⟨hFirst, -, -, node, rest, hRemove, rfl⟩
  · -- there are two slots at least, so one that was full is not empty now
    refine h.of_updates (h.toFiled.putValue_link hFound (by omega) (by omega))
      (hPut.link key.index) fun q' hq' => ?_
    obtain rfl : q = q' := by simpa using hq'
    simp only [Subpage.isEmpty, beq_eq_false_iff_ne]
    omega
  · have hFiled := h.toFiled.putValue (q := q) (Nodes.value?_of_find? hFound) (by omega)
    rcases hStays with hUsed | hAlone
    · refine h.of_updates hFiled hPut fun q' hq' => ?_
      obtain rfl : q = q' := by simpa using hq'
      exact hUsed
    · refine ⟨hFiled, hFiled.lone_of_length hAlone fun other p' hFound' => ?_⟩
      rw [hPut.get?] at hFound'
      split at hFound'
      · obtain rfl : q = p' := by simpa using hFound'
        omega
      · have := (hSlots other p' hFound').2
        omega
  · exact h.of_updates (h.toFiled.putValue_unlink_remove hSlab hFound (by omega) hRemove)
      ((hPut.unlink key.index).remove hRemove) (by simp)

end SubpagePool

end BlockPool
