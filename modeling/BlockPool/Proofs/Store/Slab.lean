import BlockPool.Store.Slab
import Mathlib

/-!
# BlockPool — slabs as keyed stores

What a slab holds is read through two views: the value in a slot (`Slab.at?`) and the generation of
a slot (`Slab.generationAt`). Looking up a key asks both. Each operation is stated once on the views
and once on the keys; the list of vacant slots is exact, so a value never lands on another.

* `Slab.Sound` — the vacant slots are exactly those without a value, each once.
* `Slab.get?_insert`, `Slab.get?_putAt`, `Slab.get?_remove` — which key finds what afterwards.
-/

namespace BlockPool.Slab

variable {α : Type} {s t : Slab α} {key other : Key} {value : α} {i : Nat}

-- ---------------------------------------------------------------------------
-- The two views
-- ---------------------------------------------------------------------------

/-- A key finds the value in its slot if the slot is still in the key's generation. -/
theorem get?_eq (s : Slab α) (key : Key) :
    s.get? key = if s.generationAt key.index = key.generation then s.at? key.index else none := by
  unfold get? generationAt at?
  cases s.slots[key.index]? <;> simp

theorem get?_eq_some_iff :
    s.get? key = some value ↔
      s.at? key.index = some value ∧ s.generationAt key.index = key.generation := by
  rw [get?_eq]
  split <;> simp_all

theorem at?_eq_none_of_size_le (h : s.slots.size ≤ i) : s.at? i = none := by
  simp [at?, Array.getElem?_eq_none h]

theorem lt_size_of_at? (h : s.at? i = some value) : i < s.slots.size := by
  by_contra hGe
  rw [at?_eq_none_of_size_le (by omega)] at h
  exact absurd h (by simp)

theorem at?_of_get? (h : s.get? key = some value) : s.at? key.index = some value :=
  (get?_eq_some_iff.mp h).1

/-- The key of a value in a slot is made of the slot and its generation. -/
theorem keyAt?_eq (s : Slab α) (i : Nat) :
    s.keyAt? i = (s.at? i).map fun _ => ⟨i, s.generationAt i⟩ := by
  unfold keyAt? at? generationAt
  cases s.slots[i]? with
  | none => rfl
  | some slot =>
    obtain ⟨stored, generation⟩ := slot
    cases stored <;> rfl

/-- Two keys that both find something in one slot are the same key. -/
theorem key_eq_of_index_eq {value' : α} (h : s.get? key = some value)
    (h' : s.get? other = some value') (hIndex : key.index = other.index) : key = other := by
  have hGen := (get?_eq_some_iff.mp h).2
  have hGen' := (get?_eq_some_iff.mp h').2
  cases key
  cases other
  simp_all

-- ---------------------------------------------------------------------------
-- Soundness
-- ---------------------------------------------------------------------------

/-- The vacant slots are exactly the slots without a value, and none is listed twice. -/
structure Sound (s : Slab α) : Prop where
  nodup : s.vacant.Nodup
  mem_vacant : ∀ i, i ∈ s.vacant ↔ i < s.slots.size ∧ s.at? i = none

theorem sound_empty : (empty : Slab α).Sound where
  nodup := List.nodup_nil
  mem_vacant i := by simp [empty]

@[simp] theorem get?_empty (key : Key) : (empty : Slab α).get? key = none := by
  simp [empty, get?]

/-- The slot of the next key holds nothing. -/
theorem Sound.at?_nextKey (h : s.Sound) : s.at? s.nextKey.index = none := by
  unfold nextKey
  split
  · rename_i index rest hVacant
    exact ((h.mem_vacant index).mp (by simp [hVacant])).2
  · exact at?_eq_none_of_size_le (Nat.le_refl _)

theorem Sound.get?_nextKey (h : s.Sound) : s.get? s.nextKey = none := by
  rw [get?_eq, h.at?_nextKey, ite_self]

theorem generationAt_nextKey (s : Slab α) :
    s.generationAt s.nextKey.index = s.nextKey.generation := by
  unfold nextKey
  split
  · rfl
  · simp [generationAt]

-- ---------------------------------------------------------------------------
-- Storing a value
-- ---------------------------------------------------------------------------

theorem insert_fst (s : Slab α) (value : α) : (s.insert value).1 = s.nextKey := by
  unfold insert nextKey
  split <;> simp_all

theorem insert_of_cons {index : Nat} {rest : List Nat} (hVacant : s.vacant = index :: rest)
    (value : α) :
    (s.insert value).2 =
      { slots := s.slots.setIfInBounds index ⟨some value, s.generationAt index⟩
        vacant := rest
        size := s.size + 1 } := by
  simp [insert, hVacant]

theorem insert_of_nil (hVacant : s.vacant = []) (value : α) :
    (s.insert value).2 =
      { slots := s.slots.push ⟨some value, 0⟩, vacant := [], size := s.size + 1 } := by
  simp [insert, hVacant]

theorem nextKey_of_cons {index : Nat} {rest : List Nat} (hVacant : s.vacant = index :: rest) :
    s.nextKey = ⟨index, s.generationAt index⟩ := by
  simp [nextKey, hVacant]

theorem nextKey_of_nil (hVacant : s.vacant = []) : s.nextKey = ⟨s.slots.size, 0⟩ := by
  simp [nextKey, hVacant]

theorem Sound.at?_insert (h : s.Sound) (value : α) (i : Nat) :
    (s.insert value).2.at? i = if i = s.nextKey.index then some value else s.at? i := by
  cases hVacant : s.vacant with
  | nil =>
    rw [insert_of_nil hVacant, nextKey_of_nil hVacant, at?, at?, Array.getElem?_push]
    by_cases hi : i = s.slots.size <;> simp [hi]
  | cons index rest =>
    have hLt : index < s.slots.size := ((h.mem_vacant index).mp (by simp [hVacant])).1
    rw [insert_of_cons hVacant, nextKey_of_cons hVacant, at?, at?, Array.getElem?_setIfInBounds]
    by_cases hi : i = index
    · simp [hi, hLt]
    · simp [hi, Ne.symm hi]

theorem generationAt_insert (s : Slab α) (value : α) (i : Nat) :
    (s.insert value).2.generationAt i = s.generationAt i := by
  cases hVacant : s.vacant with
  | nil =>
    rw [insert_of_nil hVacant, generationAt, generationAt, Array.getElem?_push]
    by_cases hi : i = s.slots.size <;> simp [hi]
  | cons index rest =>
    rw [insert_of_cons hVacant, generationAt, Array.getElem?_setIfInBounds]
    by_cases hi : index = i
    · subst hi
      by_cases hLt : index < s.slots.size <;> simp [hLt, generationAt]
    · simp [hi, generationAt]

theorem size_slots_le_insert (s : Slab α) (value : α) :
    s.slots.size ≤ (s.insert value).2.slots.size := by
  cases hVacant : s.vacant with
  | nil =>
    rw [insert_of_nil hVacant, Array.size_push]
    exact Nat.le_succ _
  | cons index rest => rw [insert_of_cons hVacant, Array.size_setIfInBounds]

/-- After storing a value the next key finds it, and every other key finds what it found. -/
theorem Sound.get?_insert (h : s.Sound) (value : α) (key : Key) :
    (s.insert value).2.get? key = if key = s.nextKey then some value else s.get? key := by
  rw [get?_eq, get?_eq, generationAt_insert, h.at?_insert]
  by_cases hKey : key = s.nextKey
  · simp [hKey, generationAt_nextKey]
  · rw [if_neg hKey]
    by_cases hIndex : key.index = s.nextKey.index
    · have hGen : s.generationAt key.index ≠ key.generation := by
        intro hGen
        apply hKey
        have := generationAt_nextKey s
        rw [← hIndex, hGen] at this
        cases key
        cases hNext : s.nextKey
        simp_all
      rw [if_neg hGen, if_neg hGen]
    · rw [if_neg hIndex]

/-- A value takes the slot that was vacated last, or a new one at the end. -/
theorem Sound.insert (h : s.Sound) (value : α) : (s.insert value).2.Sound := by
  have hAt := h.at?_insert value
  cases hVacant : s.vacant with
  | nil =>
    rw [insert_of_nil hVacant, nextKey_of_nil hVacant] at *
    refine ⟨List.nodup_nil, fun i => ?_⟩
    have hMem := h.mem_vacant i
    rw [hVacant] at hMem
    rw [hAt i, Array.size_push]
    by_cases hi : i = s.slots.size
    · simp [hi]
    · simp only [List.not_mem_nil, false_iff, not_and] at hMem ⊢
      intro hLt
      rw [if_neg hi]
      exact hMem (by omega)
  | cons index rest =>
    rw [insert_of_cons hVacant, nextKey_of_cons hVacant] at *
    have hNodup := h.nodup
    rw [hVacant, List.nodup_cons] at hNodup
    refine ⟨hNodup.2, fun i => ?_⟩
    have hMem := h.mem_vacant i
    rw [hVacant, List.mem_cons] at hMem
    rw [hAt i, Array.size_setIfInBounds]
    by_cases hi : i = index
    · simp [hi, hNodup.1]
    · simpa [hi] using hMem

-- ---------------------------------------------------------------------------
-- Putting a value in place of another
-- ---------------------------------------------------------------------------

theorem putAt_eq_self (h : s.at? i = none) (value : α) : s.putAt i value = s := by
  unfold putAt
  split
  · rename_i old generation hSlot
    simp [at?, hSlot] at h
  · rfl

theorem putAt_eq (h : (s.at? i).isSome) (value : α) :
    s.putAt i value =
      { s with slots := s.slots.setIfInBounds i ⟨some value, s.generationAt i⟩ } := by
  unfold putAt generationAt
  unfold at? at h
  cases hSlot : s.slots[i]? with
  | none => simp [hSlot] at h
  | some slot =>
    obtain ⟨stored, generation⟩ := slot
    cases stored with
    | none => simp [hSlot] at h
    | some old => rfl

theorem vacant_putAt (s : Slab α) (i : Nat) (value : α) : (s.putAt i value).vacant = s.vacant := by
  unfold putAt
  split <;> rfl

theorem size_slots_putAt (s : Slab α) (i : Nat) (value : α) :
    (s.putAt i value).slots.size = s.slots.size := by
  unfold putAt
  split
  · simp
  · rfl

theorem generationAt_putAt (s : Slab α) (i : Nat) (value : α) (j : Nat) :
    (s.putAt i value).generationAt j = s.generationAt j := by
  by_cases h : (s.at? i).isSome
  · rw [putAt_eq h]
    unfold generationAt
    simp only [Array.getElem?_setIfInBounds]
    by_cases hij : i = j
    · subst hij
      by_cases hLt : i < s.slots.size <;> simp [hLt]
    · simp [hij]
  · rw [putAt_eq_self (by simpa using h)]

theorem at?_putAt (s : Slab α) (i : Nat) (value : α) (j : Nat) :
    (s.putAt i value).at? j = if j = i ∧ (s.at? i).isSome then some value else s.at? j := by
  by_cases h : (s.at? i).isSome
  · rw [putAt_eq h]
    obtain ⟨old, hOld⟩ := Option.isSome_iff_exists.mp h
    have hLt := lt_size_of_at? hOld
    rw [hOld, at?, at?, Array.getElem?_setIfInBounds]
    by_cases hij : i = j
    · simp [hij, hij ▸ hLt]
    · simp [hij, Ne.symm hij]
  · rw [putAt_eq_self (by simpa using h)]
    simp [h]

/-- Putting a value under a key changes what that key finds and no other. -/
theorem get?_putAt (h : s.get? key = some value) (new : α) (other : Key) :
    (s.putAt key.index new).get? other = if other = key then some new else s.get? other := by
  have hAt := at?_of_get? h
  rw [get?_eq, get?_eq, generationAt_putAt, at?_putAt]
  by_cases hKey : other = key
  · simp [hKey, hAt, (get?_eq_some_iff.mp h).2]
  · rw [if_neg hKey]
    by_cases hIndex : other.index = key.index
    · have hGen : s.generationAt other.index ≠ other.generation := by
        intro hGen
        apply hKey
        rw [hIndex, (get?_eq_some_iff.mp h).2] at hGen
        cases other
        cases key
        simp_all
      rw [if_neg hGen, if_neg hGen]
    · simp [hIndex]

theorem Sound.putAt (h : s.Sound) (i : Nat) (value : α) : (s.putAt i value).Sound where
  nodup := by
    rw [vacant_putAt]
    exact h.nodup
  mem_vacant j := by
    rw [vacant_putAt, size_slots_putAt, h.mem_vacant, at?_putAt]
    by_cases hSome : j = i ∧ (s.at? i).isSome
    · obtain ⟨rfl, hIs⟩ := hSome
      obtain ⟨old, hOld⟩ := Option.isSome_iff_exists.mp hIs
      simp [hOld]
    · rw [if_neg hSome]

-- ---------------------------------------------------------------------------
-- Taking a value
-- ---------------------------------------------------------------------------

/-- A value can be taken exactly under a key that finds it. -/
theorem remove_eq_some (h : s.remove key = some (value, t)) :
    s.get? key = some value ∧
      t = { slots := s.slots.setIfInBounds key.index ⟨none, key.generation + 1⟩
            vacant := key.index :: s.vacant
            size := s.size - 1 } := by
  rw [remove] at h
  split at h
  · exact absurd h (by simp)
  · simp only [Option.some.injEq, Prod.mk.injEq] at h
    rename_i found hFound
    exact ⟨hFound.trans (by rw [h.1]), h.2.symm⟩

theorem exists_remove (h : s.get? key = some value) : ∃ t, s.remove key = some (value, t) := by
  simp [remove, h]

theorem remove_eq_none_iff : s.remove key = none ↔ s.get? key = none := by
  unfold remove
  cases s.get? key <;> simp

theorem at?_remove (h : s.remove key = some (value, t)) (i : Nat) :
    t.at? i = if i = key.index then none else s.at? i := by
  obtain ⟨hGet, rfl⟩ := remove_eq_some h
  unfold at?
  simp only [Array.getElem?_setIfInBounds]
  by_cases hi : i = key.index
  · by_cases hLt : key.index < s.slots.size <;> simp [hi, hLt]
  · simp [hi, Ne.symm hi]

/-- The slot that a value was taken from is in the next generation. -/
theorem generationAt_remove (h : s.remove key = some (value, t)) (i : Nat) :
    t.generationAt i = if i = key.index then key.generation + 1 else s.generationAt i := by
  obtain ⟨hFound, rfl⟩ := remove_eq_some h
  have hLt := lt_size_of_at? (at?_of_get? hFound)
  unfold generationAt
  simp only [Array.getElem?_setIfInBounds]
  by_cases hi : i = key.index
  · simp [hi, hLt]
  · simp [hi, Ne.symm hi]

theorem size_slots_remove (h : s.remove key = some (value, t)) :
    t.slots.size = s.slots.size := by
  obtain ⟨-, rfl⟩ := remove_eq_some h
  exact Array.size_setIfInBounds

/-- After a value was taken its key finds nothing, and every other key finds what it found. -/
theorem get?_remove (h : s.remove key = some (value, t)) (other : Key) :
    t.get? other = if other = key then none else s.get? other := by
  have hAt := at?_remove h other.index
  obtain ⟨hGet, -⟩ := remove_eq_some h
  by_cases hIndex : other.index = key.index
  · rw [get?_eq t, hAt, if_pos hIndex, ite_self]
    by_cases hKey : other = key
    · rw [if_pos hKey]
    · rw [if_neg hKey]
      cases hOther : s.get? other with
      | none => rfl
      | some found => exact absurd (key_eq_of_index_eq hOther hGet hIndex) hKey
  · have hKey : other ≠ key := fun hEq => hIndex (by rw [hEq])
    rw [if_neg hKey, get?_eq, get?_eq, hAt, if_neg hIndex, generationAt_remove h, if_neg hIndex]

theorem Sound.remove (h : s.Sound) (hRemove : s.remove key = some (value, t)) : t.Sound := by
  have hAt := at?_remove hRemove
  obtain ⟨hGet, rfl⟩ := remove_eq_some hRemove
  have hOld := at?_of_get? hGet
  have hNot : key.index ∉ s.vacant := by
    rw [h.mem_vacant, hOld]
    simp
  refine ⟨List.nodup_cons.mpr ⟨hNot, h.nodup⟩, fun i => ?_⟩
  rw [List.mem_cons, h.mem_vacant, hAt i, Array.size_setIfInBounds]
  by_cases hi : i = key.index
  · simp [hi, lt_size_of_at? hOld]
  · simp [hi]

end BlockPool.Slab
