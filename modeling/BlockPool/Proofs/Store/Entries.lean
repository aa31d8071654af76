import BlockPool.Proofs.Store.Nodes

/-!
# BlockPool — what a slab holds, and how much

The entries of a slab are exactly its values under their keys. A slab keeps their number in a field
of its own; the number is exact as long as the values and the vacant slots together make up all
slots, which every operation keeps.

* `Slab.mem_entries` — an entry is a value under its key.
* `Slab.sorted_entries` — the entries are in the order of their slots.
* `Slab.Counted` — the values and the vacant slots are as many as the slots.
* `Slab.Sound.length_entries` — the size of a slab is the number of its entries.
-/

namespace BlockPool

namespace Slab

variable {α : Type} {s t : Slab α} {key : Key} {value : α} {i : Nat}

-- ---------------------------------------------------------------------------
-- Entries
-- ---------------------------------------------------------------------------

/-- An entry is a value under its key. -/
theorem mem_entries : (key, value) ∈ s.entries ↔ s.get? key = some value := by
  unfold entries get?
  simp only [List.mem_filterMap, Prod.exists, List.mem_zipIdx_iff_getElem?, Array.getElem?_toList,
    Option.map_eq_some_iff, Prod.mk.injEq]
  constructor
  · rintro ⟨slot, index, hSlot, stored, hStored, rfl, rfl⟩
    simp [hSlot, hStored]
  · intro hFound
    split at hFound
    · rename_i slot hSlot
      split at hFound
      · rename_i hGeneration
        refine ⟨slot, key.index, hSlot, value, hFound, ?_, rfl⟩
        rw [hGeneration]
      · exact absurd hFound (by simp)
    · exact absurd hFound (by simp)

/-- The entries are in the order of their slots. -/
theorem sorted_entries (s : Slab α) : s.entries.Pairwise fun e e' => e.1.index < e'.1.index := by
  have hSlots : s.slots.toList.zipIdx.Pairwise fun a b => a.2 < b.2 := by
    have hSorted : (s.slots.toList.zipIdx.map Prod.snd).Pairwise (· < ·) := by
      rw [List.zipIdx_map_snd]
      exact List.pairwise_lt_range'
    exact List.pairwise_map.mp hSorted
  refine List.pairwise_filterMap.mpr (hSlots.imp fun {a b} hLt e he e' he' => ?_)
  obtain ⟨-, -, rfl⟩ := Option.map_eq_some_iff.mp he
  obtain ⟨-, -, rfl⟩ := Option.map_eq_some_iff.mp he'
  exact hLt

/-- No two entries are in one slot. -/
theorem pairwise_entries (s : Slab α) : s.entries.Pairwise fun e e' => e.1.index ≠ e'.1.index :=
  s.sorted_entries.imp Nat.ne_of_lt

/-- The slots that hold a value, in order. -/
def indices (s : Slab α) : List Nat := s.entries.map fun entry => entry.1.index

theorem mem_indices : i ∈ s.indices ↔ (s.at? i).isSome = true := by
  rw [indices, List.mem_map]
  constructor
  · rintro ⟨⟨key, value⟩, hEntry, rfl⟩
    rw [at?_of_get? (mem_entries.mp hEntry)]
    rfl
  · intro hSome
    obtain ⟨value, hAt⟩ := Option.isSome_iff_exists.mp hSome
    exact ⟨(⟨i, s.generationAt i⟩, value), mem_entries.mpr (get?_eq_some_iff.mpr ⟨hAt, rfl⟩), rfl⟩

theorem nodup_indices (s : Slab α) : s.indices.Nodup := List.pairwise_map.mpr s.pairwise_entries

-- ---------------------------------------------------------------------------
-- The number of entries
-- ---------------------------------------------------------------------------

/-- The values, as the slab counts them, and the vacant slots are as many as the slots. -/
def Counted (s : Slab α) : Prop := s.size + s.vacant.length = s.slots.size

/-- The slots are those of the entries and the vacant ones. -/
theorem Sound.length_entries_add (h : s.Sound) :
    s.entries.length + s.vacant.length = s.slots.size := by
  have hAll : (s.indices ++ s.vacant).Perm (List.range s.slots.size) := by
    refine (List.perm_ext_iff_of_nodup ?_ List.nodup_range).mpr fun i => ?_
    · refine List.nodup_append.mpr ⟨s.nodup_indices, h.nodup, fun i hi j hj hEq => ?_⟩
      rw [mem_indices, hEq, ((h.mem_vacant j).mp hj).2] at hi
      exact absurd hi (by simp)
    · rw [List.mem_append, mem_indices, h.mem_vacant, List.mem_range]
      cases hAt : s.at? i with
      | none => simp
      | some value => simpa using lt_size_of_at? hAt
  simpa [indices] using hAll.length_eq

/-- The size of a slab is the number of its entries. -/
theorem Sound.length_entries (h : s.Sound) (hCounted : s.Counted) : s.entries.length = s.size := by
  have hAll := h.length_entries_add
  unfold Counted at hCounted
  omega

theorem counted_empty : (empty : Slab α).Counted := rfl

theorem Counted.insert (h : s.Counted) (value : α) : (s.insert value).2.Counted := by
  unfold Counted at h ⊢
  cases hVacant : s.vacant with
  | nil =>
    rw [hVacant] at h
    rw [insert_of_nil hVacant]
    simp only [Array.size_push, List.length_nil] at h ⊢
    omega
  | cons index rest =>
    rw [hVacant] at h
    rw [insert_of_cons hVacant]
    simp only [Array.size_setIfInBounds, List.length_cons] at h ⊢
    omega

theorem Counted.remove (h : s.Counted) (hSound : s.Sound)
    (hRemove : s.remove key = some (value, t)) : t.Counted := by
  obtain ⟨hFound, rfl⟩ := remove_eq_some hRemove
  have hSome := List.length_pos_of_mem (mem_entries.mpr hFound)
  rw [hSound.length_entries h] at hSome
  unfold Counted at h ⊢
  simp only [Array.size_setIfInBounds, List.length_cons]
  omega

theorem size_putAt (s : Slab α) (i : Nat) (value : α) : (s.putAt i value).size = s.size := by
  unfold putAt
  split <;> rfl

theorem Counted.putAt (h : s.Counted) (i : Nat) (value : α) : (s.putAt i value).Counted := by
  unfold Counted at h ⊢
  rw [size_putAt, vacant_putAt, size_slots_putAt, h]

theorem size_modifyAt (s : Slab α) (i : Nat) (f : α → α) : (s.modifyAt i f).size = s.size := by
  unfold modifyAt
  split
  · exact size_putAt ..
  · rfl

end Slab

-- ---------------------------------------------------------------------------
-- The number of nodes
-- ---------------------------------------------------------------------------

namespace Nodes

variable {α : Type} {nodes before after : Nodes α}

theorem SameKeys.counted (h : SameKeys before after) (hSize : after.size = before.size)
    (hCounted : before.Counted) : after.Counted := by
  unfold Slab.Counted at hCounted ⊢
  rw [h.vacant, h.slots, hSize, hCounted]

theorem size_modifyLink (nodes : Nodes α) (i : Nat) (f : Link → Link) :
    (nodes.modifyLink i f).size = nodes.size :=
  Slab.size_modifyAt ..

theorem size_putValue (nodes : Nodes α) (i : Nat) (value : α) :
    (nodes.putValue i value).size = nodes.size :=
  Slab.size_modifyAt ..

theorem counted_putValue (h : nodes.Counted) (i : Nat) (value : α) :
    (nodes.putValue i value).Counted :=
  (sameKeys_putValue ..).counted (size_putValue ..) h

end Nodes

namespace Chain

variable {α : Type} {c c' : Chain} {nodes after : Nodes α} {i : Nat}

theorem counted_pushFront (h : nodes.Counted) (hPush : c.pushFront nodes i = some (c', after)) :
    after.Counted := by
  refine (relinked_pushFront hPush).counted ?_ h
  unfold pushFront at hPush
  split at hPush
  · exact absurd hPush (by simp)
  · split at hPush
    · exact absurd hPush (by simp)
    · dsimp only at hPush
      split at hPush
      · split at hPush
        · obtain ⟨-, rfl⟩ := by simpa using hPush
          rw [Nodes.size_modifyLink, Nodes.size_modifyLink]
        · obtain ⟨-, rfl⟩ := by simpa using hPush
          rw [Nodes.size_modifyLink]
      · obtain ⟨-, rfl⟩ := by simpa using hPush
        rw [Nodes.size_modifyLink]

theorem size_joinForward (c : Chain) (nodes : Nodes α) (prev next : Option Nat) :
    (c.joinForward nodes prev next).2.size = nodes.size := by
  unfold joinForward
  split
  · split
    · exact Nodes.size_modifyLink ..
    · rfl
  · rfl

theorem size_joinBackward (c : Chain) (nodes : Nodes α) (prev next : Option Nat) :
    (c.joinBackward nodes prev next).2.size = nodes.size := by
  unfold joinBackward
  split
  · split
    · exact Nodes.size_modifyLink ..
    · rfl
  · rfl

theorem counted_unlink (h : nodes.Counted) (hUnlink : c.unlink nodes i = some (c', after)) :
    after.Counted := by
  refine (relinked_unlink hUnlink).counted ?_ h
  unfold unlink at hUnlink
  split at hUnlink
  · exact absurd hUnlink (by simp)
  · split at hUnlink
    · obtain ⟨-, rfl⟩ := by simpa using hUnlink
      rw [size_joinBackward, size_joinForward, Nodes.size_modifyLink]
    · exact absurd hUnlink (by simp)

end Chain

end BlockPool
