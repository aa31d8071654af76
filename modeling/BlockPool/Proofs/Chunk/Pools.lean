import BlockPool.Chunk.Basic
import BlockPool.Proofs.Chunk.Geometry
import BlockPool.Proofs.Chunk.Subpage

/-!
# BlockPool — the pools of all slot sizes

A leaf record names a subpage by its pool and its key there, so all pools together are one store
of subpages under records. The chunks of an arena share this store, and each sees in it only the
subpages that carry its own identity.

* `SubpagePools.subpageAt?` — the subpage under a record.
* `SubpagePools.Sound` — every subpage is sound and divided as its pool says.
* `SubpagePools.Beside` — only subpages of one chunk differ.
-/

namespace BlockPool.SubpagePools

variable {g : Geometry} {pools after : SubpagePools} {record : Chunk.LeafRecord} {id : ChunkId}
  {pool pool' : SubpagePool} {i : Nat} {key : Slab.Key} {p q : Subpage} {found : Option Subpage}
  {block : Block}

/-- The subpage under a record. -/
def subpageAt? (pools : SubpagePools) (record : Chunk.LeafRecord) : Option Subpage :=
  pools[record.pool]?.bind (·.get? record.key)

theorem subpageAt?_of_pool (hPool : pools[i]? = some pool) (key : Slab.Key) :
    subpageAt? pools ⟨i, key⟩ = pool.get? key := by
  simp [subpageAt?, hPool]

/-- What every reachable array of pools satisfies. -/
structure Sound (g : Geometry) (pools : SubpagePools) : Prop where
  size : pools.size = g.numPools
  slab : ∀ (i : Nat) (pool : SubpagePool), pools[i]? = some pool → pool.subpages.Sound
  subpage : ∀ record p, subpageAt? pools record = some p →
    p.Sound g.pageSize ∧ p.elemSize = Geometry.poolElemSize record.pool

theorem subpageAt?_empty (g : Geometry) (record : Chunk.LeafRecord) :
    subpageAt? (SubpagePools.empty g) record = none := by
  rw [subpageAt?, Option.bind_eq_none_iff]
  intro pool hPool
  obtain ⟨hLt, rfl⟩ := Array.getElem?_eq_some_iff.mp hPool
  simp only [SubpagePools.empty, Array.getElem_ofFn]
  exact Nodes.find?_empty _

theorem sound_empty (g : Geometry) : Sound g (SubpagePools.empty g) where
  size := Array.size_ofFn
  slab i pool hPool := by
    obtain ⟨hLt, rfl⟩ := Array.getElem?_eq_some_iff.mp hPool
    simp only [SubpagePools.empty, Array.getElem_ofFn]
    exact Slab.sound_empty
  subpage record p hFound := by
    rw [subpageAt?_empty] at hFound
    exact absurd hFound (by simp)

/-- The slots of a subpage have a carved size. -/
theorem Sound.carved (h : Sound g pools) (hg : g.WellFormed)
    (hFound : subpageAt? pools record = some p) : g.Carved p.elemSize := by
  obtain ⟨hSub, hElem⟩ := h.subpage record p hFound
  obtain ⟨pool, hPool, -⟩ := Option.bind_eq_some_iff.mp hFound
  obtain ⟨hLt, -⟩ := Array.getElem?_eq_some_iff.mp hPool
  rw [hElem]
  exact Geometry.carved_poolElemSize hg (h.size ▸ hLt) (hElem ▸ hSub.elemSize)

-- ---------------------------------------------------------------------------
-- One subpage changes
-- ---------------------------------------------------------------------------

/-- The pools after the subpage under one record was replaced, put in or taken out. -/
def Updates (pools : SubpagePools) (record : Chunk.LeafRecord) (found : Option Subpage)
    (after : SubpagePools) : Prop :=
  ∀ other, subpageAt? after other = if other = record then found else subpageAt? pools other

/-- A change in one pool is a change of the pools. -/
theorem updates_setPool (hPool : pools[i]? = some pool) (hUpdates : pool.Updates key found pool') :
    Updates pools ⟨i, key⟩ found (pools.setIfInBounds i pool') := by
  intro other
  obtain ⟨hLt, -⟩ := Array.getElem?_eq_some_iff.mp hPool
  rw [subpageAt?, subpageAt?, Array.getElem?_setIfInBounds]
  by_cases hi : i = other.pool
  · subst hi
    rw [if_pos rfl, if_pos hLt, Option.bind_some, hUpdates.get?, hPool, Option.bind_some]
    cases other
    simp
  · have hNe : other ≠ ⟨i, key⟩ := fun hEq => hi (by rw [hEq])
    rw [if_neg hi, if_neg hNe]

/-- One subpage of one pool is put in, changed or taken out, and the pools are sound as before. -/
theorem Sound.setPool (h : Sound g pools) (hPool : pools[i]? = some pool)
    (hUpdates : pool.Updates key found pool')
    (hFound : ∀ p, found = some p → p.Sound g.pageSize ∧ p.elemSize = Geometry.poolElemSize i) :
    Sound g (pools.setIfInBounds i pool') where
  size := by rw [Array.size_setIfInBounds, h.size]
  slab j other hOther := by
    rw [Array.getElem?_setIfInBounds] at hOther
    split at hOther
    · split at hOther
      · obtain rfl : pool' = other := by simpa using hOther
        exact hUpdates.slab
      · exact absurd hOther (by simp)
    · exact h.slab j other hOther
  subpage record p hp := by
    rw [updates_setPool hPool hUpdates record] at hp
    split at hp
    · rename_i hRecord
      rw [hRecord]
      exact hFound p hp
    · exact h.subpage record p hp

/-- A slot of the subpage under a record was handed out. -/
structure Serves (g : Geometry) (pools : SubpagePools) (record : Chunk.LeafRecord) (p : Subpage)
    (block : Block) (after : SubpagePools) : Prop where
  sound : Sound g after
  found : subpageAt? pools record = some p
  slot : ∃ q slot, p.Occupies slot q ∧ block = p.blockAt slot ∧ Updates pools record (some q) after

theorem Sound.serves (h : Sound g pools) (hPool : pools[i]? = some pool)
    (hFound : pool.get? key = some p) (hTake : p.take? = some (block, q))
    (hUpdates : pool.Updates key (some q) pool') :
    Serves g pools ⟨i, key⟩ p block (pools.setIfInBounds i pool') := by
  have hHere : subpageAt? pools ⟨i, key⟩ = some p := (subpageAt?_of_pool hPool key).trans hFound
  obtain ⟨hSound, hSize⟩ := h.subpage ⟨i, key⟩ p hHere
  obtain ⟨hSoundAfter, slot, hOccupies, hBlock⟩ := hSound.take hTake
  refine ⟨h.setPool hPool hUpdates ?_, hHere, q, slot, hOccupies, hBlock,
    updates_setPool hPool hUpdates⟩
  intro p' hp'
  obtain rfl : q = p' := by simpa using hp'
  exact ⟨hSoundAfter, hOccupies.page.elemSize.trans hSize⟩

/-- A block that a pool hands out is a slot of one of its subpages. -/
theorem Sound.exists_serves (h : Sound g pools) (hPool : pools[i]? = some pool)
    (hTake : pool.take? = some (block, pool')) :
    ∃ key p, Serves g pools ⟨i, key⟩ p block (pools.setIfInBounds i pool') := by
  obtain ⟨key, p, q, hFound, hSlot, hUpdates⟩ :=
    SubpagePool.take?_eq_some (h.slab i pool hPool) hTake
  exact ⟨key, p, h.serves hPool hFound hSlot hUpdates⟩

theorem Sound.exists_serves_in (h : Sound g pools) (hPool : pools[i]? = some pool)
    (hTake : pool.takeIn? key = some (block, pool')) :
    ∃ p, Serves g pools ⟨i, key⟩ p block (pools.setIfInBounds i pool') := by
  obtain ⟨p, q, hFound, hSlot, hUpdates⟩ :=
    SubpagePool.takeIn?_eq_some (h.slab i pool hPool) hTake
  exact ⟨p, h.serves hPool hFound hSlot hUpdates⟩

-- ---------------------------------------------------------------------------
-- What other chunks see
-- ---------------------------------------------------------------------------

/-- Only subpages of one chunk differ: those of every other chunk are found as before, and no
others are. -/
def Beside (id : ChunkId) (pools after : SubpagePools) : Prop :=
  ∀ record p, p.chunk ≠ id → (subpageAt? after record = some p ↔ subpageAt? pools record = some p)

theorem Beside.refl (id : ChunkId) (pools : SubpagePools) : Beside id pools pools :=
  fun _ _ _ => Iff.rfl

/-- A change under a record concerns only the chunk of the subpages that are found there. -/
theorem Updates.beside (h : Updates pools record found after)
    (hBefore : ∀ p, subpageAt? pools record = some p → p.chunk = id)
    (hAfter : ∀ p, found = some p → p.chunk = id) : Beside id pools after := by
  intro other p hNe
  rw [h other]
  split
  · rename_i hOther
    rw [hOther]
    exact ⟨fun hp => absurd (hAfter p hp) hNe, fun hp => absurd (hBefore p hp) hNe⟩
  · exact Iff.rfl

theorem Serves.beside (h : Serves g pools record p block after) : Beside p.chunk pools after := by
  obtain ⟨q, slot, hOccupies, -, hUpdates⟩ := h.slot
  refine hUpdates.beside (fun p' hp' => ?_) (fun q' hq' => ?_)
  · obtain rfl : p = p' := by simpa [h.found] using hp'
    rfl
  · obtain rfl : q = q' := by simpa using hq'
    exact hOccupies.page.chunk

end BlockPool.SubpagePools
