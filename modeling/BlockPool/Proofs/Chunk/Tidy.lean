import BlockPool.Proofs.Chunk.Available
import BlockPool.Proofs.Chunk.Outcomes
import BlockPool.Proofs.Chunk.Pools

/-!
# BlockPool — pools in order

Whichever pool a request goes through, and whichever chunk it is served from, every pool has its
available subpages chained and keeps at most one subpage without a slot in use. A page is never
divided into one slot only, so the return of a slot never finds its subpage both full and, a moment
later, empty.

* `SubpagePools.Tidy` — every pool is in order and serves the size of its place.
* `SubpagePools.Tidy.take`, `SubpagePools.Tidy.allocate`, `SubpagePools.Tidy.free` — and stays so.
-/

namespace BlockPool

namespace SubpagePools

variable {g : Geometry} {pools after : SubpagePools} {pool pool' : SubpagePool} {i size : Nat}
  {c c' : Chunk} {block : Block} {handle : Handle} {key : Slab.Key} {record : Chunk.LeafRecord}

/-- What the pools satisfy in between two requests. -/
structure Tidy (pools : SubpagePools) : Prop where
  pool : ∀ (i : Nat) (pool : SubpagePool), pools[i]? = some pool → pool.Tidy
  elemSize : ∀ (i : Nat) (pool : SubpagePool), pools[i]? = some pool →
    pool.elemSize = Geometry.poolElemSize i

theorem tidy_empty (g : Geometry) : Tidy (SubpagePools.empty g) where
  pool i pool hPool := by
    obtain ⟨hLt, rfl⟩ := Array.getElem?_eq_some_iff.mp hPool
    simp only [SubpagePools.empty, Array.getElem_ofFn]
    exact SubpagePool.tidy_empty _
  elemSize i pool hPool := by
    obtain ⟨hLt, rfl⟩ := Array.getElem?_eq_some_iff.mp hPool
    simp only [SubpagePools.empty, Array.getElem_ofFn]
    rfl

theorem Tidy.setPool (h : Tidy pools) (hPool : pools[i]? = some pool) (hTidy : pool'.Tidy)
    (hElem : pool'.elemSize = pool.elemSize) : Tidy (pools.setIfInBounds i pool') := by
  have hCases : ∀ j other, (pools.setIfInBounds i pool')[j]? = some other →
      (j = i ∧ other = pool') ∨ pools[j]? = some other := by
    intro j other hOther
    rw [Array.getElem?_setIfInBounds] at hOther
    split at hOther
    · rename_i hj
      split at hOther
      · exact .inl ⟨hj.symm, (Option.some.inj hOther).symm⟩
      · exact absurd hOther (by simp)
    · exact .inr hOther
  refine ⟨fun j other hOther => ?_, fun j other hOther => ?_⟩
  · rcases hCases j other hOther with ⟨-, rfl⟩ | hBefore
    · exact hTidy
    · exact h.pool j other hBefore
  · rcases hCases j other hOther with ⟨rfl, rfl⟩ | hBefore
    · exact hElem.trans (h.elemSize j pool hPool)
    · exact h.elemSize j other hBefore

/-- The subpages of a pool are sound, and have two slots at least. -/
theorem Sound.slots (h : Sound g pools) (hg : g.WellFormed) (hPool : pools[i]? = some pool)
    {p : Subpage} (hFound : pool.get? key = some p) : p.Sound g.pageSize ∧ 2 ≤ p.maxElems := by
  have hHere : subpageAt? pools ⟨i, key⟩ = some p := (subpageAt?_of_pool hPool key).trans hFound
  obtain ⟨hSub, hElem⟩ := h.subpage ⟨i, key⟩ p hHere
  obtain ⟨hLt, -⟩ := Array.getElem?_eq_some_iff.mp hPool
  have hTwo := Geometry.two_mul_poolElemSize_le hg (h.size ▸ hLt)
  refine ⟨hSub, ?_⟩
  rw [hSub.maxElems, Nat.le_div_iff_mul_le hSub.elemSize, hElem]
  exact hTwo

/-- A slot of an available subpage is handed out. -/
theorem Tidy.take (h : Tidy pools) (hPools : Sound g pools) (hPool : pools[i]? = some pool)
    (hTake : pool.take? = some (block, pool')) : Tidy (pools.setIfInBounds i pool') := by
  have hSlab := hPools.slab i pool hPool
  obtain ⟨key, p, q, -, -, hUpdates⟩ := SubpagePool.take?_eq_some hSlab hTake
  have hSound : ∀ key p, pool.get? key = some p → p.Sound g.pageSize := fun key p hFound =>
    (hPools.subpage ⟨i, key⟩ p ((subpageAt?_of_pool hPool key).trans hFound)).1
  exact h.setPool hPool ((h.pool i pool hPool).take hSlab hSound hTake) hUpdates.elemSize

/-- A page is divided for a pool, and its first slot handed out. -/
theorem Tidy.allocate (h : Tidy pools) (hPools : Sound c.geometry pools)
    (hSize : 0 < size) (hAllocate : c.allocate pools size = some (block, c', after)) :
    Tidy after := by
  rcases Chunk.allocate_cases hAllocate with ⟨hPage, hServed⟩ | ⟨-, -, rfl⟩
  · obtain ⟨pool, pool', node, tree, hPool, -, hServe, -, rfl⟩ :=
      Chunk.allocateSubpage_eq_some hServed
    have hSlab := hPools.slab _ pool hPool
    have hSub : (c.dividedPage node size).Sound c.geometry.pageSize :=
      Subpage.sound_divide _ _ _ _ hSize hPage.le
    have hRoom : (c.dividedPage node size).numFree ≠ 0 := (Nat.div_pos hPage.le hSize).ne'
    obtain ⟨-, -, hInsert⟩ := SubpagePool.updates_insert hSlab (c.dividedPage node size)
    obtain ⟨p, q, -, -, hUpdates⟩ := SubpagePool.takeIn?_eq_some hInsert.slab hServe
    exact h.setPool hPool ((h.pool _ pool hPool).insert_take hSlab hSub hRoom hServe)
      (hUpdates.elemSize.trans hInsert.elemSize)
  · exact h

/-- A block goes back to its chunk. -/
theorem Tidy.free (h : Tidy pools) (hg : c.geometry.WellFormed) (hPools : Sound c.geometry pools)
    (hFree : c.free pools handle = .ok (c', after)) : Tidy after := by
  rcases Chunk.free_cases hFree with ⟨record, -, -, hSlot⟩ | ⟨-, -, -, rfl⟩
  · obtain ⟨pool, stays, pool', hPool, hGive, rfl, -⟩ := Chunk.freeSlot_cases hSlot
    have hSlab := hPools.slab _ pool hPool
    obtain ⟨slot, p, q, -, -, -, -, hFate⟩ := SubpagePool.give_eq_ok hSlab hGive
    have hElem : pool'.elemSize = pool.elemSize := by
      rcases hFate with ⟨-, hUpdates⟩ | ⟨-, -, hUpdates⟩
      · exact hUpdates.elemSize
      · exact hUpdates.elemSize
    exact h.setPool hPool
      ((h.pool _ pool hPool).give hSlab (fun key p => hPools.slots hg hPool) hGive) hElem
  · exact h

end SubpagePools

end BlockPool
