import BlockPool.Chunk.Basic

/-!
# BlockPool — what a chunk can do

The ways that a request or a return can go where it succeeds, with the state that each leaves. What
is proved about chunks is proved over these cases.

* `Chunk.allocate_cases`, `Chunk.allocateRun_eq_some`, `Chunk.allocateSubpage_eq_some` — a run of
  pages, or the first slot of a page that is divided for it.
* `Chunk.free_cases`, `Chunk.freeNode_cases`, `Chunk.freeSlot_cases` — a run goes back, or a slot,
  and with the last slot of a page the page.
-/

namespace BlockPool.Chunk

variable {c c' : Chunk} {pools after : SubpagePools} {record : LeafRecord} {handle : Handle}
  {block : Block} {size : Nat}

-- ---------------------------------------------------------------------------
-- Requests
-- ---------------------------------------------------------------------------

/-- A new chunk stands on a region of its own. -/
theorem allocateNew_eq_ok {provider : Provider} {request : Nat} {id : ChunkId} {g : Geometry}
    (h : allocateNew provider request id g = .ok c) :
    ∃ region, Region.allocate provider request g.chunkSize g.pageSize = .ok region ∧
      c = ofRegion id g region := by
  unfold allocateNew at h
  cases hRegion : Region.allocate provider request g.chunkSize g.pageSize with
  | error cause => simp [hRegion, Functor.map, Except.map] at h
  | ok region =>
    rw [hRegion] at h
    exact ⟨region, rfl, (Except.ok.inj h).symm⟩

/-- The page of a node, divided into slots of one size. -/
def dividedPage (c : Chunk) (node size : Nat) : Subpage :=
  Subpage.divide c.id (UInt32.ofNat node) (c.runOffset node) c.geometry.pageSize size c.region

theorem allocateRun_eq_some (h : c.allocateRun size = some (block, c')) :
    ∃ node tree, c.tree.take? (c.geometry.runDepth size) = some (node, tree) ∧
      block = Block.pooled c.region (c.runOffset node) (c.runLength node) c.id
        (Handle.run (UInt32.ofNat node)) ∧
      c' = { c with tree, freeBytes := c.freeBytes - c.runLength node } := by
  simp only [allocateRun, Option.bind_eq_bind, Option.bind_eq_some_iff, Prod.exists,
    Option.pure_def, Option.some.injEq, Prod.mk.injEq] at h
  obtain ⟨node, tree, hTake, rfl, rfl⟩ := h
  exact ⟨node, tree, hTake, rfl, rfl⟩

theorem allocateSubpage_eq_some (h : c.allocateSubpage pools size = some (block, c', after)) :
    ∃ pool pool' node tree, pools[Geometry.poolIndex size]? = some pool ∧
      c.tree.take? c.geometry.maxOrder = some (node, tree) ∧
      (pool.insert (c.dividedPage node size)).2.takeIn?
        (pool.insert (c.dividedPage node size)).1 = some (block, pool') ∧
      c' = { c with
        tree
        freeBytes := c.freeBytes - c.geometry.pageSize
        leaves := c.leaves.setIfInBounds (node - c.tree.numPages)
          (some ⟨Geometry.poolIndex size, (pool.insert (c.dividedPage node size)).1⟩) } ∧
      after = pools.setIfInBounds (Geometry.poolIndex size) pool' := by
  simp only [allocateSubpage, Option.bind_eq_bind, Option.bind_eq_some_iff, Prod.exists,
    Option.pure_def, Option.some.injEq, Prod.mk.injEq] at h
  obtain ⟨pool, hPool, node, tree, hTake, taken, pool', hServe, rfl, rfl, rfl⟩ := h
  exact ⟨pool, pool', node, tree, hPool, hTake, hServe, rfl, rfl⟩

/-- Sizes below a page are served from a page that is divided for them, all others as runs. -/
theorem allocate_cases (h : c.allocate pools size = some (block, c', after)) :
    (size < c.geometry.pageSize ∧ c.allocateSubpage pools size = some (block, c', after)) ∨
      (c.geometry.pageSize ≤ size ∧ c.allocateRun size = some (block, c') ∧ after = pools) := by
  unfold allocate at h
  split at h
  · rename_i hShared
    exact .inl ⟨by simpa [Geometry.isTinyOrSmall] using hShared, h⟩
  · rename_i hShared
    split at h
    · rename_i hRun
      simp only [Option.some.injEq, Prod.mk.injEq] at h
      obtain ⟨rfl, rfl, rfl⟩ := h
      exact .inr ⟨by simpa [Geometry.isTinyOrSmall] using hShared, hRun, rfl⟩
    · exact absurd h (by simp)

-- ---------------------------------------------------------------------------
-- Returns
-- ---------------------------------------------------------------------------

theorem freeNode_cases (h : c.freeNode handle = .ok c') :
    ∃ tree, c.tree.give handle.node.toNat = .ok tree ∧
      c' = { c with tree, freeBytes := c.freeBytes + c.runLength handle.node.toNat } := by
  unfold freeNode at h
  dsimp only at h
  split at h
  · exact absurd h (by simp)
  · rename_i tree hGive
    exact ⟨tree, hGive, (Except.ok.inj h).symm⟩

/-- The chunk does not change while the subpage stays. -/
theorem freeSlot_cases (h : c.freeSlot pools handle record = .ok (c', after)) :
    ∃ pool stays pool', pools[record.pool]? = some pool ∧
      pool.give record.key handle = .ok (stays, pool') ∧
      after = pools.setIfInBounds record.pool pool' ∧
      ((stays = true ∧ c' = c) ∨ (stays = false ∧
        freeNode { c with
          leaves := c.leaves.setIfInBounds (handle.node.toNat - c.tree.numPages) none }
          handle = .ok c')) := by
  unfold freeSlot at h
  split at h
  · exact absurd h (by simp)
  · rename_i pool hPool
    split at h
    · exact absurd h (by simp)
    · rename_i stays pool' hGive
      refine ⟨pool, stays, pool', hPool, hGive, ?_⟩
      dsimp only at h
      split at h
      · rename_i hStays
        obtain ⟨rfl, rfl⟩ := by simpa using h
        exact ⟨rfl, .inl ⟨hStays, rfl⟩⟩
      · rename_i hLeaves
        split at h
        · exact absurd h (by simp)
        · rename_i hNode
          obtain ⟨rfl, rfl⟩ := by simpa using h
          exact ⟨rfl, .inr ⟨by simpa using hLeaves, hNode⟩⟩

/-- A slot goes back to a node that is divided, and a run is a node that is not. -/
theorem free_cases (h : c.free pools handle = .ok (c', after)) :
    (∃ record, handle.isSubpage = true ∧ c.leafRecord? handle.node.toNat = some record ∧
        c.freeSlot pools handle record = .ok (c', after)) ∨
      (handle.isSubpage = false ∧ c.leafRecord? handle.node.toNat = none ∧
        c.freeNode handle = .ok c' ∧ after = pools) := by
  unfold free at h
  dsimp only at h
  split at h
  · exact absurd h (by simp)
  · split at h
    · rename_i record hSlot hRecord
      exact .inl ⟨record, hSlot, hRecord, h⟩
    · exact absurd h (by simp)
    · exact absurd h (by simp)
    · rename_i hRun hNone
      split at h
      · exact absurd h (by simp)
      · rename_i hNode
        obtain ⟨rfl, rfl⟩ := by simpa using h
        exact .inr ⟨hRun, hNone, hNode, rfl⟩

end BlockPool.Chunk
