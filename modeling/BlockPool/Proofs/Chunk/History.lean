import BlockPool.Proofs.Chunk.Regain
import BlockPool.Proofs.Total

/-!
# BlockPool — histories of a chunk

A `Site` is a chunk with the pools its pages go to. Blocks are allocated from the chunk, slots are
taken from the pools past the chunk, and handles of any kind are given back; a request or a handle
that is refused changes nothing. Whatever the history, the tree says exactly which nodes are taken
and nothing of how they came to be taken.

* `Chunk.Site.run` — the state after a history.
* `Chunk.Site.Sound` — what every history keeps.
* `Chunk.Site.run_tree_exact` — the tree and the count of free bytes follow from the taken nodes.
-/

namespace BlockPool.Chunk

open SubpagePools (subpageAt? Beside)

/-- What can be asked of a chunk and its pools. -/
inductive Op where
  /-- A block for a request that one chunk can serve. -/
  | allocate (request : Nat)
  /-- A slot of the first subpage of a pool with room. -/
  | takeSlot (pool : Nat)
  /-- A slot of one subpage of a pool. -/
  | takeSlotIn (pool : Nat) (key : Slab.Key)
  /-- A handle given back, perhaps one that was never handed out. -/
  | free (handle : Handle)
deriving DecidableEq, Repr

/-- A chunk with the pools that its pages go to. -/
structure Site where
  chunk : Chunk
  pools : SubpagePools

namespace Site

variable {s : Site} {g : Geometry}

/-- A fresh chunk beside empty pools. -/
def fresh (id : ChunkId) (g : Geometry) (region : Region) : Site :=
  ⟨ofRegion id g region, SubpagePools.empty g⟩

/-- A block for a normalized size from one byte to a chunk. -/
def allocate (s : Site) (request : Nat) : Site :=
  let size := s.chunk.geometry.normalize request
  if 0 < size ∧ size ≤ s.chunk.size then
    match s.chunk.allocate s.pools size with
    | some (_, chunk, pools) => ⟨chunk, pools⟩
    | none => s
  else s

/-- A slot of a pool, past the chunk. -/
def takeSlot (s : Site) (index : Nat) (take? : SubpagePool → Option (Block × SubpagePool)) :
    Site :=
  match s.pools[index]?.bind take? with
  | some (_, pool) => { s with pools := s.pools.setIfInBounds index pool }
  | none => s

/-- A handle back to the chunk. -/
def free (s : Site) (handle : Handle) : Site :=
  match s.chunk.free s.pools handle with
  | .ok (chunk, pools) => ⟨chunk, pools⟩
  | .error _ => s

/-- The state after one thing was asked. -/
def step (s : Site) : Op → Site
  | .allocate request => s.allocate request
  | .takeSlot pool => s.takeSlot pool SubpagePool.take?
  | .takeSlotIn pool key => s.takeSlot pool (·.takeIn? key)
  | .free handle => s.free handle

/-- The state after a history. -/
def run (s : Site) (ops : List Op) : Site := ops.foldl step s

-- ---------------------------------------------------------------------------
-- What every history keeps
-- ---------------------------------------------------------------------------

/-- The chunk is sound beside its pools, which hold its own pages only. -/
structure Sound (s : Site) : Prop where
  chunk : s.chunk.Sound s.pools
  pools : SubpagePools.Sound s.chunk.geometry s.pools
  own : ∀ record p, subpageAt? s.pools record = some p → p.chunk = s.chunk.id

theorem sound_fresh (hg : g.WellFormed) (id : ChunkId) (region : Region) :
    (fresh id g region).Sound where
  chunk := sound_ofRegion hg region fun record p hFound => by
    rw [fresh, SubpagePools.subpageAt?_empty] at hFound
    exact absurd hFound (by simp)
  pools := SubpagePools.sound_empty g
  own record p hFound := by
    rw [fresh, SubpagePools.subpageAt?_empty] at hFound
    exact absurd hFound (by simp)

/-- A change that concerns the pages of the chunk only leaves no other pages behind. -/
theorem Sound.of_beside {chunk : Chunk} {pools : SubpagePools} (h : s.Sound)
    (hSame : s.chunk.SameMemory chunk) (hChunk : chunk.Sound pools)
    (hPools : SubpagePools.Sound s.chunk.geometry pools)
    (hBeside : Beside s.chunk.id s.pools pools) : (⟨chunk, pools⟩ : Site).Sound where
  chunk := hChunk
  pools := hSame.geometry ▸ hPools
  own record p hFound := by
    rw [hSame.id]
    by_contra hNe
    exact hNe (h.own record p ((hBeside record p hNe).mp hFound))

/-- A slot that a pool hands out is one of the chunk's. -/
theorem Sound.takeSlot (h : s.Sound) (index : Nat)
    {take? : SubpagePool → Option (Block × SubpagePool)}
    (hServes : ∀ pool block after, s.pools[index]? = some pool → take? pool = some (block, after) →
      ∃ record p, SubpagePools.Serves s.chunk.geometry s.pools record p block
        (s.pools.setIfInBounds index after)) :
    (s.takeSlot index take?).Sound ∧ s.chunk.SameMemory (s.takeSlot index take?).chunk := by
  unfold Site.takeSlot
  split
  · rename_i block after hTake
    obtain ⟨pool, hPool, hTaken⟩ := Option.bind_eq_some_iff.mp hTake
    obtain ⟨record, p, hSlot⟩ := hServes pool block after hPool hTaken
    have hGrants := h.chunk.grants_of_serves h.pools hSlot (h.own record p hSlot.found)
    exact ⟨h.of_beside hGrants.same hGrants.sound hGrants.store hGrants.beside, hGrants.same⟩
  · exact ⟨h, ⟨rfl, rfl, rfl, rfl⟩⟩

/-- Whatever is asked, the state stays sound and the chunk the same. -/
theorem Sound.step (h : s.Sound) (op : Op) :
    (s.step op).Sound ∧ s.chunk.SameMemory (s.step op).chunk := by
  have hSame : s.chunk.SameMemory s.chunk := ⟨rfl, rfl, rfl, rfl⟩
  cases op with
  | allocate request =>
    unfold Site.step Site.allocate
    dsimp only
    split
    · rename_i hSize
      have hCarved : s.chunk.geometry.Carved (s.chunk.geometry.normalize request) :=
        h.chunk.geometry.carved_of_le hSize.1 hSize.2
      split
      · rename_i block chunk pools hAllocate
        obtain ⟨hGrants, -⟩ := h.chunk.grants_of_allocate h.pools hCarved hAllocate
        exact ⟨h.of_beside hGrants.same hGrants.sound hGrants.store hGrants.beside, hGrants.same⟩
      · exact ⟨h, hSame⟩
    · exact ⟨h, hSame⟩
  -- a slot comes from any page that has one, or from the page named
  | takeSlot index =>
    refine h.takeSlot index fun pool block after hPool hTake => ?_
    obtain ⟨key, p, hServes⟩ := h.pools.exists_serves hPool hTake
    exact ⟨_, p, hServes⟩
  | takeSlotIn index key =>
    refine h.takeSlot index fun pool block after hPool hTake => ?_
    obtain ⟨p, hServes⟩ := h.pools.exists_serves_in hPool hTake
    exact ⟨_, p, hServes⟩
  | free handle =>
    unfold Site.step Site.free
    dsimp only
    split
    · rename_i chunk pools hFree
      have hRegains := h.chunk.regains_of_free h.pools hFree
      exact ⟨h.of_beside hRegains.same hRegains.sound hRegains.store hRegains.beside,
        hRegains.same⟩
    · exact ⟨h, hSame⟩

theorem Sound.run (h : s.Sound) (ops : List Op) :
    (s.run ops).Sound ∧ s.chunk.SameMemory (s.run ops).chunk := by
  induction ops generalizing s with
  | nil => exact ⟨h, rfl, rfl, rfl, rfl⟩
  | cons op rest ih =>
    obtain ⟨hStep, hSame⟩ := h.step op
    obtain ⟨hRest, hSame'⟩ := ih hStep
    exact ⟨hRest, hSame.trans hSame'⟩

-- ---------------------------------------------------------------------------
-- The tree after any history
-- ---------------------------------------------------------------------------

/-- The bytes of the taken nodes, by their list. -/
theorem total_takenNodes (c : Chunk) (hTree : c.tree.Sound) :
    total (c.tree.takenNodes.map c.runLength) = c.takenBytes := by
  have hNodup : c.tree.takenNodes.Nodup := List.nodup_range.filter _
  have hMembers : c.tree.takenNodes.toFinset = c.tree.taken.members := by
    ext node
    rw [List.mem_toFinset, hTree.mem_takenNodes, Buddy.mem_taken]
  rw [takenBytes, ← hMembers, List.sum_toFinset _ hNodup, total_eq_sum]

/-- Sound states of one chunk with the same taken nodes have the same tree and as many bytes
free. -/
theorem Sound.tree_ext {s' : Site} (h : s.Sound) (h' : s'.Sound)
    (hSame : s'.chunk.geometry = s.chunk.geometry)
    (hTaken : ∀ node, s'.chunk.tree.isTaken node = s.chunk.tree.isTaken node) :
    s'.chunk.tree = s.chunk.tree ∧ s'.chunk.freeBytes = s.chunk.freeBytes := by
  have hTree : s'.chunk.tree = s.chunk.tree :=
    h'.chunk.tree.ext h.chunk.tree (by rw [h'.chunk.order, h.chunk.order, hSame]) hTaken
  refine ⟨hTree, ?_⟩
  have hCount := h.chunk.freeBytes
  have hCount' := h'.chunk.freeBytes
  have hBytes : s'.chunk.takenBytes = s.chunk.takenBytes := by
    unfold takenBytes runLength Chunk.size
    rw [hTree, hSame]
  rw [hBytes, Chunk.size, hSame, ← Chunk.size] at hCount'
  omega

/-- After any history the tree passes its check, no taken node lies under another, the free bytes
and the runs of the taken nodes make up the chunk, and what is allocated next is taken off the
count without going below zero. The entries of the tree are a function of the taken nodes alone, so
two histories that end with the same nodes taken end with the same tree, bitmap and count. -/
theorem run_tree_exact (hg : g.WellFormed) (id : ChunkId) (region : Region) (ops : List Op) :
    let c := ((fresh id g region).run ops).chunk
    c.verify = .ok () ∧
      (∀ a b, c.tree.isTaken a = true → c.tree.isTaken b = true → Buddy.Under a b → a = b) ∧
      c.freeBytes + total (c.tree.takenNodes.map c.runLength) = g.chunkSize ∧
      (∀ request block c' pools', 0 < g.normalize request → g.normalize request ≤ g.chunkSize →
        c.allocate ((fresh id g region).run ops).pools (g.normalize request) =
          some (block, c', pools') →
        c'.freeBytes + max (g.normalize request) g.pageSize = c.freeBytes) ∧
      c.tree.room = Buddy.entriesOf g.maxOrder c.tree.isTaken ∧
      ∀ ops', let c' := ((fresh id g region).run ops').chunk
        (∀ node, c'.tree.isTaken node = c.tree.isTaken node) →
          c'.tree.room = c.tree.room ∧ c'.tree.taken = c.tree.taken ∧
            c'.freeBytes = c.freeBytes := by
  intro c
  obtain ⟨hSound, hSame⟩ := (sound_fresh hg id region).run ops
  have hGeometry : c.geometry = g := hSame.geometry
  refine ⟨?_, hSound.chunk.tree.apart, ?_, ?_, ?_, ?_⟩
  · unfold verify
    rw [hSound.chunk.tree.mismatch?_eq_none]
  -- the check passes; what is free is what no taken node covers
  · rw [total_takenNodes c hSound.chunk.tree, hSound.chunk.freeBytes, Chunk.size, hGeometry]
  · intro request block c' pools' hPos hLe hAllocate
    have hCarved : c.geometry.Carved (g.normalize request) := by
      rw [hGeometry]
      exact hg.carved_of_le hPos hLe
    have hCount := hSound.chunk.freeBytes_of_allocate hCarved hAllocate
    rwa [hGeometry] at hCount
  · rw [hSound.chunk.tree.room_eq, hSound.chunk.order, hGeometry]
  -- two histories with the same nodes taken
  · intro ops' c' hTaken
    obtain ⟨hSound', hSame'⟩ := (sound_fresh hg id region).run ops'
    obtain ⟨hTree, hCount⟩ :=
      hSound.tree_ext hSound' (hSame'.geometry.trans hSame.geometry.symm) hTaken
    exact ⟨by rw [hTree], by rw [hTree], hCount⟩

/-- On two pages of 4096 bytes, a page for one run and a page for slots leave the same tree once the
first page went back as two runs do. -/
theorem run_tree_exact_two_pages :
    (⟨4096, 1, 0⟩ : Geometry).WellFormed ∧
      ((fresh default ⟨4096, 1, 0⟩ default).run
        [.allocate 4096, .allocate 100, .free (Handle.run 2)]).chunk.tree.room =
      ((fresh default ⟨4096, 1, 0⟩ default).run
        [.allocate 4096, .allocate 4096, .free (Handle.run 2)]).chunk.tree.room := by
  have hg := Geometry.wellFormed_two_pages
  obtain ⟨-, -, -, -, -, hSame⟩ := run_tree_exact hg default default
    [.allocate 4096, .allocate 4096, .free (Handle.run 2)]
  refine ⟨hg, (hSame _ fun node => ?_).1⟩
  have hShape (ops : List Op) :
      ((fresh default ⟨4096, 1, 0⟩ default).run ops).chunk.tree.Shaped :=
    ((sound_fresh hg default default).run ops).1.chunk.tree.toShaped
  rw [Bool.eq_iff_iff, ← (hShape _).mem_takenNodes, ← (hShape _).mem_takenNodes]
  exact Iff.of_eq (congrArg (node ∈ ·) (by decide))

end Site

end BlockPool.Chunk
