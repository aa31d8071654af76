import BlockPool.Proofs.Chunk.Leftmost
import BlockPool.Proofs.Chunk.Live
import BlockPool.Proofs.Chunk.Outcomes

/-!
# BlockPool — free windows of a chunk

A run of some bytes can lie at the multiples of its length. Such a window is vacant while no taken
run overlaps it, and this is all that decides where a run goes: to the lowest vacant window, and
nowhere only if there is none. Neither the pools beside the chunk nor its alignment play a part, so
here a chunk is asked beside pools in any state.

* `Geometry.Paged` — what a geometry promises of pages and chunks alone.
* `Chunk.Planted` — the tree is sound and as deep as the geometry says.
* `Chunk.Vacant` — a window that overlaps no taken run.
* `Chunk.Planted.vacant_iff` — the vacant windows are the spans of the open nodes.
* `Chunk.calls_first_fit` — runs go to the lowest vacant window.
-/

namespace BlockPool

-- ---------------------------------------------------------------------------
-- Pages and chunks
-- ---------------------------------------------------------------------------

namespace Geometry

variable {g : Geometry} {norm : Nat}

/-- Pages and chunks have the sizes that the pool works for; nothing is said of the alignment. -/
structure Paged (g : Geometry) : Prop where
  page : ∃ shift, g.pageSize = 2 ^ shift
  least : 4096 ≤ g.pageSize
  order : g.maxOrder ≤ 14
  product : g.pageSize * 2 ^ g.maxOrder ≤ 2 ^ 30

theorem WellFormed.paged (h : g.WellFormed) : g.Paged := ⟨h.page, h.least, h.order, h.product⟩

/-- Without its alignment the geometry is well-formed. -/
theorem Paged.wellFormed (h : g.Paged) : (⟨g.pageSize, g.maxOrder, 0⟩ : Geometry).WellFormed :=
  ⟨h.page, h.least, h.order, h.product, .inl rfl⟩

theorem Paged.chunkSize_eq (h : g.Paged) : g.chunkSize = 2 ^ g.scale := h.wellFormed.chunkSize_eq

/-- Runs of the depth that belongs to a power of two from a page to a chunk have that size. -/
theorem Paged.runDepth (h : g.Paged) (hNorm : ∃ k, norm = 2 ^ k) (hPage : g.pageSize ≤ norm)
    (hChunk : norm ≤ g.chunkSize) :
    g.runDepth norm ≤ g.maxOrder ∧ 2 ^ (g.scale - g.runDepth norm) = norm := by
  obtain ⟨k, rfl⟩ := hNorm
  have hLeast := h.least
  rw [h.chunkSize_eq, Nat.pow_le_pow_iff_right (by decide)] at hChunk
  have hTiny : 9 ≤ k := by
    rw [← Nat.pow_le_pow_iff_right (show 1 < 2 by decide)]
    omega
  have hCarved : (⟨g.pageSize, g.maxOrder, 0⟩ : Geometry).Carved (2 ^ k) :=
    .inr ⟨k, hTiny, hChunk, rfl⟩
  have hDepth := hCarved.runDepth h.wellFormed hPage
  exact hDepth

end Geometry

namespace Chunk

variable {c c' : Chunk} {pools pools' after : SubpagePools} {block : Block} {handle : Handle}
  {node d start norm : Nat}

/-- What every reachable chunk satisfies, whatever the pools beside it are. -/
structure Planted (c : Chunk) : Prop where
  geometry : c.geometry.Paged
  tree : c.tree.Sound
  order : c.tree.order = c.geometry.maxOrder

theorem Sound.planted (h : c.Sound pools) : c.Planted := ⟨h.geometry.paged, h.tree, h.order⟩

namespace Planted

theorem runLength_eq (h : c.Planted) (node : Nat) :
    c.runLength node = Buddy.spanLength c.geometry.scale node := by
  rw [runLength, size, h.geometry.chunkSize_eq, Nat.log2_two_pow, Nat.one_shiftLeft,
    Buddy.spanLength]

theorem runOffset_eq (h : c.Planted) (node : Nat) :
    c.runOffset node = Buddy.spanStart c.geometry.scale node := by
  rw [runOffset, h.runLength_eq, Nat.one_shiftLeft, Buddy.spanStart]

theorem order_le_scale (h : c.Planted) : c.tree.order ≤ c.geometry.scale := by
  rw [h.order, Geometry.scale]
  omega

theorem depthOf_le_scale (h : c.Planted) (hTaken : c.tree.isTaken node = true) :
    Buddy.depthOf node ≤ c.geometry.scale :=
  (Buddy.depthOf_le_order (h.tree.pos_of_isTaken hTaken) (h.tree.lt_of_isTaken hTaken)).trans
    h.order_le_scale

theorem runDepth_le_scale (h : c.Planted) (norm : Nat) :
    c.geometry.runDepth norm ≤ c.geometry.scale := by
  have hOrder := h.order_le_scale
  rw [h.order] at hOrder
  exact (Nat.sub_le ..).trans hOrder

/-- The number of a node no deeper than the pages fits the node of a handle. -/
theorem toNat_ofNat (h : c.Planted) (hPos : 0 < node)
    (hDepth : Buddy.depthOf node ≤ c.geometry.maxOrder) : (UInt32.ofNat node).toNat = node := by
  have hOrder := h.geometry.order
  have hLt : node < 2 ^ 15 := (Buddy.depthOf_lt_iff hPos).mp (by omega)
  exact UInt32.toNat_ofNat_of_lt (by rw [UInt32.size]; omega)

end Planted

-- ---------------------------------------------------------------------------
-- Vacant windows
-- ---------------------------------------------------------------------------

/-- A window of some length that lies in the chunk, starts at a multiple of its length and overlaps
the run of no taken node. -/
structure Vacant (c : Chunk) (length start : Nat) : Prop where
  inside : start + length ≤ c.size
  aligned : length ∣ start
  free : ∀ node, c.tree.isTaken node = true →
    start + length ≤ c.runOffset node ∨ c.runOffset node + c.runLength node ≤ start

/-- The run of an open node is a vacant window. -/
theorem Planted.vacant_of_open (h : c.Planted) (hPos : 0 < node)
    (hDepth : Buddy.depthOf node ≤ c.geometry.scale) (hOpen : c.tree.Open node) :
    c.Vacant (c.runLength node) (c.runOffset node) where
  inside := by
    rw [h.runLength_eq, h.runOffset_eq, size, h.geometry.chunkSize_eq]
    exact Buddy.span_le hPos hDepth
  aligned := Nat.dvd_mul_left ..
  free other hTaken := by
    obtain ⟨hBelow, hAbove⟩ := hOpen other hTaken
    simp only [h.runLength_eq, h.runOffset_eq]
    exact Buddy.spans_apart hPos (h.tree.pos_of_isTaken hTaken) hDepth
      (h.depthOf_le_scale hTaken) hBelow hAbove

/-- A node whose run is vacant is open: a taken run above or below it would overlap it. -/
theorem Planted.open_of_vacant (h : c.Planted) (hPos : 0 < node)
    (hDepth : Buddy.depthOf node ≤ c.geometry.scale)
    (hVacant : c.Vacant (c.runLength node) (c.runOffset node)) : c.tree.Open node := by
  intro other hTaken
  have hApart := hVacant.free other hTaken
  have hPosOther := h.tree.pos_of_isTaken hTaken
  have hLength := Buddy.spanLength_pos c.geometry.scale node
  have hLengthOther := Buddy.spanLength_pos c.geometry.scale other
  simp only [h.runLength_eq, h.runOffset_eq] at hApart
  constructor
  · rintro ⟨k, rfl⟩
    have := Buddy.span_inside hPos (h.depthOf_le_scale hTaken)
    omega
  · rintro ⟨k, rfl⟩
    have := Buddy.span_inside hPosOther hDepth
    omega

/-- Every window at a multiple of a run's length is the run of a node. -/
theorem Planted.exists_node (h : c.Planted) (hd : d ≤ c.geometry.scale)
    (hInside : start + 2 ^ (c.geometry.scale - d) ≤ c.size)
    (hAligned : 2 ^ (c.geometry.scale - d) ∣ start) :
    ∃ node, 0 < node ∧ Buddy.depthOf node = d ∧ c.runLength node = 2 ^ (c.geometry.scale - d) ∧
      c.runOffset node = start := by
  obtain ⟨i, rfl⟩ := hAligned
  set length := 2 ^ (c.geometry.scale - d) with hLength
  have hRow : length * 2 ^ d = c.size := by
    rw [hLength, ← pow_add, size, h.geometry.chunkSize_eq]
    congr 1
    omega
  have hi : i < 2 ^ d := by
    rw [← hRow, ← Nat.mul_succ] at hInside
    exact Nat.le_of_mul_le_mul_left hInside (Nat.two_pow_pos _)
  have hPos : 0 < 2 ^ d + i := Nat.add_pos_left (Nat.two_pow_pos d) i
  have hDepth : Buddy.depthOf (2 ^ d + i) = d := by
    rw [Buddy.depthOf_eq_iff hPos, pow_succ]
    omega
  have hRun : c.runLength (2 ^ d + i) = length := by
    rw [h.runLength_eq, Buddy.spanLength, hDepth]
  refine ⟨2 ^ d + i, hPos, hDepth, hRun, ?_⟩
  rw [runOffset, hRun, hDepth, Nat.one_shiftLeft, Nat.add_sub_cancel_left, mul_comm]

/-- The vacant windows of the runs of a depth are the runs of its open nodes. -/
theorem Planted.vacant_iff (h : c.Planted) (hd : d ≤ c.geometry.scale) :
    c.Vacant (2 ^ (c.geometry.scale - d)) start ↔
      ∃ node, 0 < node ∧ Buddy.depthOf node = d ∧ c.runOffset node = start ∧
        c.tree.Open node := by
  constructor
  · intro hVacant
    obtain ⟨node, hPos, hDepth, hLength, rfl⟩ :=
      h.exists_node hd hVacant.inside hVacant.aligned
    rw [← hLength] at hVacant
    exact ⟨node, hPos, hDepth, rfl, h.open_of_vacant hPos (hDepth ▸ hd) hVacant⟩
  · rintro ⟨node, hPos, hDepth, rfl, hOpen⟩
    have hVacant := h.vacant_of_open hPos (hDepth ▸ hd) hOpen
    rwa [h.runLength_eq, Buddy.spanLength, hDepth] at hVacant

/-- The root promises a run of a depth exactly where a window for it is vacant. -/
theorem Planted.roomAt_root_le_iff (h : c.Planted) (hd : d ≤ c.geometry.maxOrder) :
    c.tree.roomAt 1 ≤ d ↔ ∃ start, c.Vacant (2 ^ (c.geometry.scale - d)) start := by
  have hOrder := h.order_le_scale
  rw [← h.order] at hd
  rw [h.tree.roomAt_root_le_iff hd]
  simp only [h.vacant_iff (hd.trans hOrder)]
  constructor
  · rintro ⟨node, hPos, hDepth, hOpen⟩
    exact ⟨_, node, hPos, hDepth, rfl, hOpen⟩
  · rintro ⟨_, node, hPos, hDepth, -, hOpen⟩
    exact ⟨node, hPos, hDepth, hOpen⟩

-- ---------------------------------------------------------------------------
-- Runs
-- ---------------------------------------------------------------------------

/-- A size of a page and more is served as a run, or not at all. -/
theorem allocate_eq_none_iff (hPage : c.geometry.pageSize ≤ norm) :
    c.allocate pools norm = none ↔ c.allocateRun norm = none := by
  unfold allocate
  rw [if_neg (by simpa [Geometry.isTinyOrSmall] using hPage)]
  cases c.allocateRun norm <;> simp

theorem allocateRun_eq_none_iff :
    c.allocateRun norm = none ↔ c.tree.take? (c.geometry.runDepth norm) = none := by
  unfold allocateRun
  cases c.tree.take? (c.geometry.runDepth norm) <;> simp

/-- A run is refused exactly where no window for it is vacant. -/
theorem Planted.allocate_eq_none_iff (h : c.Planted) (hNorm : ∃ k, norm = 2 ^ k)
    (hPage : c.geometry.pageSize ≤ norm) (hChunk : norm ≤ c.size) :
    c.allocate pools norm = none ↔ ∀ start, ¬ c.Vacant norm start := by
  obtain ⟨hd, hLength⟩ := h.geometry.runDepth hNorm hPage hChunk
  rw [Chunk.allocate_eq_none_iff hPage, allocateRun_eq_none_iff,
    h.tree.take?_eq_none_iff (h.order ▸ hd)]
  constructor
  · intro hNone start hVacant
    obtain ⟨node, hPos, hDepth, -, hOpen⟩ :=
      (h.vacant_iff (h.runDepth_le_scale norm)).mp (hLength ▸ hVacant)
    exact hNone node hPos hDepth hOpen
  · intro hNone node hPos hDepth hOpen
    exact hNone _ (hLength ▸ (h.vacant_iff (h.runDepth_le_scale norm)).mpr
      ⟨node, hPos, hDepth, rfl, hOpen⟩)

/-- A run that was handed out: the lowest vacant window of its length, at the node where the way
down ended, which is the only node whose mark changed. -/
structure LowestRun (c : Chunk) (norm : Nat) (node : UInt32) (block : Block) (c' : Chunk) :
    Prop where
  descends : c.tree.Descends (c.geometry.runDepth norm) (c.geometry.runDepth norm) 1 node.toNat
  run : block = c.runBlock node
  capacity : block.capacity = norm
  vacant : c.Vacant norm block.offset
  lowest : ∀ start, c.Vacant norm start → block.offset ≤ start
  taken : ∀ m, c'.tree.isTaken m = true ↔ m = node.toNat ∨ c.tree.isTaken m = true

/-- A run that comes out of a chunk is the lowest vacant window of its length. -/
theorem Planted.lowestRun (h : c.Planted) (hNorm : ∃ k, norm = 2 ^ k)
    (hPage : c.geometry.pageSize ≤ norm) (hChunk : norm ≤ c.size)
    (hAllocate : c.allocateRun norm = some (block, c')) :
    ∃ node, c.tree.isTaken node.toNat = false ∧ c.LowestRun norm node block c' := by
  obtain ⟨hd, hLength⟩ := h.geometry.runDepth hNorm hPage hChunk
  have hScale := h.runDepth_le_scale norm
  obtain ⟨node, tree, hTake, rfl, rfl⟩ := allocateRun_eq_some hAllocate
  obtain ⟨hDepth, hTakes⟩ := h.tree.takes_of_take? (h.order ▸ hd) hTake
  obtain ⟨hDescends, hFirst⟩ := h.tree.le_of_open (h.order ▸ hd) hTake
  have hNumber := h.toNat_ofNat hTakes.pos (hDepth.trans_le hd)
  -- nodes of the depth have runs of the size
  have hRun : c.runLength node = norm := by
    rw [h.runLength_eq, Buddy.spanLength, hDepth, hLength]
  have hVacant := h.vacant_of_open hTakes.pos (hDepth.trans_le hScale) hTakes.open
  refine ⟨UInt32.ofNat node, ?_, ?_, ?_, hRun, hRun ▸ hVacant, fun start hStart => ?_, fun m => ?_⟩
  · rw [hNumber]
    exact hTakes.below node (.refl node)
  · rwa [hNumber]
  · rw [runBlock, hNumber]
  · -- runs of one length start in the order of their nodes
    rw [← hLength] at hStart
    obtain ⟨other, hPos, hOther, rfl, hOpen⟩ := (h.vacant_iff hScale).mp hStart
    have hLe := hFirst other hPos hOther hOpen
    show c.runOffset node ≤ c.runOffset other
    rw [runOffset, runOffset, h.runLength_eq, h.runLength_eq, Buddy.spanLength, Buddy.spanLength,
      hDepth, hOther]
    exact Nat.mul_le_mul_right _ (Nat.sub_le_sub_right hLe _)
  · rw [hNumber]
    show tree.isTaken m = true ↔ _
    rw [hTakes.isTaken]
    split <;> simp_all

-- ---------------------------------------------------------------------------
-- Histories of one chunk, beside any pools
-- ---------------------------------------------------------------------------

/-- What is done with a chunk. The pools beside it may be in another state each time, as they are
where other chunks use them too. -/
inductive Call where
  /-- A block of a size. -/
  | allocate (pools : SubpagePools) (size : Nat)
  /-- A handle given back, perhaps one that was never handed out. -/
  | free (pools : SubpagePools) (handle : Handle)
  /-- A band's list takes the chunk in, or lets it go. -/
  | place (band : Option Band)

/-- The chunk after one call. A refused one leaves it as it was. -/
def call (c : Chunk) : Call → Chunk
  | .allocate pools size =>
    match c.allocate pools size with
    | some (_, c', _) => c'
    | none => c
  | .free pools handle =>
    match c.free pools handle with
    | .ok (c', _) => c'
    | .error _ => c
  | .place band => { c with band }

/-- The chunk after some calls. -/
def calls (c : Chunk) (history : List Call) : Chunk := history.foldl call c

theorem calls_concat (c : Chunk) (history : List Call) (last : Call) :
    c.calls (history ++ [last]) = (c.calls history).call last := by
  rw [calls, List.foldl_append]
  rfl

/-- A later state of the chunk, with a sound tree of the same depth. -/
structure Grows (c c' : Chunk) : Prop where
  geometry : c'.geometry = c.geometry
  order : c'.tree.order = c.tree.order
  tree : c'.tree.Sound

theorem Grows.trans {c'' : Chunk} (h : c.Grows c') (h' : c'.Grows c'') : c.Grows c'' :=
  ⟨h'.geometry.trans h.geometry, h'.order.trans h.order, h'.tree⟩

theorem Planted.grows_refl (h : c.Planted) : c.Grows c := ⟨rfl, rfl, h.tree⟩

theorem Grows.planted (hGrows : c.Grows c') (h : c.Planted) : c'.Planted :=
  ⟨hGrows.geometry ▸ h.geometry, hGrows.tree,
    by rw [hGrows.order, hGrows.geometry, h.order]⟩

/-- Whatever size is asked for, at most one node is taken. -/
theorem Planted.grows_of_allocate (h : c.Planted) {size : Nat}
    (hAllocate : c.allocate pools size = some (block, c', after)) : c.Grows c' := by
  rcases allocate_cases hAllocate with ⟨-, hServed⟩ | ⟨-, hRun, -⟩
  · obtain ⟨pool, pool', node, tree, -, hTake, -, rfl, -⟩ := allocateSubpage_eq_some hServed
    obtain ⟨-, hTakes⟩ := h.tree.takes_of_take? (Nat.le_of_eq h.order.symm) hTake
    exact ⟨rfl, hTakes.order, hTakes.sound⟩
  · obtain ⟨node, tree, hTake, -, rfl⟩ := allocateRun_eq_some hRun
    obtain ⟨-, hTakes⟩ := h.tree.takes_of_take? (h.order ▸ Nat.sub_le ..) hTake
    exact ⟨rfl, hTakes.order, hTakes.sound⟩

theorem Planted.grows_of_freeNode (h : c.Planted) (hFree : c.freeNode handle = .ok c') :
    c.Grows c' := by
  obtain ⟨tree, hGive, rfl⟩ := freeNode_cases hFree
  obtain ⟨-, hGives⟩ := h.tree.gives_of_give hGive
  exact ⟨rfl, hGives.order, hGives.sound⟩

/-- Whatever handle is given back, at most one node is given back. -/
theorem Planted.grows_of_free (h : c.Planted) (hFree : c.free pools handle = .ok (c', after)) :
    c.Grows c' := by
  rcases free_cases hFree with ⟨record, -, -, hSlot⟩ | ⟨-, -, hNode, -⟩
  · obtain ⟨pool, stays, pool', -, -, -, ⟨-, rfl⟩ | ⟨-, hNode⟩⟩ := freeSlot_cases hSlot
    · exact h.grows_refl
    · set leaves := c.leaves.setIfInBounds (handle.node.toNat - c.tree.numPages) none
      have hPlanted : ({ c with leaves } : Chunk).Planted := ⟨h.geometry, h.tree, h.order⟩
      have hGrows := hPlanted.grows_of_freeNode hNode
      exact ⟨hGrows.geometry, hGrows.order, hGrows.tree⟩
  · exact h.grows_of_freeNode hNode

theorem Planted.grows_call (h : c.Planted) (call : Call) : c.Grows (c.call call) := by
  cases call with
  | allocate pools size =>
    unfold Chunk.call
    dsimp only
    split
    · rename_i hAllocate
      exact h.grows_of_allocate hAllocate
    · exact h.grows_refl
  | free pools handle =>
    unfold Chunk.call
    dsimp only
    split
    · rename_i hFree
      exact h.grows_of_free hFree
    · exact h.grows_refl
  | place band => exact ⟨rfl, rfl, h.tree⟩

theorem Planted.grows_calls (h : c.Planted) (history : List Call) :
    c.Grows (c.calls history) := by
  induction history generalizing c with
  | nil => exact h.grows_refl
  | cons call rest ih =>
    have hGrows := h.grows_call call
    exact hGrows.trans (ih (hGrows.planted h))

theorem planted_ofRegion {g : Geometry} (hg : g.Paged) (id : ChunkId) (region : Region) :
    (ofRegion id g region).Planted :=
  ⟨hg, Buddy.sound_fresh _, rfl⟩

/-- After any history, and for every power of two from a page to a chunk: where the root promises
a run, the way down ends at a node of the tree without reading past its entries; a run is refused
exactly where every window for it overlaps a taken run, and then nothing changes; and otherwise
the run is the lowest vacant window, has exactly the size that was asked for, and its node is the
only one that came to be taken. -/
theorem calls_first_fit {g : Geometry} (hg : g.Paged) (id : ChunkId) (region : Region)
    (history : List Call) (pools : SubpagePools) (hNorm : ∃ k, norm = 2 ^ k)
    (hPage : g.pageSize ≤ norm) (hChunk : norm ≤ g.chunkSize) :
    let c := (ofRegion id g region).calls history
    (c.tree.roomAt 1 ≤ g.runDepth norm →
      ∃ node, node < c.tree.numNodes ∧
        c.tree.Descends (g.runDepth norm) (g.runDepth norm) 1 node) ∧
      (c.allocate pools norm = none ↔ ∀ start, ¬ c.Vacant norm start) ∧
      (c.allocate pools norm = none → c.call (.allocate pools norm) = c) ∧
      ∀ block c' pools', c.allocate pools norm = some (block, c', pools') →
        pools' = pools ∧
          ∃ node, c.tree.isTaken node.toNat = false ∧ c.LowestRun norm node block c' := by
  intro c
  have hFresh := planted_ofRegion hg id region
  have hGrows := hFresh.grows_calls history
  have h : c.Planted := hGrows.planted hFresh
  have hGeometry : c.geometry = g := hGrows.geometry
  obtain ⟨hd, -⟩ := hg.runDepth hNorm hPage hChunk
  rw [← hGeometry] at hPage hd hChunk
  refine ⟨fun hRoom => ?_, h.allocate_eq_none_iff hNorm hPage hChunk, fun hNone => ?_,
    fun block c' pools' hAllocate => ?_⟩
  · rw [← hGeometry] at hRoom ⊢
    obtain ⟨node, hDescends, hDepth, -⟩ := h.tree.exists_descends (h.order ▸ hd) _ 1 (by decide)
      hRoom (by rw [Buddy.depthOf_one, Nat.zero_add])
    refine ⟨node, ?_, hDescends⟩
    -- a node of the depth is one of the tree
    rw [Buddy.numNodes, h.tree.size, ← Buddy.depthOf_lt_iff hDescends.under.le, hDepth, h.order]
    omega
  · rw [call, hNone]
  · rcases allocate_cases hAllocate with ⟨hSmall, -⟩ | ⟨-, hRun, rfl⟩
    · omega
    · exact ⟨rfl, h.lowestRun hNorm hPage hChunk hRun⟩

/-- Two pages are taken and the first one is given back: a page goes to the start of the chunk
again, and then no window for another one is vacant. -/
theorem calls_first_fit_two_pages :
    let c := (ofRegion default ⟨4096, 1, 0⟩ default).calls
      [.allocate #[] 4096, .allocate #[] 4096, .free #[] (Handle.run 2)]
    (∃ block c' pools', c.allocate #[] 4096 = some (block, c', pools') ∧ block.offset = 0 ∧
      c.Vacant 4096 0) ∧
      ∀ start, ¬ (c.call (.allocate #[] 4096)).Vacant 4096 start := by
  have hg : (⟨4096, 1, 0⟩ : Geometry).Paged := Geometry.wellFormed_two_pages.paged
  have hNorm : ∃ k, 4096 = 2 ^ k := ⟨12, rfl⟩
  have hFit (history : List Call) := calls_first_fit hg default default history #[] hNorm
    (Nat.le_refl _) (by decide)
  intro c
  constructor
  · obtain ⟨-, -, -, hServed⟩ := hFit
      [.allocate #[] 4096, .allocate #[] 4096, .free #[] (Handle.run 2)]
    have hOffset : (c.allocate #[] 4096).map (·.1.offset) = some 0 := by decide +kernel
    obtain ⟨⟨block, c', pools'⟩, hAllocate, hZero⟩ := Option.map_eq_some_iff.mp hOffset
    obtain ⟨-, node, -, hRun⟩ := hServed block c' pools' hAllocate
    have hZero : block.offset = 0 := hZero
    exact ⟨block, c', pools', hAllocate, hZero, hZero ▸ hRun.vacant⟩
  · obtain ⟨-, hRefused, -, -⟩ := hFit
      ([.allocate #[] 4096, .allocate #[] 4096, .free #[] (Handle.run 2)] ++
        [.allocate #[] 4096])
    rw [calls_concat] at hRefused
    have hNone : ((c.call (.allocate #[] 4096)).allocate #[] 4096).isNone = true := by
      decide +kernel
    exact hRefused.mp (Option.isNone_iff_eq_none.mp hNone)

end Chunk

end BlockPool
