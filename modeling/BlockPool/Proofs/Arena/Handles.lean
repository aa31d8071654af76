import BlockPool.Proofs.Arena.Run
import BlockPool.Proofs.Chunk.History

/-!
# BlockPool — which handles a chunk takes back

A handle comes from outside and may name anything: a node above or below a taken run, a page that is
divided, a slot that does not exist. A chunk takes it back exactly while it names something that is
handed out. What the pools are told before the tree is asked is never undone, so that a refusal
changes nothing is a fact about both together: a page that hosts a subpage is taken in the tree.

* `Chunk.Live` — what a handle must name to be accepted, said of the tree and the subpages.
* `Chunk.freeInPlace` — giving back in place, with what stands changed where it is refused.
* `Chunk.OnlyFrees` — what happens to a chunk and its pools while nothing is allocated.
* `Chunk.FreesExactly` — giving back accepts the live handles, and is all or nothing.
* `Chunk.frees_exactly` — so it is after every history of a chunk, and in every arena.
-/

namespace BlockPool.Chunk

open SubpagePools (subpageAt? Beside)

variable {c c' c₁ : Chunk} {pools pools' after : SubpagePools} {record : LeafRecord} {p : Subpage}
  {handle other : Handle} {node : UInt32} {error : ChunkError} {g : Geometry}

-- ---------------------------------------------------------------------------
-- Live handles
-- ---------------------------------------------------------------------------

/-- The node is a page of the chunk that is divided into the slots of a subpage. -/
structure Hosts (c : Chunk) (pools : SubpagePools) (node : UInt32) (p : Subpage) : Prop where
  leaf : c.tree.numPages ≤ node.toNat
  found : ∃ record, subpageAt? pools record = some p
  chunk : p.chunk = c.id
  node : p.node = node

/-- The handle names a run, which is a taken node that hosts no subpage, or a slot in use of the
subpage that its node hosts. -/
def Live (c : Chunk) (pools : SubpagePools) (handle : Handle) : Prop :=
  (handle.slot = none ∧ c.tree.isTaken handle.node.toNat = true ∧
      ∀ p, ¬ c.Hosts pools handle.node p) ∨
    ∃ slot p, handle.slot = some slot ∧ c.Hosts pools handle.node p ∧ p.isUsed slot.toNat = true

/-- A subpage is hosted by the node that is recorded as divided into it. -/
theorem Sound.hosts_iff (h : c.Sound pools) : c.Hosts pools node p ↔
    ∃ record, c.leafRecord? node.toNat = some record ∧ subpageAt? pools record = some p := by
  constructor
  · rintro ⟨-, ⟨record, hFound⟩, hChunk, rfl⟩
    exact ⟨record, h.recorded record p hFound hChunk, hFound⟩
  · rintro ⟨record, hRecord, hFound⟩
    obtain ⟨-, p', hFound', hPage⟩ := h.divided _ _ hRecord
    obtain rfl : p = p' := by simpa [hFound] using hFound'
    exact ⟨numPages_le_of_leafRecord? hRecord, ⟨record, hFound⟩, hPage.chunk,
      by rw [hPage.node, UInt32.ofNat_toNat]⟩

/-- The live handles are those that name a block. -/
theorem Sound.live_iff (h : c.Sound pools) :
    c.Live pools handle ↔ (c.blockAt? pools handle).isSome = true := by
  unfold Live
  simp only [h.hosts_iff]
  cases hRecord : c.leafRecord? handle.node.toNat with
  | none => simp [blockAt?_run hRecord]
  | some record =>
    obtain ⟨-, p, hFound, -⟩ := h.divided _ _ hRecord
    rw [blockAt?_slot hRecord]
    cases handle.slot with
    | none => simp [hFound]
    | some slot => simp [hFound, Subpage.live?]

-- ---------------------------------------------------------------------------
-- Giving back in place
-- ---------------------------------------------------------------------------

/-- Gives a node back in place: the answer, and the chunk as it stands then. -/
def freeNodeInPlace (c : Chunk) (handle : Handle) : Except ChunkError Unit × Chunk :=
  match c.freeNode handle with
  | .error e => (.error e, c)
  | .ok c' => (.ok (), c')

/-- Gives a slot back in place. The pool has taken the slot back before the tree is asked, and the
leaf has lost its record. Each of the two looks before it changes anything, so a refusal of its own
leaves it as it was; it is the order of both that could go wrong. -/
def freeSlotInPlace (c : Chunk) (pools : SubpagePools) (handle : Handle) (record : LeafRecord) :
    Except ChunkError Unit × Chunk × SubpagePools :=
  match pools[record.pool]? with
  | none => (.error (.noSubpage handle), c, pools)
  | some pool =>
    match pool.give record.key handle with
    | .error e => (.error e, c, pools)
    | .ok (stays, pool) =>
      let pools := pools.setIfInBounds record.pool pool
      if stays then (.ok (), c, pools)
      else
        let leaf := handle.node.toNat - c.tree.numPages
        let c := { c with leaves := c.leaves.setIfInBounds leaf none }
        let (answer, c) := c.freeNodeInPlace handle
        (answer, c, pools)

/-- Takes a block back in place: the answer, and the chunk and the pools as they stand then. -/
def freeInPlace (c : Chunk) (pools : SubpagePools) (handle : Handle) :
    Except ChunkError Unit × Chunk × SubpagePools :=
  let node := handle.node.toNat
  if node = 0 ∨ node ≥ c.tree.numNodes then (.error (.invalidNode handle.node), c, pools)
  else
    match handle.isSubpage, c.leafRecord? node with
    | true, some record => c.freeSlotInPlace pools handle record
    | true, none => (.error (.noSubpage handle), c, pools)
    | false, some _ => (.error (.notAllocated handle), c, pools)
    | false, none =>
      let (answer, c) := c.freeNodeInPlace handle
      (answer, c, pools)

/-- What giving back leaves behind: the new state if the handle is accepted, and the old one if it
is refused. -/
def outcome (c : Chunk) (pools : SubpagePools) (handle : Handle) :
    Except ChunkError Unit × Chunk × SubpagePools :=
  match c.free pools handle with
  | .ok (c', pools') => (.ok (), c', pools')
  | .error e => (.error e, c, pools)

/-- All or nothing: once the pool has let a page go, the tree takes it. -/
theorem Sound.freeInPlace_eq (h : c.Sound pools) (handle : Handle) :
    c.freeInPlace pools handle = c.outcome pools handle := by
  unfold freeInPlace outcome free
  dsimp only
  split
  · rfl
  · cases hSlot : handle.isSubpage with
    | false =>
      cases hRecord : c.leafRecord? handle.node.toNat with
      | none => cases hFree : c.freeNode handle <;> simp [freeNodeInPlace, hFree]
      | some record => rfl
    | true =>
      cases hRecord : c.leafRecord? handle.node.toNat with
      | none => rfl
      | some record =>
        dsimp only
        unfold freeSlotInPlace freeSlot
        cases pools[record.pool]? with
        | none => rfl
        | some pool =>
          dsimp only
          cases pool.give record.key handle with
          | error e => rfl
          | ok result =>
            obtain ⟨stays, pool'⟩ := result
            cases stays with
            | true => rfl
            | false =>
              -- the slot was the last of its page: the pool has let it go, and the leaf is taken in
              -- the tree
              set leaves := c.leaves.setIfInBounds (handle.node.toNat - c.tree.numPages) none
              obtain ⟨c', hFree⟩ : ∃ c', ({ c with leaves } : Chunk).freeNode handle = .ok c' :=
                exists_freeNode h.tree (h.divided _ _ hRecord).1
              simp [freeNodeInPlace, hFree]

-- ---------------------------------------------------------------------------
-- While nothing is allocated
-- ---------------------------------------------------------------------------

/-- Handles were given back, to the chunk or to another one beside the same pools, and lists took
the chunk in or let it go. What was refused on the way changed nothing. -/
inductive OnlyFrees : Chunk → SubpagePools → Chunk → SubpagePools → Prop
  | refl (c : Chunk) (pools : SubpagePools) : OnlyFrees c pools c pools
  | own {c c₁ c' : Chunk} {pools pools₁ pools' : SubpagePools} {handle : Handle}
      (hFree : c.free pools handle = .ok (c₁, pools₁))
      (hRest : OnlyFrees c₁ pools₁ c' pools') : OnlyFrees c pools c' pools'
  | beside {c c' neighbour neighbour' : Chunk} {pools pools₁ pools' : SubpagePools}
      {handle : Handle} (hSound : neighbour.Sound pools)
      (hGeometry : neighbour.geometry = c.geometry) (hNe : neighbour.id ≠ c.id)
      (hFree : neighbour.free pools handle = .ok (neighbour', pools₁))
      (hRest : OnlyFrees c pools₁ c' pools') : OnlyFrees c pools c' pools'
  | place {c c' : Chunk} {pools pools' : SubpagePools} (band : Option Band)
      (hRest : OnlyFrees { c with band } pools c' pools') : OnlyFrees c pools c' pools'

/-- Nothing comes alive while nothing is allocated. -/
theorem OnlyFrees.live (hFrees : OnlyFrees c pools c' pools') (h : c.Sound pools)
    (hPools : SubpagePools.Sound c.geometry pools) :
    c'.Sound pools' ∧ SubpagePools.Sound c'.geometry pools' ∧
      ∀ handle, c'.Live pools' handle → c.Live pools handle := by
  induction hFrees with
  | refl => exact ⟨h, hPools, fun _ hLive => hLive⟩
  | own hFree _ ih =>
    have hRegains := h.regains_of_free hPools hFree
    obtain ⟨hSound, hStore, hBack⟩ := ih hRegains.sound (hRegains.same.geometry ▸ hRegains.store)
    refine ⟨hSound, hStore, fun handle hLive => ?_⟩
    have hLive := hBack handle hLive
    -- of its own blocks one handle is gone, and the others are as before
    rw [hRegains.sound.live_iff, hRegains.blocks] at hLive
    rw [h.live_iff]
    split at hLive
    · exact absurd hLive (by simp)
    · exact hLive
  | beside hSound hGeometry hNe hFree _ ih =>
    have hRegains := hSound.regains_of_free (hGeometry ▸ hPools) hFree
    -- another chunk's free shows in other pages of the pools only
    obtain ⟨hKept, hSame⟩ := h.frame hRegains.beside hNe.symm
    obtain ⟨hSound, hStore, hBack⟩ := ih hKept (hGeometry ▸ hRegains.store)
    refine ⟨hSound, hStore, fun handle hLive => ?_⟩
    have hLive := hBack handle hLive
    rwa [hKept.live_iff, hSame, ← h.live_iff] at hLive
  | place band _ ih =>
    obtain ⟨hSound, hStore, hBack⟩ := ih (h.setBand band) hPools
    refine ⟨hSound, hStore, fun handle hLive => ?_⟩
    have hLive := (h.setBand band).live_iff.mp (hBack handle hLive)
    exact h.live_iff.mpr hLive

-- ---------------------------------------------------------------------------
-- Exactly the live handles
-- ---------------------------------------------------------------------------

/-- Giving back accepts exactly the live handles and is all or nothing. -/
structure FreesExactly (c : Chunk) (pools : SubpagePools) : Prop where
  accepts : ∀ handle,
    (∃ c' pools', c.free pools handle = .ok (c', pools')) ↔ c.Live pools handle
  /-- A handle that is refused leaves the chunk and all pools as they were. -/
  refused : ∀ handle error, c.free pools handle = .error error →
    c.freeInPlace pools handle = (.error error, c, pools)
  /-- A handle that is accepted is not live any more. All others are live as before, here and for
  every other chunk, and name the same blocks. -/
  accepted : ∀ handle c' pools', c.free pools handle = .ok (c', pools') →
    c.freeInPlace pools handle = (.ok (), c', pools') ∧
      (∀ other, c'.Live pools' other ↔ other ≠ handle ∧ c.Live pools other) ∧
      (∀ other, other ≠ handle → c'.blockAt? pools' other = c.blockAt? pools other) ∧
      Beside c.id pools pools'
  /-- Until something is allocated, the handle is refused from then on. -/
  again : ∀ handle c' pools' c'' pools'', c.free pools handle = .ok (c', pools') →
    OnlyFrees c' pools' c'' pools'' → ∃ error, c''.free pools'' handle = .error error

theorem Sound.accepts_iff (h : c.Sound pools) (hPools : SubpagePools.Sound c.geometry pools)
    (handle : Handle) :
    (∃ c' pools', c.free pools handle = .ok (c', pools')) ↔ c.Live pools handle := by
  rw [h.live_iff]
  constructor
  · rintro ⟨c', pools', hFree⟩
    exact (h.regains_of_free hPools hFree).live
  · intro hSome
    obtain ⟨block, hBlock⟩ := Option.isSome_iff_exists.mp hSome
    exact h.exists_free hPools hBlock

/-- A live handle is accepted once, and refused ever after. -/
theorem Sound.freesExactly (h : c.Sound pools) (hPools : SubpagePools.Sound c.geometry pools) :
    c.FreesExactly pools where
  accepts := h.accepts_iff hPools
  refused handle error hFree := by rw [h.freeInPlace_eq, outcome, hFree]
  accepted handle c' pools' hFree := by
    have hRegains := h.regains_of_free hPools hFree
    refine ⟨by rw [h.freeInPlace_eq, outcome, hFree], fun other => ?_, fun other hNe => ?_,
      hRegains.beside⟩
    · rw [hRegains.sound.live_iff, hRegains.blocks, h.live_iff]
      split <;> simp [*]
    · rw [hRegains.blocks, if_neg hNe]
  again handle c' pools' c'' pools'' hFree hLater := by
    have hRegains := h.regains_of_free hPools hFree
    have hStore := hRegains.same.geometry ▸ hRegains.store
    -- later frees bring nothing to life, so what ended with the first stays dead
    obtain ⟨hSound, hStore', hBack⟩ := hLater.live hRegains.sound hStore
    have hDead : ¬ c'.Live pools' handle := by
      rw [hRegains.sound.live_iff, hRegains.blocks, if_pos rfl]
      simp
    cases hAgain : c''.free pools'' handle with
    | error error => exact ⟨error, rfl⟩
    | ok result =>
      exact absurd (hBack handle ((hSound.accepts_iff hStore' handle).mp ⟨_, _, hAgain⟩)) hDead

/-- After every history of a chunk with its pools, and in every arena whatever its callers do,
giving back accepts exactly the live handles and is all or nothing. -/
theorem frees_exactly (hg : g.WellFormed) :
    (∀ (id : ChunkId) (region : Region) (ops : List Op),
      let s := (Site.fresh id g region).run ops
      s.chunk.FreesExactly s.pools) ∧
    ∀ (index : Nat) (supply : Supply) (ops : List Arena.Op) (id : ChunkId) (c : Chunk),
      let a := (Arena.empty index g supply).run ops
      a.chunks.find? id = some c → c.FreesExactly a.pools := by
  constructor
  · intro id region ops s
    have h := ((Site.sound_fresh hg id region).run ops).1
    exact h.chunk.freesExactly h.pools
  · intro index supply ops id c a hFound
    have h : a.Sound := ((Arena.regular_empty hg index supply).run ops).sound
    obtain ⟨-, hGeometry, hSound⟩ := h.hosts_of_find? hFound
    exact hSound.freesExactly (hGeometry ▸ h.pools)

/-- A page is divided for one slot and the other one is a run. The divided page is no run and the
run has no slots; the slot goes back once. -/
theorem frees_exactly_two_pages :
    (⟨4096, 1, 0⟩ : Geometry).WellFormed ∧
      let s := (Site.fresh default ⟨4096, 1, 0⟩ default).run [.allocate 100, .allocate 4096]
      ¬ s.chunk.Live s.pools (Handle.run 2) ∧ ¬ s.chunk.Live s.pools (Handle.subpage 3 0) ∧
        s.chunk.Live s.pools (Handle.run 3) ∧
        ∃ c' pools', s.chunk.free s.pools (Handle.subpage 2 0) = .ok (c', pools') ∧
          (c'.free pools' (Handle.subpage 2 0)).isOk = false := by
  have hg := Geometry.wellFormed_two_pages
  refine ⟨hg, ?_⟩
  intro s
  have hExactly : s.chunk.FreesExactly s.pools :=
    (frees_exactly hg).1 default default [.allocate 100, .allocate 4096]
  -- whether a handle is live can be computed as the answer to it
  have hAnswer (handle : Handle) :
      (s.chunk.free s.pools handle).isOk = true ↔ s.chunk.Live s.pools handle := by
    rw [← hExactly.accepts]
    cases s.chunk.free s.pools handle with
    | error error => simp [Except.isOk, Except.toBool]
    | ok result => simpa [Except.isOk, Except.toBool] using ⟨result.1, result.2, rfl⟩
  refine ⟨?_, ?_, ?_, ?_⟩
  · rw [← hAnswer]
    decide +kernel
  · rw [← hAnswer]
    decide +kernel
  · rw [← hAnswer]
    decide +kernel
  · have hLive : s.chunk.Live s.pools (Handle.subpage 2 0) := by
      rw [← hAnswer]
      decide +kernel
    obtain ⟨c', pools', hFree⟩ := (hExactly.accepts _).mpr hLive
    obtain ⟨error, hAgain⟩ := hExactly.again _ c' pools' c' pools' hFree (.refl ..)
    exact ⟨c', pools', hFree, by rw [hAgain]; rfl⟩

end BlockPool.Chunk
