import BlockPool.Chunk.BandLists
import BlockPool.Proofs.Chunk.Regain

/-!
# BlockPool — chunks that move between bands

The bands sort the chunks by how full they are. Moving a chunk relinks it and renames its band,
which nobody sees who asks what the chunk has handed out, so the chunks are looked up here without
the name of their band. Seen so, asking a band for room changes one chunk, and so does giving back.

* `BandLists.chunkAt?` — the chunk under an identity, without its band.
* `BandLists.allocate_cases`, `BandLists.free_cases` — all that an operation on the bands can do.
* `BandLists.allocate_eq_some`, `BandLists.free_eq_ok` — one chunk does the work.
* `Band.usage_lt_of_demote?` — a chunk that falls out of all bands is less than one percent used.
-/

namespace BlockPool

open SubpagePools (Beside)

-- ---------------------------------------------------------------------------
-- Chunks without their band
-- ---------------------------------------------------------------------------

namespace Chunk

variable {c c' : Chunk} {pools after : SubpagePools} {handle : Handle} {block : Block}

/-- The chunk without the name of its band. -/
def unbanded (c : Chunk) : Chunk := { c with band := none }

theorem Sound.setBand (h : c.Sound pools) (band : Option Band) :
    ({ c with band } : Chunk).Sound pools where
  geometry := h.geometry
  tree := h.tree
  order := h.order
  leaves := h.leaves
  freeBytes := h.freeBytes
  divided node record hRecord := by
    obtain ⟨hTaken, p, hFound, hPage⟩ := h.divided node record hRecord
    exact ⟨hTaken, p, hFound, hPage.chunk, hPage.node, hPage.runOffset, hPage.region⟩
  recorded := h.recorded

theorem sound_unbanded : c.unbanded.Sound pools ↔ c.Sound pools :=
  ⟨fun h => h.setBand c.band, fun h => h.setBand none⟩

theorem Grants.unbanded (h : c.Grants pools block c' after) :
    c.unbanded.Grants pools block c'.unbanded after :=
  ⟨⟨h.same.id, rfl, h.same.geometry, h.same.region⟩, sound_unbanded.mpr h.sound, h.store,
    h.beside, h.blocks⟩

theorem Regains.unbanded (h : c.Regains pools handle c' after) :
    c.unbanded.Regains pools handle c'.unbanded after :=
  ⟨⟨h.same.id, rfl, h.same.geometry, h.same.region⟩, sound_unbanded.mpr h.sound, h.store,
    h.beside, h.live, h.blocks⟩

/-- A chunk that is less than one percent used has nothing in use. -/
theorem size_le_of_usage_lt (hSize : 0 < c.size) (hUsage : c.usage < 1) : c.size ≤ c.freeBytes := by
  unfold usage at hUsage
  split at hUsage
  · omega
  · dsimp only at hUsage
    split at hUsage
    · omega
    · have hPercent : 100 ≤ c.freeBytes * 100 / c.size := by omega
      have hTotal := (Nat.le_div_iff_mul_le hSize).mp hPercent
      omega

end Chunk

/-- A chunk that falls out of its band and into none below is less than one percent used. -/
theorem Band.usage_lt_of_demote? {band : Band} {usage : Int} (hBelow : usage < band.minUsage)
    (hNone : band.demote? usage = none) : usage < 1 := by
  rw [demote?, List.find?_eq_none] at hNone
  have hLowest : q000 ∈ band.downwards → usage < 1 := by
    intro hMem
    have hNot := hNone q000 hMem
    rw [decide_eq_true_eq] at hNot
    exact not_le.mp hNot
  cases band with
  | fresh => exact hBelow.trans (by decide)
  | q000 => exact hBelow
  | q025 | q050 | q075 | q100 => exact hLowest (by simp [downwards])

namespace BandLists

variable {lists lists' : BandLists} {before middle later chunks chunks' : Nodes Chunk}
  {pools pools' : SubpagePools} {band : Band} {size index : Nat} {block : Block} {id : ChunkId}
  {c c' : Chunk} {handle : Handle} {fate : Fate}

/-- The chunk under an identity, without the name of its band. -/
def chunkAt? (chunks : Nodes Chunk) (id : ChunkId) : Option Chunk :=
  (chunks.find? id).map Chunk.unbanded

theorem chunkAt?_of_find? (h : chunks.find? id = some c) :
    chunkAt? chunks id = some c.unbanded := by
  rw [chunkAt?, h, Option.map_some]

/-- The same chunks under the same keys; links and bands may differ. -/
structure Rebanded (before after : Nodes Chunk) : Prop extends Nodes.SameKeys before after where
  value : ∀ i, (after.value? i).map Chunk.unbanded = (before.value? i).map Chunk.unbanded

theorem Rebanded.refl (chunks : Nodes Chunk) : Rebanded chunks chunks :=
  ⟨⟨rfl, rfl, fun _ => rfl, fun _ => Iff.rfl⟩, fun _ => rfl⟩

theorem Rebanded.trans (h : Rebanded before middle) (h' : Rebanded middle later) :
    Rebanded before later :=
  ⟨h.toSameKeys.trans h'.toSameKeys, fun i => (h'.value i).trans (h.value i)⟩

theorem rebanded_of_relinked (h : Nodes.Relinked before middle) : Rebanded before middle :=
  ⟨h.toSameKeys, fun i => by rw [h.value]⟩

theorem Rebanded.chunkAt? (h : Rebanded before middle) (id : ChunkId) :
    chunkAt? middle id = chunkAt? before id := by
  rw [BandLists.chunkAt?, BandLists.chunkAt?, Nodes.find?_eq, Nodes.find?_eq, h.generation]
  split
  · exact h.value _
  · rfl

-- ---------------------------------------------------------------------------
-- Moving between bands
-- ---------------------------------------------------------------------------

theorem rebanded_label (chunks : Nodes Chunk) (index : Nat) (band : Option Band) :
    Rebanded chunks (label chunks index band) := by
  unfold label
  split
  · rename_i c hValue
    refine ⟨Nodes.sameKeys_putValue .., fun i => ?_⟩
    rw [Nodes.value?_putValue]
    by_cases hi : i = index
    · simp [hi, hValue, Chunk.unbanded]
    · simp [hi]
  · exact Rebanded.refl chunks

theorem rebanded_link (lists : BandLists) (chunks : Nodes Chunk) (band : Band) (index : Nat) :
    Rebanded chunks (lists.link chunks band index).2 := by
  unfold link
  split
  · rename_i hPush
    exact (rebanded_of_relinked (Chain.relinked_pushFront hPush)).trans (rebanded_label ..)
  · exact Rebanded.refl chunks

theorem rebanded_remove (lists : BandLists) (chunks : Nodes Chunk) (band : Band) (index : Nat) :
    Rebanded chunks (lists.remove chunks band index).2 := by
  unfold remove
  split
  · rename_i hUnlink
    exact (rebanded_of_relinked (Chain.relinked_unlink hUnlink)).trans (rebanded_label ..)
  · exact Rebanded.refl chunks

theorem rebanded_add (lists : BandLists) (chunks : Nodes Chunk) (band : Band) (index : Nat) :
    Rebanded chunks (lists.add chunks band index).2 := by
  unfold add
  split
  · exact rebanded_link ..
  · exact Rebanded.refl chunks

-- ---------------------------------------------------------------------------
-- One chunk does the work
-- ---------------------------------------------------------------------------

/-- What becomes of a chunk that served a request: at the upper bound of its band it moves on. -/
def rise (lists : BandLists) (chunks : Nodes Chunk) (band : Band) (index : Nat) (usage : Int) :
    BandLists × Nodes Chunk :=
  if usage ≥ band.maxUsage then
    match band.next? with
    | some above =>
      (lists.remove chunks band index).1.add (lists.remove chunks band index).2 above index
    | none => lists.remove chunks band index
  else (lists, chunks)

/-- What becomes of a chunk that took a block back: below its band it moves down, or drops out. -/
def sink (lists : BandLists) (chunks : Nodes Chunk) (band : Band) (index : Nat) (usage : Int) :
    Fate × BandLists × Nodes Chunk :=
  if usage < band.minUsage then
    match band.demote? usage with
    | some below =>
      (.kept,
        (lists.remove chunks band index).1.link (lists.remove chunks band index).2 below index)
    | none => (.dropped, lists.remove chunks band index)
  else (.kept, lists, chunks)

theorem rebanded_rise (lists : BandLists) (chunks : Nodes Chunk) (band : Band) (index : Nat)
    (usage : Int) : Rebanded chunks (lists.rise chunks band index usage).2 := by
  have hRemove := rebanded_remove lists chunks band index
  unfold rise
  split
  · split
    · exact hRemove.trans (rebanded_add ..)
    · exact hRemove
  · exact Rebanded.refl chunks

theorem rebanded_sink (lists : BandLists) (chunks : Nodes Chunk) (band : Band) (index : Nat)
    (usage : Int) :
    Rebanded chunks (lists.sink chunks band index usage).2.2 ∧
      ((lists.sink chunks band index usage).1 = .dropped → usage < 1) := by
  have hRemove := rebanded_remove lists chunks band index
  unfold sink
  split
  · rename_i hBelow
    split
    · exact ⟨hRemove.trans (rebanded_link ..), by simp⟩
    · rename_i hNone
      exact ⟨hRemove, fun _ => Band.usage_lt_of_demote? hBelow hNone⟩
  · exact ⟨Rebanded.refl chunks, by simp⟩

theorem firstFit_eq_some {indices : List Nat}
    (h : firstFit chunks pools size indices = some (index, block, c', pools')) :
    index ∈ indices ∧
      ∃ c, chunks.value? index = some c ∧ c.allocate pools size = some (block, c', pools') := by
  induction indices with
  | nil => exact absurd h (by simp [firstFit])
  | cons first rest ih =>
    rw [firstFit] at h
    split at h
    · exact absurd h (by simp)
    · rename_i c hValue
      split at h
      · rename_i hAllocate
        simp only [Option.some.injEq, Prod.mk.injEq] at h
        obtain ⟨rfl, rfl, rfl, rfl⟩ := h
        exact ⟨List.mem_cons_self, c, hValue, hAllocate⟩
      · obtain ⟨hMem, hFound⟩ := ih h
        exact ⟨List.mem_cons_of_mem _ hMem, hFound⟩

/-- All that a band does for a request: one of its chunks serves it, and may then move on. -/
theorem allocate_cases
    (h : lists.allocate chunks pools band size = some (block, lists', chunks', pools')) :
    ∃ index c c', index ∈ lists.members chunks band ∧ chunks.value? index = some c ∧
      c.allocate pools size = some (block, c', pools') ∧
      lists.rise (chunks.putValue index c') band index c'.usage = (lists', chunks') := by
  unfold allocate at h
  split at h
  · exact absurd h (by simp)
  · split at h
    · exact absurd h (by simp)
    · rename_i index block' c' pools'' hFit
      obtain ⟨hMem, c, hValue, hAllocate⟩ := firstFit_eq_some hFit
      dsimp only at h
      split at h
      -- the chunk is past its band, and there is a band above or there is none
      · rename_i hAbove
        split at h
        · rename_i above hNext
          simp only [Option.some.injEq, Prod.mk.injEq] at h
          obtain ⟨rfl, rfl, rfl, rfl⟩ := h
          exact ⟨index, c, c', hMem, hValue, hAllocate, by simp only [rise, if_pos hAbove, hNext]⟩
        · rename_i hNext
          simp only [Option.some.injEq, Prod.mk.injEq] at h
          obtain ⟨rfl, rfl, rfl, rfl⟩ := h
          exact ⟨index, c, c', hMem, hValue, hAllocate, by simp only [rise, if_pos hAbove, hNext]⟩
      · rename_i hWithin
        simp only [Option.some.injEq, Prod.mk.injEq] at h
        obtain ⟨rfl, rfl, rfl, rfl⟩ := h
        exact ⟨index, c, c', hMem, hValue, hAllocate, by simp only [rise, if_neg hWithin]⟩

/-- All that the return of a block does: its chunk takes it, and may then move down or drop out. -/
theorem free_cases
    (h : lists.free chunks pools index handle = .ok (fate, lists', chunks', pools')) :
    ∃ c c', chunks.value? index = some c ∧ c.free pools handle = .ok (c', pools') ∧
      ((c'.band = none ∧ (fate, lists', chunks') = (.kept, lists, chunks.putValue index c')) ∨
        ∃ band, c'.band = some band ∧
          lists.sink (chunks.putValue index c') band index c'.usage = (fate, lists', chunks')) := by
  unfold free at h
  split at h
  · exact absurd h (by simp)
  · rename_i c hValue
    split at h
    · exact absurd h (by simp)
    · rename_i c' pools'' hFree
      dsimp only at h
      split at h
      · rename_i hBand
        simp only [Except.ok.injEq, Prod.mk.injEq] at h
        obtain ⟨rfl, rfl, rfl, rfl⟩ := h
        exact ⟨c, c', hValue, hFree, .inl ⟨hBand, rfl⟩⟩
      · rename_i band hBand
        split at h
        -- the chunk is below its band, and moves down or drops out
        · rename_i hBelow
          split at h
          · rename_i below hDemote
            simp only [Except.ok.injEq, Prod.mk.injEq] at h
            obtain ⟨rfl, rfl, rfl, rfl⟩ := h
            exact ⟨c, c', hValue, hFree,
              .inr ⟨band, hBand, by simp only [sink, if_pos hBelow, hDemote]⟩⟩
          · rename_i hDemote
            simp only [Except.ok.injEq, Prod.mk.injEq] at h
            obtain ⟨rfl, rfl, rfl, rfl⟩ := h
            exact ⟨c, c', hValue, hFree,
              .inr ⟨band, hBand, by simp only [sink, if_pos hBelow, hDemote]⟩⟩
        · rename_i hWithin
          simp only [Except.ok.injEq, Prod.mk.injEq] at h
          obtain ⟨rfl, rfl, rfl, rfl⟩ := h
          exact ⟨c, c', hValue, hFree, .inr ⟨band, hBand, by simp only [sink, if_neg hWithin]⟩⟩

/-- A band that has room serves a size from one of its chunks. -/
theorem allocate_eq_some
    (h : lists.allocate chunks pools band size = some (block, lists', chunks', pools')) :
    ∃ id c c', chunks.find? id = some c ∧ c.allocate pools size = some (block, c', pools') ∧
      Rebanded (chunks.putValue id.index c') chunks' := by
  obtain ⟨index, c, c', -, hValue, hAllocate, hRise⟩ := allocate_cases h
  obtain ⟨id, rfl, hFound⟩ := Nodes.exists_find?_of_value? hValue
  have hRebanded := rebanded_rise lists (chunks.putValue id.index c') band id.index c'.usage
  rw [hRise] at hRebanded
  exact ⟨id, c, c', hFound, hAllocate, hRebanded⟩

/-- A handle goes back to its chunk, and a chunk that drops out has nothing in use. -/
theorem free_eq_ok (hFound : chunks.find? id = some c)
    (h : lists.free chunks pools id.index handle = .ok (fate, lists', chunks', pools')) :
    ∃ c', c.free pools handle = .ok (c', pools') ∧
      Rebanded (chunks.putValue id.index c') chunks' ∧ (fate = .dropped → c'.usage < 1) := by
  obtain ⟨c₀, c', hValue, hFree, hFate⟩ := free_cases h
  obtain rfl : c = c₀ := by simpa [Nodes.value?_of_find? hFound] using hValue
  refine ⟨c', hFree, ?_⟩
  rcases hFate with ⟨-, hKept⟩ | ⟨band, -, hSink⟩
  · simp only [Prod.mk.injEq] at hKept
    obtain ⟨rfl, -, rfl⟩ := hKept
    exact ⟨Rebanded.refl _, by simp⟩
  · have hRebanded := rebanded_sink lists (chunks.putValue id.index c') band id.index c'.usage
    rwa [hSink] at hRebanded

/-- What a chunk accepts, the lists accept. -/
theorem exists_free (lists : BandLists) (hFound : chunks.find? id = some c)
    (hFree : c.free pools handle = .ok (c', pools')) :
    ∃ fate lists' chunks',
      lists.free chunks pools id.index handle = .ok (fate, lists', chunks', pools') := by
  unfold free
  rw [Nodes.value?_of_find? hFound]
  simp only [hFree]
  split
  · exact ⟨_, _, _, rfl⟩
  · split
    · split <;> exact ⟨_, _, _, rfl⟩
    · exact ⟨_, _, _, rfl⟩

/-- The chunks after one of them changed. -/
theorem Rebanded.chunkAt?_of_putValue (hFound : chunks.find? id = some c)
    (h : Rebanded (chunks.putValue id.index c') chunks') (other : ChunkId) :
    BandLists.chunkAt? chunks' other =
      if other = id then some c'.unbanded else BandLists.chunkAt? chunks other := by
  rw [h.chunkAt?, BandLists.chunkAt?, Nodes.find?_putValue hFound]
  split <;> rfl

end BandLists

end BlockPool
