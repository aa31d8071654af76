import BlockPool.Proofs.Chunk.BandLists
import BlockPool.Proofs.Store.Chain
import BlockPool.Proofs.Store.Entries

/-!
# BlockPool — chunks in order of usage

Every chunk is in the chain of one band, the one that it names, and its usage lies within the bounds
of that band. The bands overlap, each reaching the lower bound of the one above, so a chunk that
leaves a band upwards is not below any band that takes it in, and one that falls is not above any.

* `Band.Covers` — a usage lies within the bounds of a band.
* `BandLists.Filed` — the chains hold exactly the chunks that name them.
* `BandLists.Sorted` — and every chunk is in a band that covers its usage.
* `BandLists.Sorted.allocate`, `BandLists.Sorted.free`, `BandLists.Sorted.enter` — and stays in one.
-/

namespace BlockPool

-- ---------------------------------------------------------------------------
-- Usage
-- ---------------------------------------------------------------------------

namespace Chunk

variable {c c' : Chunk} {pools after : SubpagePools} {handle : Handle} {block : Block} {size : Nat}

theorem usage_le_hundred (c : Chunk) : c.usage ≤ 100 := by
  unfold usage
  dsimp only
  generalize c.freeBytes * 100 / c.size = percent
  split
  · exact Int.le_refl _
  · split <;> omega

theorem usage_nonneg (h : c.freeBytes ≤ c.size) : 0 ≤ c.usage := by
  have hPercent : c.freeBytes * 100 / c.size ≤ 100 :=
    Nat.div_le_of_le_mul (Nat.mul_le_mul_right 100 h)
  unfold usage
  dsimp only
  generalize c.freeBytes * 100 / c.size = percent at hPercent ⊢
  split
  · decide
  · split <;> omega

/-- A chunk counts as full exactly when no byte of it is free. -/
theorem hundred_le_usage_iff : 100 ≤ c.usage ↔ c.freeBytes = 0 := by
  unfold usage
  dsimp only
  generalize c.freeBytes * 100 / c.size = percent
  split
  · rename_i hFull
    exact iff_of_true (Int.le_refl _) hFull
  · rename_i hSome
    refine iff_of_false ?_ hSome
    split <;> omega

theorem usage_eq_zero (hSize : 0 < c.size) (hFree : c.freeBytes = c.size) : c.usage = 0 := by
  unfold usage
  dsimp only
  rw [hFree, if_neg hSize.ne', Nat.mul_div_cancel_left 100 hSize]
  decide

/-- The more bytes of a chunk are free, the less it is used. -/
theorem usage_le_of_freeBytes_le (hSize : c'.size = c.size) (hLe : c.freeBytes ≤ c'.freeBytes) :
    c'.usage ≤ c.usage := by
  have hPercent : c.freeBytes * 100 / c.size ≤ c'.freeBytes * 100 / c'.size := by
    rw [hSize]
    exact Nat.div_le_div_right (Nat.mul_le_mul_right _ hLe)
  by_cases hFull : c.freeBytes = 0
  · exact (usage_le_hundred c').trans (hundred_le_usage_iff.mpr hFull)
  · unfold usage
    dsimp only
    rw [if_neg hFull, if_neg (by omega : c'.freeBytes ≠ 0)]
    generalize c.freeBytes * 100 / c.size = percent at hPercent ⊢
    generalize c'.freeBytes * 100 / c'.size = percent' at hPercent ⊢
    split <;> split <;> omega

/-- A chunk that serves a request has the same size and band, and no more bytes are free. -/
theorem allocate_frame (h : c.allocate pools size = some (block, c', after)) :
    c'.band = c.band ∧ c'.size = c.size ∧ c'.freeBytes ≤ c.freeBytes := by
  rcases allocate_cases h with ⟨-, hServed⟩ | ⟨-, hRun, -⟩
  · obtain ⟨pool, pool', node, tree, -, -, -, rfl, -⟩ := allocateSubpage_eq_some hServed
    exact ⟨rfl, rfl, Nat.sub_le ..⟩
  · obtain ⟨node, tree, -, -, rfl⟩ := allocateRun_eq_some hRun
    exact ⟨rfl, rfl, Nat.sub_le ..⟩

/-- A chunk that takes a block back has the same size and band, and no fewer bytes are free. -/
theorem free_frame (h : c.free pools handle = .ok (c', after)) :
    c'.band = c.band ∧ c'.size = c.size ∧ c.freeBytes ≤ c'.freeBytes := by
  rcases free_cases h with ⟨record, -, -, hSlot⟩ | ⟨-, -, hNode, -⟩
  · obtain ⟨pool, stays, pool', -, -, -, ⟨-, rfl⟩ | ⟨-, hNode⟩⟩ := freeSlot_cases hSlot
    · exact ⟨rfl, rfl, Nat.le_refl _⟩
    · obtain ⟨tree, -, rfl⟩ := freeNode_cases hNode
      exact ⟨rfl, rfl, Nat.le_add_right ..⟩
  · obtain ⟨tree, -, rfl⟩ := freeNode_cases hNode
    exact ⟨rfl, rfl, Nat.le_add_right ..⟩

end Chunk

-- ---------------------------------------------------------------------------
-- The bounds of the bands
-- ---------------------------------------------------------------------------

namespace Band

variable {band above below : Band} {bands : List Band} {usage : Int}

/-- A usage lies within the bounds of the band. -/
def Covers (band : Band) (usage : Int) : Prop := band.minUsage ≤ usage ∧ usage < band.maxUsage

/-- On the way up, every band starts no later than the one before it ends. -/
theorem overlap_onwards (band : Band) :
    (band :: band.onwards.tail).IsChain fun b b' => b'.minUsage ≤ b.maxUsage := by
  cases band <;> decide

/-- On the way down, every band ends no sooner than the one before it starts. -/
theorem overlap_downwards (band : Band) :
    (band :: band.downwards).IsChain fun b b' => b.minUsage ≤ b'.maxUsage := by
  cases band <;> decide

/-- The first band whose upper bound a usage does not reach covers it. -/
theorem covers_of_find_rising
    (hOverlap : (band :: bands).IsChain fun b b' => b'.minUsage ≤ b.maxUsage)
    (hLow : band.minUsage ≤ usage)
    (hFind : (band :: bands).find? (fun b => decide (usage < b.maxUsage)) = some above) :
    above.Covers usage := by
  induction bands generalizing band with
  | nil =>
    obtain ⟨hHigh, rfl⟩ := by simpa using hFind
    exact ⟨hLow, hHigh⟩
  | cons next rest ih =>
    obtain ⟨hNext, hRest⟩ := List.isChain_cons_cons.mp hOverlap
    rw [List.find?_cons] at hFind
    split at hFind
    · rename_i hHigh
      obtain rfl := Option.some.inj hFind
      exact ⟨hLow, of_decide_eq_true hHigh⟩
    · rename_i hReached
      have hMax := of_decide_eq_false hReached
      exact ih hRest (hNext.trans (by omega)) hFind

/-- The first band whose lower bound a usage does reach covers it. -/
theorem covers_of_find_falling
    (hOverlap : (band :: bands).IsChain fun b b' => b.minUsage ≤ b'.maxUsage)
    (hBelow : usage < band.minUsage)
    (hFind : bands.find? (fun b => decide (b.minUsage ≤ usage)) = some below) :
    below.Covers usage := by
  induction bands generalizing band with
  | nil => exact absurd hFind (by simp)
  | cons next rest ih =>
    obtain ⟨hNext, hRest⟩ := List.isChain_cons_cons.mp hOverlap
    rw [List.find?_cons] at hFind
    split at hFind
    · rename_i hLow
      obtain rfl := Option.some.inj hFind
      exact ⟨of_decide_eq_true hLow, by omega⟩
    · rename_i hNotLow
      have hMin := of_decide_eq_false hNotLow
      exact ih hRest (by omega) hFind

/-- The band that takes a chunk in covers its usage. -/
theorem covers_accept (hLow : band.minUsage ≤ usage) (hUsage : usage ≤ 100) :
    (band.accept usage).Covers usage := by
  have hOnwards : band :: band.onwards.tail = band.onwards := by cases band <;> rfl
  have hLast : q100 ∈ band.onwards := by cases band <;> decide
  obtain ⟨above, hFind⟩ : ∃ above,
      band.onwards.find? (fun b => decide (usage < b.maxUsage)) = some above := by
    have hHigh : usage < q100.maxUsage := hUsage.trans_lt (by decide)
    refine Option.isSome_iff_exists.mp (List.find?_isSome.mpr ⟨q100, hLast, ?_⟩)
    exact decide_eq_true hHigh
  rw [accept, hFind, Option.getD_some]
  rw [← hOnwards] at hFind
  exact covers_of_find_rising (overlap_onwards band) hLow hFind

/-- The band that a chunk falls into covers its usage. -/
theorem covers_of_demote? (hBelow : usage < band.minUsage) (h : band.demote? usage = some below) :
    below.Covers usage :=
  covers_of_find_falling (overlap_downwards band) hBelow h

/-- A chunk that reached the upper bound of a band has reached the next one. -/
theorem minUsage_le_of_next? (hNext : band.next? = some above) (hUsage : band.maxUsage ≤ usage) :
    above.minUsage ≤ usage := by
  refine Int.le_trans ?_ hUsage
  cases band <;> cases hNext <;> decide

/-- Only the first band takes chunks that are not used at all. -/
theorem Covers.eq_fresh (h : band.Covers 0) : band = fresh := by
  have hLow := h.1
  cases band with
  | fresh => rfl
  | _ => exact absurd hLow (by decide)

/-- No chunk reaches the upper bound of the last band. -/
theorem lt_of_next?_eq_none (hNone : band.next? = none) (hUsage : usage ≤ 100) :
    usage < band.maxUsage := by
  cases band with
  | q100 => exact hUsage.trans_lt (by decide)
  | _ => exact absurd hNone (by simp [next?])

end Band

-- ---------------------------------------------------------------------------
-- Chunks in their chains
-- ---------------------------------------------------------------------------

namespace BandLists

variable {lists lists' : BandLists} {chunks chunks' : Nodes Chunk} {pools pools' : SubpagePools}
  {band below : Band} {size i index : Nat} {block : Block} {id : ChunkId} {c c' : Chunk}
  {handle : Handle} {fate : Fate} {usage : Int}

/-- The band that the chunk in a slot names. -/
def bandAt? (chunks : Nodes Chunk) (i : Nat) : Option Band := (chunks.value? i).bind (·.band)

theorem bandAt?_of_value? (h : chunks.value? i = some c) : bandAt? chunks i = c.band := by
  rw [bandAt?, h, Option.bind_some]

/-- The chain of a band holds exactly the chunks that name it, and the chunks are as many as it is
said. -/
structure Filed (lists : BandLists) (chunks : Nodes Chunk) : Prop where
  files : Chain.Files lists.chain chunks (bandAt? chunks)
  counted : chunks.Counted

/-- The chunks after the one in a slot was replaced. -/
def Puts (chunks : Nodes Chunk) (i : Nat) (c : Chunk) (chunks' : Nodes Chunk) : Prop :=
  ∀ j, chunks'.value? j = if j = i then some c else chunks.value? j

theorem puts_putValue (h : chunks.value? i = some c) (c' : Chunk) :
    Puts chunks i c' (chunks.putValue i c') := by
  intro j
  rw [Nodes.value?_putValue, h]
  simp

theorem Puts.trans {middle : Nodes Chunk} (h : Puts chunks i c middle)
    (h' : Puts middle i c' chunks') :
    Puts chunks i c' chunks' := by
  intro j
  rw [h', h]
  split <;> rfl

theorem Puts.self (h : Puts chunks i c chunks') : chunks'.value? i = some c := by rw [h, if_pos rfl]

theorem Puts.bandAt? (h : Puts chunks i c chunks') :
    bandAt? chunks' = Function.update (BandLists.bandAt? chunks) i c.band := by
  funext j
  rw [BandLists.bandAt?, h]
  by_cases hj : j = i
  · simp [hj]
  · simp [hj, BandLists.bandAt?]

theorem chain_setChain (lists : BandLists) (band : Band) (chain : Chain) :
    (lists.setChain band chain).chain = Function.update lists.chain band chain := by
  have hIndex : ∀ b b' : Band, b.index = b'.index → b = b' := by
    intro b b' hEq
    cases b <;> cases b' <;> first | rfl | exact absurd hEq (by decide)
  funext other
  rw [BandLists.chain, setChain]
  by_cases hOther : other = band
  · subst hOther
    rw [Function.update_self]
    exact Vector.getElem_set_self _
  · rw [Function.update_of_ne hOther]
    exact Vector.getElem_set_ne band.index.isLt other.index.isLt fun hEq =>
      hOther (hIndex _ _ (Fin.ext hEq)).symm

/-- A chunk that names the same band may take the place of one. -/
theorem Filed.putValue (h : lists.Filed chunks) (hValue : chunks.value? i = some c)
    (hBand : c'.band = c.band) : lists.Filed (chunks.putValue i c') := by
  refine ⟨h.files.congr (fun _ => Nodes.link?_putValue ..) fun j => ?_,
    Nodes.counted_putValue h.counted i c'⟩
  rw [(puts_putValue hValue c').bandAt?, hBand, ← bandAt?_of_value? hValue, Function.update_eq_self]

/-- A chunk whose place in the chains was changed is given the name of its new band. -/
theorem filed_label {chain : Band → Chain} {nodes : Nodes Chunk} {named : Option Band}
    (hLists : lists'.chain = chain)
    (hFiles : Chain.Files chain nodes (Function.update (bandAt? chunks) i named))
    (hLinks : Nodes.Relinked chunks nodes) (hCounted : nodes.Counted)
    (hValue : chunks.value? i = some c) :
    lists'.Filed (label nodes i named) ∧
      Puts chunks i { c with band := named } (label nodes i named) := by
  have hHere : nodes.value? i = some c := (hLinks.value i).trans hValue
  have hLabel : label nodes i named = nodes.putValue i { c with band := named } := by
    rw [label, hHere]
  have hPuts : Puts chunks i { c with band := named } (label nodes i named) := by
    intro j
    rw [hLabel, puts_putValue hHere, hLinks.value]
  refine ⟨⟨?_, ?_⟩, hPuts⟩
  · rw [hPuts.bandAt?, hLists, hLabel]
    exact hFiles.congr (fun _ => Nodes.link?_putValue ..) fun _ => rfl
  · rw [hLabel]
    exact Nodes.counted_putValue hCounted ..

/-- A chunk without a band joins one. -/
theorem Filed.link (h : lists.Filed chunks) (hValue : chunks.value? i = some c)
    (hNone : c.band = none) (band : Band) :
    (lists.link chunks band i).1.Filed (lists.link chunks band i).2 ∧
      Puts chunks i { c with band := some band } (lists.link chunks band i).2 := by
  obtain ⟨link, hLink⟩ : ∃ link, chunks.link? i = some link :=
    Option.isSome_iff_exists.mp (by rw [← Nodes.isSome_value?, hValue]; rfl)
  obtain ⟨chain, nodes, hPush, hFiles⟩ :=
    h.files.pushFront ((bandAt?_of_value? hValue).trans hNone) hLink band
  have hAfter : lists.link chunks band i =
      (lists.setChain band chain, label nodes i (some band)) := by
    simp only [BandLists.link, hPush]
  rw [hAfter]
  exact filed_label (chain_setChain ..) hFiles (Chain.relinked_pushFront hPush)
    (Chain.counted_pushFront h.counted hPush) hValue

/-- A chunk leaves its band. -/
theorem Filed.remove (h : lists.Filed chunks) (hValue : chunks.value? i = some c)
    (hBand : c.band = some band) :
    (lists.remove chunks band i).1.Filed (lists.remove chunks band i).2 ∧
      Puts chunks i { c with band := none } (lists.remove chunks band i).2 := by
  obtain ⟨chain, nodes, hUnlink, hFiles⟩ :=
    h.files.unlink ((bandAt?_of_value? hValue).trans hBand)
  have hAfter : lists.remove chunks band i = (lists.setChain band chain, label nodes i none) := by
    simp only [BandLists.remove, hUnlink]
  rw [hAfter]
  exact filed_label (chain_setChain ..) hFiles (Chain.relinked_unlink hUnlink)
    (Chain.counted_unlink h.counted hUnlink) hValue

-- ---------------------------------------------------------------------------
-- Chunks in the right chains
-- ---------------------------------------------------------------------------

/-- The chunk in a slot, if there is one, names a band that covers its usage. -/
def Placed (chunks : Nodes Chunk) (i : Nat) : Prop :=
  ∀ c, chunks.value? i = some c → ∃ band, c.band = some band ∧ band.Covers c.usage

/-- What the bands satisfy in between two requests. -/
structure Sorted (lists : BandLists) (chunks : Nodes Chunk) : Prop extends
    Filed lists chunks where
  placed : ∀ i, Placed chunks i

/-- All chunks but one are as before, and that one is in a band that covers its usage. -/
theorem Sorted.of_puts (h : lists.Sorted chunks) (hFiled : lists'.Filed chunks')
    (hPuts : Puts chunks i c chunks') (hBand : c.band = some band) (hCovers : band.Covers c.usage) :
    lists'.Sorted chunks' := by
  refine ⟨hFiled, fun j c' hValue => ?_⟩
  rw [hPuts] at hValue
  split at hValue
  · obtain rfl := Option.some.inj hValue
    exact ⟨band, hBand, hCovers⟩
  · exact h.placed j c' hValue

theorem sorted_empty (chunkSize : Nat) : (empty chunkSize).Sorted Slab.empty where
  files := by
    refine ⟨fun band => ⟨[], ?_, fun i => ?_⟩, fun i link hLink => ?_⟩
    · have hChain : (empty chunkSize).chain band = Chain.empty :=
        Vector.getElem_replicate ..
      rw [hChain]
      exact Chain.spells_empty _
    · simp [bandAt?, Nodes.value?, Slab.empty, Slab.at?]
    · simp [Nodes.link?, Slab.empty, Slab.at?] at hLink
  counted := Slab.counted_empty
  placed i c hValue := by simp [Nodes.value?, Slab.empty, Slab.at?] at hValue

/-- A chunk of a band was replaced by one that is used more, and rises. -/
theorem Sorted.rise (h : lists.Sorted chunks) (hValue : chunks.value? i = some c)
    (hBand : c.band = some band) (hSame : c'.band = c.band) (hUsage : c.usage ≤ c'.usage)
    (hRise : lists.rise (chunks.putValue i c') band i c'.usage = (lists', chunks')) :
    lists'.Sorted chunks' := by
  have hPuts := puts_putValue hValue c'
  have hFiled := h.toFiled.putValue hValue hSame
  have hNow : c'.band = some band := hSame.trans hBand
  obtain ⟨hOut, hGone⟩ := hFiled.remove hPuts.self hNow
  have hLimit := Chunk.usage_le_hundred c'
  unfold BandLists.rise at hRise
  split at hRise
  · rename_i hAbove
    split at hRise
    · rename_i above hNext
      rw [add, hGone.self] at hRise
      obtain ⟨hIn, hJoined⟩ := hOut.link hGone.self rfl (above.accept c'.usage)
      have hAccept := Band.covers_accept (Band.minUsage_le_of_next? hNext hAbove) hLimit
      have hLinked : (lists.remove (chunks.putValue i c') band i).1.link
          (lists.remove (chunks.putValue i c') band i).2 (above.accept c'.usage) i =
            (lists', chunks') := hRise
      rw [hLinked] at hIn hJoined
      exact h.of_puts hIn ((hPuts.trans hGone).trans hJoined) rfl hAccept
    · rename_i hNext
      -- above the last band there is no usage
      have hBelow := Band.lt_of_next?_eq_none hNext hLimit
      omega
  · rename_i hWithin
    obtain ⟨rfl, rfl⟩ := Prod.mk.inj hRise
    obtain ⟨band', hBand', hCovers⟩ := h.placed i c hValue
    obtain rfl : band = band' := by simpa [hBand] using hBand'
    exact h.of_puts hFiled hPuts hNow ⟨hCovers.1.trans hUsage, by omega⟩

/-- A chunk of a band was replaced by one that is used less, and sinks. If it drops out, no band
holds it any more, and the others are where they were. -/
theorem Sorted.sink (h : lists.Sorted chunks) (hValue : chunks.value? i = some c)
    (hBand : c.band = some band) (hSame : c'.band = c.band) (hUsage : c'.usage ≤ c.usage)
    (hSink : lists.sink (chunks.putValue i c') band i c'.usage = (fate, lists', chunks')) :
    (fate = .kept ∧ lists'.Sorted chunks') ∨
      (fate = .dropped ∧ lists'.Filed chunks' ∧
        Puts chunks i { c' with band := none } chunks') := by
  have hPuts := puts_putValue hValue c'
  have hFiled := h.toFiled.putValue hValue hSame
  have hNow : c'.band = some band := hSame.trans hBand
  obtain ⟨hOut, hGone⟩ := hFiled.remove hPuts.self hNow
  unfold BandLists.sink at hSink
  split at hSink
  · rename_i hBelow
    split at hSink
    · rename_i below hDemote
      obtain ⟨hIn, hJoined⟩ := hOut.link hGone.self rfl below
      obtain ⟨rfl, hLinked⟩ := Prod.mk.inj hSink
      rw [hLinked] at hIn hJoined
      -- the band below covers the usage, as it was found by it
      exact .inl ⟨rfl, h.of_puts hIn ((hPuts.trans hGone).trans hJoined) rfl
        (Band.covers_of_demote? hBelow hDemote)⟩
    · obtain ⟨rfl, hRemoved⟩ := Prod.mk.inj hSink
      rw [hRemoved] at hOut hGone
      exact .inr ⟨rfl, hOut, hPuts.trans hGone⟩
  · rename_i hWithin
    simp only [Prod.mk.injEq] at hSink
    obtain ⟨rfl, rfl, rfl⟩ := hSink
    obtain ⟨band', hBand', hCovers⟩ := h.placed i c hValue
    obtain rfl : band = band' := by simpa [hBand] using hBand'
    exact .inl ⟨rfl, h.of_puts hFiled hPuts hNow ⟨by omega, hUsage.trans_lt hCovers.2⟩⟩

-- ---------------------------------------------------------------------------
-- What the operations keep
-- ---------------------------------------------------------------------------

/-- A request that a band serves leaves the chunks in order. -/
theorem Sorted.allocate (h : lists.Sorted chunks)
    (hAllocate : lists.allocate chunks pools band size = some (block, lists', chunks', pools')) :
    lists'.Sorted chunks' := by
  obtain ⟨index, c, c', hMem, hValue, hServed, hRise⟩ := allocate_cases hAllocate
  obtain ⟨hSame, hSize, hFree⟩ := Chunk.allocate_frame hServed
  have hBand : c.band = some band := by
    rw [← bandAt?_of_value? hValue]
    exact h.files.mem_toList.mp hMem
  exact h.rise hValue hBand hSame (Chunk.usage_le_of_freeBytes_le hSize.symm hFree) hRise

/-- So does a block that goes back, once the chunk is taken out that dropped out with it. -/
theorem Sorted.free (h : lists.Sorted chunks)
    (hFree : lists.free chunks pools i handle = .ok (fate, lists', chunks', pools')) :
    (fate = .kept ∧ lists'.Sorted chunks') ∨
      (fate = .dropped ∧ lists'.Filed chunks' ∧
        ∃ c, c.band = none ∧ Puts chunks i c chunks') := by
  obtain ⟨c, c', hValue, hTaken, hFate⟩ := free_cases hFree
  obtain ⟨hSame, hSize, hBytes⟩ := Chunk.free_frame hTaken
  obtain ⟨band, hBand, -⟩ := h.placed i c hValue
  rcases hFate with ⟨hNone, -⟩ | ⟨band', hBand', hSink⟩
  · rw [hSame, hBand] at hNone
    exact absurd hNone (by simp)
  · obtain rfl : band = band' := by simpa [hSame, hBand] using hBand'
    rcases h.sink hValue hBand hSame (Chunk.usage_le_of_freeBytes_le hSize hBytes) hSink with
      hKept | ⟨hDropped, hFiled, hPuts⟩
    · exact .inl hKept
    · exact .inr ⟨hDropped, hFiled, _, rfl, hPuts⟩

/-- A chunk that no band holds goes, and the others stay in order. -/
theorem Sorted.leave (h : lists.Sorted chunks) (hFiled : lists'.Filed chunks')
    (hSlab : chunks'.Sound) (hNone : c.band = none) (hPuts : Puts chunks id.index c chunks')
    {node : Node Chunk} {rest : Nodes Chunk} (hRemove : chunks'.remove id = some (node, rest)) :
    lists'.Sorted rest := by
  have hHere : bandAt? chunks' id.index = none := (bandAt?_of_value? hPuts.self).trans hNone
  refine ⟨⟨(hFiled.files.remove hRemove hHere).congr (fun _ => rfl) fun j => ?_,
    hFiled.counted.remove hSlab hRemove⟩, fun j c' hValue => ?_⟩
  · rw [bandAt?, Nodes.value?_remove hRemove]
    by_cases hj : j = id.index
    · rw [if_pos hj, hj, hHere]
      rfl
    · rw [if_neg hj]
      rfl
  · rw [Nodes.value?_remove hRemove] at hValue
    split at hValue
    · exact absurd hValue (by simp)
    · rename_i hj
      rw [hPuts, if_neg hj] at hValue
      exact h.placed j c' hValue

/-- A chunk that comes in finds the band that covers its usage. -/
theorem Sorted.enter (h : lists.Sorted chunks) (hSlab : chunks.Sound) (hNone : c.band = none)
    (hFree : c.freeBytes ≤ c.size) :
    (lists.add (chunks.insertValue c).2 .fresh (chunks.insertValue c).1.index).1.Sorted
      (lists.add (chunks.insertValue c).2 .fresh (chunks.insertValue c).1.index).2 := by
  have hNoBand : bandAt? chunks chunks.nextKey.index = none := by
    rw [bandAt?, Nodes.value?_nextKey hSlab]
    rfl
  have hPuts : Puts chunks chunks.nextKey.index c (chunks.insertValue c).2 :=
    Nodes.value?_insertValue hSlab c
  have hFiled : lists.Filed (chunks.insertValue c).2 := by
    refine ⟨(h.files.insertValue hSlab hNoBand c).congr (fun _ => rfl) fun j => ?_,
      h.counted.insert _⟩
    rw [hPuts.bandAt?, hNone, ← hNoBand, Function.update_eq_self]
  have hLow : Band.fresh.minUsage ≤ c.usage :=
    Int.le_trans (by decide) (Chunk.usage_nonneg hFree)
  rw [Nodes.insertValue_fst, add, hPuts.self]
  obtain ⟨hIn, hJoined⟩ := hFiled.link hPuts.self hNone (Band.fresh.accept c.usage)
  exact h.of_puts hIn (hPuts.trans hJoined) rfl
    (Band.covers_accept hLow (Chunk.usage_le_hundred c))

-- ---------------------------------------------------------------------------
-- All chunks in all chains
-- ---------------------------------------------------------------------------

/-- The members of a band are the chunks that name it. -/
theorem Filed.mem_members (h : lists.Filed chunks) :
    i ∈ lists.members chunks band ↔ ∃ c, chunks.value? i = some c ∧ c.band = some band :=
  h.files.mem_toList.trans Option.bind_eq_some_iff

theorem Filed.spells_members (h : lists.Filed chunks) (band : Band) :
    (lists.chain band).Spells chunks (lists.members chunks band) :=
  h.files.spells_toList band

/-- The members of all bands together are all chunks, each once. -/
theorem Sorted.members_perm (h : lists.Sorted chunks) :
    (Band.all.flatMap fun band => lists.members chunks band).Perm chunks.indices := by
  refine (List.perm_ext_iff_of_nodup ?_ chunks.nodup_indices).mpr fun i => ?_
  · refine List.nodup_flatMap.mpr ⟨fun band _ => (h.spells_members band).nodup, ?_⟩
    have hAll : Band.all.Nodup := by decide
    refine hAll.imp fun {band band'} hNe i hMem hMem' => hNe ?_
    rw [h.mem_members] at hMem hMem'
    obtain ⟨c, hValue, hBand⟩ := hMem
    obtain ⟨c', hValue', hBand'⟩ := hMem'
    obtain rfl : c = c' := by simpa [hValue] using hValue'
    exact Option.some.inj (hBand.symm.trans hBand')
  · rw [List.mem_flatMap, Slab.mem_indices, ← Option.isSome_map (f := Node.value), ← Nodes.value?]
    constructor
    · rintro ⟨band, -, hMem⟩
      obtain ⟨c, hValue, -⟩ := h.mem_members.mp hMem
      rw [hValue]
      rfl
    · intro hSome
      obtain ⟨c, hValue⟩ := Option.isSome_iff_exists.mp hSome
      obtain ⟨band, hBand, -⟩ := h.placed i c hValue
      exact ⟨band, by cases band <;> decide, h.mem_members.mpr ⟨c, hValue, hBand⟩⟩

end BandLists

end BlockPool
