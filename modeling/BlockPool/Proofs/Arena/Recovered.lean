import BlockPool.Proofs.Arena.Tally

/-!
# BlockPool — blocks that an arena has back

What it means that an arena has some blocks back, whoever gave them to it: it took each in turn, it
owed them beside others and owes exactly those others now, the handles of the blocks named them and
name nothing any more, and in each class it counts as many more as given back as there are blocks of
it. Nothing of this says how the blocks came back, so a cache that is trimmed and an allocator that
frees a block can be held to the same.

* `Arena.TakesBack` — an arena takes blocks, one after the other.
* `Arena.Recovers` — what was owed, is named and is counted, before and after.
* `Arena.Sound.recovers_release` — blocks that were owed and are given back are recovered.
-/

namespace BlockPool

namespace Arena

variable {a a' : Arena} {block : Block} {blocks blocks' rest : List Block} {id : ChunkId}
  {handle : Handle}

/-- An arena takes blocks back one after the other, and refuses none. -/
inductive TakesBack : Arena → List Block → Arena → Prop where
  | nil (a : Arena) : TakesBack a [] a
  | cons {a a' : Arena} {block : Block} {rest : List Block} (hTaken : (a.free block).1 = .ok ())
      (hRest : TakesBack (a.free block).2 rest a') : TakesBack a (block :: rest) a'

/-- An arena has some of the blocks back that it owed. -/
structure Recovers (a : Arena) (blocks rest : List Block) (a' : Arena) : Prop where
  taken : a.TakesBack blocks a'
  /-- It owes the others, and nothing else. -/
  owes : a.Owes (blocks ++ rest) ∧ a'.Owes rest
  /-- A block carved from a chunk was live under its handle, and is so no more. -/
  gone : ∀ block ∈ blocks, ∀ id handle, block.origin = .pooled id handle →
    a.blockAt? id handle = some block ∧ a'.blockAt? id handle = none
  /-- All other handles name what they named. -/
  others : ∀ id handle, (∀ block ∈ blocks, block.origin ≠ .pooled id handle) →
    a'.blockAt? id handle = a.blockAt? id handle
  /-- Each block is counted once, in its class. -/
  counted : ∀ k, a'.deallocations.get k = a.deallocations.get k + a.geometry.tally k blocks
  hugeBytes : a'.hugeBytes = a.hugeBytes - total (blocks.map (·.wholeBytes))

-- ---------------------------------------------------------------------------
-- What is owed, and what is named
-- ---------------------------------------------------------------------------

/-- The handle of a block that is owed before and not after names it before and nothing after. -/
theorem Owes.gone (h : a.Owes blocks) (h' : a'.Owes blocks') (hSubset : blocks' ⊆ blocks)
    (hMem : block ∈ blocks) (hGone : block ∉ blocks') (hOrigin : block.origin = .pooled id handle) :
    a.blockAt? id handle = some block ∧ a'.blockAt? id handle = none := by
  have hLive := (h.pooled id handle block).mpr ⟨hMem, hOrigin⟩
  refine ⟨hLive, Option.eq_none_iff_forall_ne_some.mpr fun found hFound => ?_⟩
  -- whatever the handle named afterwards, it named before, and so it is the block
  obtain ⟨hStill, hSame⟩ := (h'.pooled id handle found).mp hFound
  have hBefore := (h.pooled id handle found).mpr ⟨hSubset hStill, hSame⟩
  obtain rfl := Option.some.inj (hLive.symm.trans hBefore)
  exact hGone hStill

/-- A handle that names none of the blocks that came back names what it named. -/
theorem Owes.blockAt?_eq (h : a.Owes (blocks ++ rest)) (h' : a'.Owes rest)
    (hOthers : ∀ block ∈ blocks, block.origin ≠ .pooled id handle) :
    a'.blockAt? id handle = a.blockAt? id handle := by
  refine Option.ext fun found => ?_
  rw [h.pooled, h'.pooled, List.mem_append]
  constructor
  · rintro ⟨hMem, hOrigin⟩
    exact ⟨.inr hMem, hOrigin⟩
  · rintro ⟨hBack | hMem, hOrigin⟩
    · exact absurd hOrigin (hOthers found hBack)
    · exact ⟨hMem, hOrigin⟩

/-- No block carved from a chunk is among the others as well. -/
theorem Owes.not_mem_rest (h : a.Owes (blocks ++ rest)) (hMem : block ∈ blocks)
    (hPooled : block.isPooled = true) : block ∉ rest := by
  intro hRest
  have hOnce := h.once
  rw [List.filter_append, List.nodup_append] at hOnce
  exact hOnce.2.2 block (List.mem_filter.mpr ⟨hMem, hPooled⟩) block
    (List.mem_filter.mpr ⟨hRest, hPooled⟩) rfl

-- ---------------------------------------------------------------------------
-- Taking back
-- ---------------------------------------------------------------------------

/-- Every block that is taken counts in its class. -/
theorem TakesBack.counts (h : a.TakesBack blocks a') : a'.geometry = a.geometry ∧
    (∀ k, a'.deallocations.get k = a.deallocations.get k + a.geometry.tally k blocks) ∧
      a'.hugeBytes = a.hugeBytes - total (blocks.map (·.wholeBytes)) := by
  induction h with
  | nil a => exact ⟨rfl, fun _ => rfl, rfl⟩
  | @cons a a' block rest hTaken _ ih =>
    obtain ⟨hGeometry, hClasses, hBytes⟩ := ih
    have hCredits := credits_free hTaken
    refine ⟨hGeometry.trans hCredits.geometry, fun k => ?_, ?_⟩
    · rw [hClasses, hCredits.deallocations, hCredits.geometry, ClassCounts.get_record, tally_cons]
      omega
    · rw [hBytes, hCredits.hugeBytes, List.map_cons, total_cons]
      omega

/-- An arena takes blocks that it owes. -/
theorem Sound.takesBack_release (h : a.Sound) (hOwes : a.Owes (blocks ++ rest)) :
    a.TakesBack blocks (Cache.release a blocks) := by
  induction blocks generalizing a with
  | nil => exact .nil a
  | cons block blocks ih =>
    obtain ⟨hTaken, hTakes⟩ := h.takes_free hOwes
    exact .cons hTaken (ih hTakes.sound (hTakes.owes _ hOwes))

/-- Blocks that were owed and are given back one after the other are recovered. -/
theorem Sound.recovers_release (h : a.Sound) (hOwes : a.Owes (blocks ++ rest)) :
    a.Recovers blocks rest (Cache.release a blocks) := by
  have hTaken := h.takesBack_release hOwes
  obtain ⟨-, hClasses, hBytes⟩ := hTaken.counts
  obtain ⟨-, -, hAfter⟩ := h.release hOwes
  refine ⟨hTaken, ⟨hOwes, hAfter⟩, fun block hMem id handle hOrigin => ?_,
    fun id handle hOthers => hOwes.blockAt?_eq hAfter hOthers, hClasses, hBytes⟩
  exact hOwes.gone hAfter (List.subset_append_right blocks rest) (List.mem_append_left rest hMem)
    (hOwes.not_mem_rest hMem (isPooled_of_origin hOrigin)) hOrigin

/-- One block that was owed and is given back is recovered. -/
theorem Sound.recovers_free (h : a.Sound) (hOwes : a.Owes (block :: rest)) :
    a.Recovers [block] rest (a.free block).2 :=
  h.recovers_release hOwes

end Arena

end BlockPool
