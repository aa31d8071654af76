import BlockPool.Chunk.Geometry
import BlockPool.Proofs.Word

/-!
# BlockPool — what a geometry promises

A geometry is well-formed when its sizes are powers of two that fit each other. Then a chunk is
exactly as many bytes as its pages together, and every size that a request is rounded to is one
that a chunk can be carved into, or more than a chunk.

* `Geometry.WellFormed` — the ranges the three numbers must lie in.
* `Geometry.Carved` — the sizes of blocks that chunks serve.
* `Geometry.normalize_cases` — a normalized size is zero, carved, or more than a chunk.
* `Geometry.le_normalize` — a block is never smaller than what was asked for.
-/

namespace BlockPool.Geometry

variable {g : Geometry} {request size : Nat}

/-- The geometries that the pool works for: pages of a power of two of at least 4096 bytes, chunks
of at most 2 ^ 30, and blocks aligned not at all or to a power of two between 16 and a page. -/
structure WellFormed (g : Geometry) : Prop where
  page : ∃ shift, g.pageSize = 2 ^ shift
  least : 4096 ≤ g.pageSize
  order : g.maxOrder ≤ 14
  product : g.pageSize * 2 ^ g.maxOrder ≤ 2 ^ 30
  alignment : g.alignment = 0 ∨
    ((∃ shift, g.alignment = 2 ^ shift) ∧ 16 ≤ g.alignment ∧ g.alignment ≤ g.pageSize)

/-- Two pages of 4096 bytes to a chunk, and blocks that are not aligned. -/
theorem wellFormed_two_pages : (⟨4096, 1, 0⟩ : Geometry).WellFormed where
  page := ⟨12, rfl⟩
  least := by decide
  order := by decide
  product := by decide
  alignment := .inl rfl

/-- A chunk has two to this power bytes. -/
def scale (g : Geometry) : Nat := g.pageShift + g.maxOrder

namespace WellFormed

theorem pageSize_eq (h : g.WellFormed) : g.pageSize = 2 ^ g.pageShift := by
  obtain ⟨shift, hShift⟩ := h.page
  rw [pageShift, hShift, Nat.log2_two_pow]

theorem pageShift_ge (h : g.WellFormed) : 12 ≤ g.pageShift := by
  have hLeast := h.least
  rw [h.pageSize_eq, show 4096 = 2 ^ 12 by decide] at hLeast
  exact (Nat.pow_le_pow_iff_right (by decide)).mp hLeast

theorem product_eq (h : g.WellFormed) : g.pageSize * 2 ^ g.maxOrder = 2 ^ g.scale := by
  rw [h.pageSize_eq, scale, pow_add]

theorem scale_le (h : g.WellFormed) : g.scale ≤ 30 := by
  have hProduct := h.product
  rw [h.product_eq] at hProduct
  exact (Nat.pow_le_pow_iff_right (by decide)).mp hProduct

theorem chunkSize_eq (h : g.WellFormed) : g.chunkSize = 2 ^ g.scale := by
  have hLt : 2 ^ g.scale < Word.limit := by
    rw [Word.limit_eq]
    exact Nat.pow_lt_pow_right (by decide) (by have := h.scale_le; omega)
  rw [chunkSize, Word.shiftLeft, Nat.shiftLeft_eq, h.product_eq, Nat.mod_eq_of_lt hLt]

theorem chunkSize_le (h : g.WellFormed) : g.chunkSize ≤ 2 ^ 30 := by
  rw [h.chunkSize_eq]
  exact Nat.pow_le_pow_right (by decide) h.scale_le

theorem chunkSize_pos (h : g.WellFormed) : 0 < g.chunkSize := by
  rw [h.chunkSize_eq]
  exact Nat.two_pow_pos _

theorem pageSize_le (h : g.WellFormed) : g.pageSize ≤ g.chunkSize := by
  rw [h.chunkSize_eq, h.pageSize_eq, scale]
  exact Nat.pow_le_pow_right (by decide) (by omega)

end WellFormed

-- ---------------------------------------------------------------------------
-- Sizes that chunks serve
-- ---------------------------------------------------------------------------

/-- A block of this size is carved from a chunk: below the tiny limit a multiple of the quantum,
and from there up to a chunk a power of two. -/
def Carved (g : Geometry) (size : Nat) : Prop :=
  (0 < size ∧ size < 512 ∧ ∃ k, size = k * 16) ∨ ∃ k, 9 ≤ k ∧ k ≤ g.scale ∧ size = 2 ^ k

theorem Carved.pos (h : g.Carved size) : 0 < size := by
  rcases h with ⟨hPos, -, -⟩ | ⟨k, -, -, rfl⟩
  · exact hPos
  · exact Nat.two_pow_pos k

theorem Carved.le_chunkSize (hg : g.WellFormed) (h : g.Carved size) : size ≤ g.chunkSize := by
  rcases h with ⟨-, hLt, -⟩ | ⟨k, -, hk, rfl⟩
  · have := hg.least
    have := hg.pageSize_le
    omega
  · rw [hg.chunkSize_eq]
    exact Nat.pow_le_pow_right (by decide) hk

/-- A carved size of a page and more is a power of two between a page and a chunk. -/
theorem Carved.exists_of_page_le (hg : g.WellFormed) (h : g.Carved size)
    (hPage : g.pageSize ≤ size) :
    ∃ k, g.pageShift ≤ k ∧ k ≤ g.scale ∧ size = 2 ^ k := by
  rcases h with ⟨-, hLt, -⟩ | ⟨k, -, hk, rfl⟩
  · have := hg.least
    omega
  · rw [hg.pageSize_eq] at hPage
    exact ⟨k, (Nat.pow_le_pow_iff_right (by decide)).mp hPage, hk, rfl⟩

theorem Carved.exists_of_tiny (h : g.Carved size) (hTiny : size < 512) : ∃ k, size = k * 16 := by
  rcases h with ⟨-, -, hStep⟩ | ⟨k, hk, -, rfl⟩
  · exact hStep
  · have hPow : 2 ^ 9 ≤ 2 ^ k := Nat.pow_le_pow_right (by decide) hk
    omega

theorem Carved.exists_of_tiny_le (h : g.Carved size) (hTiny : 512 ≤ size) :
    ∃ k, 9 ≤ k ∧ k ≤ g.scale ∧ size = 2 ^ k := by
  rcases h with ⟨-, hLt, -⟩ | hPower
  · omega
  · exact hPower

/-- Runs of the depth that belongs to a size have that size. -/
theorem Carved.runDepth (hg : g.WellFormed) (h : g.Carved size) (hPage : g.pageSize ≤ size) :
    g.runDepth size ≤ g.maxOrder ∧ 2 ^ (g.scale - g.runDepth size) = size := by
  obtain ⟨k, hLow, hHigh, rfl⟩ := h.exists_of_page_le hg hPage
  rw [Geometry.runDepth, Nat.log2_two_pow]
  refine ⟨Nat.sub_le .., ?_⟩
  rw [scale] at hHigh ⊢
  congr 1
  omega

theorem bitLength_two_pow (k : Nat) : Word.bitLength (2 ^ k) = k + 1 := by
  rw [Word.bitLength, if_neg (Nat.two_pow_pos k).ne', Nat.log2_two_pow]

theorem smallIndex_two_pow {k : Nat} (hk : 9 ≤ k) : smallIndex (2 ^ k) = k - 9 := by
  rw [smallIndex, show 2 * tinyLimit = 2 ^ 10 by decide]
  by_cases hFirst : k = 9
  · subst hFirst
    decide
  · rw [Nat.pow_div (by omega) (by decide), bitLength_two_pow]
    omega

/-- Every carved size below a page has a pool, which serves that size. -/
theorem Carved.pool (hg : g.WellFormed) (h : g.Carved size) (hPage : size < g.pageSize) :
    poolIndex size < g.numPools ∧ poolElemSize (poolIndex size) = size := by
  have hShift := hg.pageShift_ge
  have hPools : g.numPools = 32 + (g.pageShift - 9) := rfl
  rcases h with ⟨-, hLt, k, rfl⟩ | ⟨k, hLow, -, rfl⟩
  · have hIndex : poolIndex (k * 16) = k := by
      simp [poolIndex, isTiny, tinyLimit, hLt, tinyIndex, tinyQuantum]
    have hTiny : k < numTinyPools := by
      rw [show numTinyPools = 32 by rfl]
      omega
    rw [hIndex, poolElemSize, if_pos hTiny, show tinyQuantum = 16 from rfl]
    rw [show numTinyPools = 32 by rfl] at hTiny
    omega
  · have hNotTiny : ¬ 2 ^ k < tinyLimit := by
      rw [show tinyLimit = 2 ^ 9 by decide, not_lt]
      exact Nat.pow_le_pow_right (by decide) hLow
    have hIndex : poolIndex (2 ^ k) = 32 + (k - 9) := by
      rw [poolIndex, isTiny, decide_eq_false hNotTiny, smallIndex_two_pow hLow]
      rfl
    rw [hg.pageSize_eq, Nat.pow_lt_pow_iff_right (by decide)] at hPage
    rw [hIndex, poolElemSize, if_neg (by rw [show numTinyPools = 32 by rfl]; omega),
      show numTinyPools = 32 by rfl, Nat.add_sub_cancel_left, Nat.shiftLeft_eq,
      show tinyLimit = 2 ^ 9 by decide, ← pow_add]
    refine ⟨by omega, ?_⟩
    congr 1
    omega

/-- What a pool serves is a carved size below a page. -/
theorem carved_poolElemSize (hg : g.WellFormed) {index : Nat} (hIndex : index < g.numPools)
    (hPos : 0 < poolElemSize index) : g.Carved (poolElemSize index) := by
  have hShift := hg.pageShift_ge
  have hPools : g.numPools = 32 + (g.pageShift - 9) := rfl
  have hTinyPools : numTinyPools = 32 := rfl
  have hQuantum : tinyQuantum = 16 := rfl
  unfold poolElemSize at hPos ⊢
  split at hPos
  · rename_i hTiny
    rw [hTinyPools] at hTiny
    rw [if_pos (hTinyPools ▸ hTiny)]
    refine .inl ⟨hPos, ?_, index, rfl⟩
    rw [hQuantum]
    omega
  · rename_i hSmall
    rw [if_neg hSmall]
    refine .inr ⟨9 + (index - numTinyPools), by omega, by rw [scale]; omega, ?_⟩
    rw [Nat.shiftLeft_eq, show tinyLimit = 2 ^ 9 by decide, pow_add]

/-- Every page has room for two of the slots that a pool serves. -/
theorem two_mul_poolElemSize_le (hg : g.WellFormed) {index : Nat} (hIndex : index < g.numPools) :
    2 * poolElemSize index ≤ g.pageSize := by
  have hShift := hg.pageShift_ge
  have hLeast := hg.least
  have hPools : g.numPools = 32 + (g.pageShift - 9) := rfl
  have hTinyPools : numTinyPools = 32 := rfl
  have hQuantum : tinyQuantum = 16 := rfl
  unfold poolElemSize
  split
  · rw [hQuantum]
    omega
  · have hPow : 2 ^ (1 + (9 + (index - numTinyPools))) ≤ 2 ^ g.pageShift :=
      Nat.pow_le_pow_right (by decide) (by omega)
    rw [Nat.shiftLeft_eq, show tinyLimit = 2 ^ 9 by decide, ← pow_add, hg.pageSize_eq]
    rwa [pow_add, pow_one] at hPow

-- ---------------------------------------------------------------------------
-- From a request to a size
-- ---------------------------------------------------------------------------

theorem le_align (g : Geometry) (request : Nat) : request ≤ g.align request := by
  unfold align
  split
  · exact Nat.le_refl _
  · cases hRounded : Word.alignUp? request g.alignment with
    | none => exact Nat.le_refl _
    | some rounded => exact (Word.le_of_alignUp? hRounded).1

/-- The step between tiny sizes is a power of two between the quantum and a page. -/
theorem WellFormed.exists_step (h : g.WellFormed) :
    ∃ k, 4 ≤ k ∧ k ≤ g.pageShift ∧ max g.alignment tinyQuantum = 2 ^ k := by
  have hShift := h.pageShift_ge
  rcases h.alignment with hZero | ⟨⟨k, hk⟩, hLow, hHigh⟩
  · exact ⟨4, by decide, by omega, by rw [hZero]; rfl⟩
  · rw [hk, show 16 = 2 ^ 4 by decide, Nat.pow_le_pow_iff_right (by decide)] at hLow
    rw [hk, h.pageSize_eq, Nat.pow_le_pow_iff_right (by decide)] at hHigh
    have hMax : max (2 ^ k) tinyQuantum = 2 ^ k := by
      rw [show tinyQuantum = 2 ^ 4 by decide]
      exact max_eq_left (Nat.pow_le_pow_right (by decide) hLow)
    exact ⟨k, hLow, hHigh, by rw [hk, hMax]⟩

/-- A tiny request is rounded up to the next multiple of the step. -/
theorem normalize_of_lt (hg : g.WellFormed) (hTiny : request < 512) {k : Nat} (hk : k ≤ g.pageShift)
    (hStep : max g.alignment tinyQuantum = 2 ^ k) :
    g.normalize request = (request + (2 ^ k - 1)) / 2 ^ k * 2 ^ k := by
  have hPage := hg.least
  have hChunk := hg.pageSize_le
  have hPow : 2 ^ k ≤ 2 ^ 30 := by
    have := hg.scale_le
    rw [scale] at this
    exact Nat.pow_le_pow_right (by decide) (by omega)
  rw [normalize, if_neg (by omega), if_neg (by rw [show tinyLimit = 512 by rfl]; omega), hStep,
    Word.alignUp?_eq (Word.isPowerOfTwo_two_pow k) (by rw [Word.limit_eq]; omega)]
  rfl

/-- A request from the tiny limit on and below a chunk is rounded up to a power of two. -/
theorem exists_normalize_eq (hg : g.WellFormed) (hTiny : 512 ≤ request)
    (hChunk : request < g.chunkSize) :
    ∃ k, 9 ≤ k ∧ k ≤ g.scale ∧ g.normalize request = 2 ^ k ∧ request ≤ 2 ^ k := by
  have hSize := hg.chunkSize_le
  obtain ⟨k, hEq, hLow, hHigh⟩ :=
    Word.exists_nextPowerOfTwo_eq (show 1 < request by omega) (by omega)
  refine ⟨k + 1, ?_, ?_, ?_, hHigh⟩
  · by_contra hSmall
    have hPow : 2 ^ (k + 1) ≤ 2 ^ 8 := Nat.pow_le_pow_right (by decide) (by omega)
    omega
  · rw [hg.chunkSize_eq] at hChunk
    exact (Nat.pow_lt_pow_iff_right (by decide)).mp (hLow.trans hChunk)
  · rw [normalize, if_neg (by omega), if_pos (by rw [show tinyLimit = 512 by rfl]; omega), hEq]

/-- A multiple of the step that a tiny request is rounded to is itself a carved size. -/
theorem carved_of_step (hg : g.WellFormed) {k : Nat} (hLow : 4 ≤ k) (hHigh : k ≤ g.pageShift)
    (hPos : 0 < request) (hTiny : request < 512) :
    g.Carved ((request + (2 ^ k - 1)) / 2 ^ k * 2 ^ k) := by
  have hScale : g.pageShift ≤ g.scale := Nat.le_add_right ..
  have hShift := hg.pageShift_ge
  have hPow := Nat.two_pow_pos k
  by_cases hStep : k ≤ 9
  · -- both the request and the tiny limit are at most a multiple of the step
    obtain ⟨j, rfl⟩ := Nat.exists_eq_add_of_le hLow
    have hLimit : 2 ^ (4 + j) * 2 ^ (5 - j) = 512 := by
      rw [← pow_add, show 4 + j + (5 - j) = 9 by omega, show 2 ^ 9 = 512 by decide]
    set step := 2 ^ (4 + j) with hDef
    set count := (request + (step - 1)) / step with hCount
    have hLe : count ≤ 2 ^ (5 - j) := by
      rw [hCount, ← Nat.lt_succ_iff, Nat.div_lt_iff_lt_mul hPow, Nat.succ_mul, mul_comm, hLimit]
      omega
    have hOne : 1 ≤ count := by
      rw [hCount, Nat.one_le_div_iff hPow]
      omega
    have hBound : count * step ≤ 512 := by
      rw [← hLimit, mul_comm]
      exact Nat.mul_le_mul_left _ hLe
    rcases Nat.lt_or_eq_of_le hBound with hLt | hEq
    · refine .inl ⟨Nat.mul_pos hOne hPow, hLt, count * 2 ^ j, ?_⟩
      rw [hDef, pow_add]
      ring
    · exact .inr ⟨9, by decide, by omega, by rw [hEq]; rfl⟩
  · -- one step is more than any tiny request
    have hLarge : 512 ≤ 2 ^ k :=
      (by decide : 512 = 2 ^ 9) ▸ Nat.pow_le_pow_right (by decide) (by omega)
    have hOne : (request + (2 ^ k - 1)) / 2 ^ k = 1 :=
      Nat.div_eq_of_lt_le (by omega) (by omega)
    exact .inr ⟨k, by omega, by omega, by rw [hOne, one_mul]⟩

theorem normalize_zero (hg : g.WellFormed) : g.normalize 0 = 0 := by
  obtain ⟨k, -, hHigh, hStep⟩ := hg.exists_step
  have hPos := Nat.two_pow_pos k
  rw [normalize_of_lt hg (by decide) hHigh hStep, Nat.div_eq_of_lt (by omega), Nat.zero_mul]

/-- A normalized size is zero, a size that chunks serve, or more than a chunk. -/
theorem normalize_cases (hg : g.WellFormed) (request : Nat) :
    g.normalize request = 0 ∨ g.Carved (g.normalize request) ∨
      g.chunkSize < g.normalize request := by
  have hShift := hg.pageShift_ge
  by_cases hChunk : g.chunkSize ≤ request
  · have hLe := g.le_align request
    rw [normalize, if_pos hChunk]
    rcases Nat.lt_or_eq_of_le (hChunk.trans hLe) with hLt | hEq
    · exact .inr (.inr hLt)
    · refine .inr (.inl (.inr ⟨g.scale, ?_, Nat.le_refl _, ?_⟩))
      · rw [scale]
        omega
      · rw [← hEq, hg.chunkSize_eq]
  · by_cases hTiny : request < 512
    · by_cases hZero : request = 0
      · exact .inl (by rw [hZero, normalize_zero hg])
      · obtain ⟨k, hLow, hHigh, hStep⟩ := hg.exists_step
        rw [normalize_of_lt hg hTiny hHigh hStep]
        exact .inr (.inl (carved_of_step hg hLow hHigh (by omega) hTiny))
    · obtain ⟨k, hLow, hHigh, hEq, -⟩ :=
        exists_normalize_eq hg (Nat.le_of_not_lt hTiny) (Nat.lt_of_not_le hChunk)
      exact .inr (.inl (.inr ⟨k, hLow, hHigh, hEq⟩))

/-- A normalized size that fits a chunk is one that chunks serve. -/
theorem WellFormed.carved_of_le (hg : g.WellFormed) (hPos : 0 < g.normalize request)
    (hLe : g.normalize request ≤ g.chunkSize) : g.Carved (g.normalize request) := by
  rcases normalize_cases hg request with hZero | hCarved | hLarge
  · omega
  · exact hCarved
  · omega

/-- A block is never smaller than the request it serves. -/
theorem le_normalize (hg : g.WellFormed) (request : Nat) : request ≤ g.normalize request := by
  by_cases hChunk : g.chunkSize ≤ request
  · rw [normalize, if_pos hChunk]
    exact g.le_align request
  · by_cases hTiny : request < 512
    · obtain ⟨k, -, hHigh, hStep⟩ := hg.exists_step
      have hPos := Nat.two_pow_pos k
      rw [normalize_of_lt hg hTiny hHigh hStep]
      have hSplit := Nat.div_add_mod (request + (2 ^ k - 1)) (2 ^ k)
      have hRest := Nat.mod_lt (request + (2 ^ k - 1)) hPos
      rw [mul_comm] at hSplit
      omega
    · obtain ⟨k, -, -, hEq, hLe⟩ :=
        exists_normalize_eq hg (Nat.le_of_not_lt hTiny) (Nat.lt_of_not_le hChunk)
      rw [hEq]
      exact hLe

-- ---------------------------------------------------------------------------
-- Classes
-- ---------------------------------------------------------------------------

theorem lt_of_sizeClass_tiny (h : g.sizeClass size = .tiny) : size < 512 := by
  by_contra hTiny
  rw [sizeClass, isTiny, decide_eq_false (show ¬ size < tinyLimit from hTiny)] at h
  split at h
  · exact absurd h (by simp)
  · split at h <;> simp at h

theorem le_of_sizeClass_small (h : g.sizeClass size = .small) : 512 ≤ size := by
  by_contra hTiny
  rw [sizeClass, isTiny, decide_eq_true (show size < tinyLimit from Nat.lt_of_not_le hTiny)] at h
  split at h
  · exact absurd h (by simp)
  · split at h <;> simp at h

theorem pageSize_le_of_sizeClass (h : g.sizeClass size = .normal) : g.pageSize ≤ size := by
  by_contra hPage
  rw [sizeClass, isTinyOrSmall, if_pos (by simpa using hPage)] at h
  split at h <;> simp at h

theorem lt_pageSize_of_sizeClass
    (h : g.sizeClass size = .tiny ∨ g.sizeClass size = .small) : size < g.pageSize := by
  by_contra hPage
  rw [sizeClass, isTinyOrSmall, if_neg (by simpa using hPage)] at h
  split at h <;> simp at h

theorem le_chunkSize_of_sizeClass (hg : g.WellFormed) (h : g.sizeClass size ≠ .huge) :
    size ≤ g.chunkSize := by
  have hPage := hg.pageSize_le
  by_contra hLarge
  rw [sizeClass, isTinyOrSmall, if_neg (by rw [decide_eq_true_eq]; omega), if_neg hLarge] at h
  exact h rfl

theorem chunkSize_lt_of_sizeClass_huge (h : g.sizeClass size = .huge) : g.chunkSize < size := by
  by_contra hChunk
  rw [sizeClass] at h
  split at h
  · split at h <;> simp at h
  · rw [if_pos (Nat.le_of_not_lt hChunk)] at h
    exact absurd h (by simp)

/-- A normalized size that is neither zero nor huge is one that chunks serve. -/
theorem WellFormed.carved_of_class (hg : g.WellFormed) (hPos : g.normalize request ≠ 0)
    (hClass : g.sizeClass (g.normalize request) ≠ .huge) : g.Carved (g.normalize request) :=
  hg.carved_of_le (Nat.pos_of_ne_zero hPos) (le_chunkSize_of_sizeClass hg hClass)

end BlockPool.Geometry
