import BlockPool.Proofs.Chunk.Geometry

/-!
# BlockPool — one size, one class, one pool

Every request is rounded to a size, and from there on only the size counts: its class, the pool of
its slots and the depth of its runs. For a well-formed geometry these agree with each other on
every request, the boundaries of classes and the largest words included.

* `Geometry.Rung` — the sizes there are where blocks need no alignment.
* `Geometry.ReadsBits` — the tests and indices of a size, as they are read off its bits.
* `Geometry.Rounds` — everything that holds of a request and the size it is rounded to.
* `Geometry.normalize_rounds` — it holds of every request.
-/

namespace BlockPool.Geometry

variable {g : Geometry} {request size k : Nat}

-- ---------------------------------------------------------------------------
-- Rounding twice
-- ---------------------------------------------------------------------------

/-- A step that divides a page divides every power of two from a page on. -/
theorem WellFormed.alignment_dvd (hg : g.WellFormed) (hZero : g.alignment ≠ 0)
    (hk : g.pageShift ≤ k) : g.alignment ∣ 2 ^ k := by
  rcases hg.alignment with hNone | ⟨⟨shift, hShift⟩, -, hPage⟩
  · exact absurd hNone hZero
  · rw [hShift, hg.pageSize_eq, Nat.pow_le_pow_iff_right (by decide)] at hPage
    rw [hShift]
    exact Nat.pow_dvd_pow 2 (hPage.trans hk)

theorem align_align (g : Geometry) (request : Nat) :
    g.align (g.align request) = g.align request := by
  by_cases hZero : g.alignment = 0
  · simp [align, hZero]
  · simp only [align, if_neg hZero]
    cases hRounded : Word.alignUp? request g.alignment with
    | none => rw [Option.getD_none, hRounded, Option.getD_none]
    | some rounded => exact Word.alignUp?_getD_of_dvd (Word.dvd_of_alignUp? hRounded)

/-- A chunk is aligned to whatever a block is. -/
theorem align_chunkSize (hg : g.WellFormed) : g.align g.chunkSize = g.chunkSize := by
  by_cases hZero : g.alignment = 0
  · simp [align, hZero]
  · rw [align, if_neg hZero, hg.chunkSize_eq]
    exact Word.alignUp?_getD_of_dvd (hg.alignment_dvd hZero (by rw [scale]; omega))

/-- The powers of two from the tiny limit up to a chunk keep their size. -/
theorem normalize_two_pow (hg : g.WellFormed) (hLow : 9 ≤ k) (hHigh : k ≤ g.scale) :
    g.normalize (2 ^ k) = 2 ^ k := by
  have hTiny : 2 ^ 9 ≤ 2 ^ k := Nat.pow_le_pow_right (by decide) hLow
  rcases Nat.lt_or_eq_of_le hHigh with hLt | rfl
  · have hScale := hg.scale_le
    have hBelow : 2 ^ (k - 1) < 2 ^ k := Nat.pow_lt_pow_right (by decide) (by omega)
    rw [normalize, hg.chunkSize_eq,
      if_neg (Nat.not_le.mpr (Nat.pow_lt_pow_right (by decide) hLt)),
      if_pos (show 2 ^ k ≥ tinyLimit from hTiny)]
    have hNext := Word.nextPowerOfTwo_eq (k := k - 1) hBelow
      (by rw [show k - 1 + 1 = k by omega]) (by omega)
    rwa [show k - 1 + 1 = k by omega] at hNext
  · rw [normalize, ← hg.chunkSize_eq, if_pos (Nat.le_refl _), align_chunkSize hg]

/-- A tiny multiple of the step keeps its size. -/
theorem normalize_of_dvd (hg : g.WellFormed) (hTiny : size < 512) (hk : k ≤ g.pageShift)
    (hStep : max g.alignment tinyQuantum = 2 ^ k) (hDvd : 2 ^ k ∣ size) :
    g.normalize size = size := by
  have hPos := Nat.two_pow_pos k
  obtain ⟨count, rfl⟩ := hDvd
  rw [normalize_of_lt hg hTiny hk hStep, Nat.mul_add_div hPos, Nat.div_eq_of_lt (by omega),
    Nat.add_zero, mul_comm]

/-- A size is served by a block of that very size. -/
theorem normalize_normalize (hg : g.WellFormed) (request : Nat) :
    g.normalize (g.normalize request) = g.normalize request := by
  by_cases hChunk : g.chunkSize ≤ request
  · have hAlign : g.normalize request = g.align request := by rw [normalize, if_pos hChunk]
    rw [hAlign, normalize, if_pos (hChunk.trans (g.le_align request)), align_align]
  · by_cases hTiny : request < 512
    · obtain ⟨k, hLow, hHigh, hStep⟩ := hg.exists_step
      have hEq := normalize_of_lt hg hTiny hHigh hStep
      have hDvd : 2 ^ k ∣ g.normalize request := hEq ▸ Nat.dvd_mul_left ..
      by_cases hSmall : g.normalize request < 512
      · exact normalize_of_dvd hg hSmall hHigh hStep hDvd
      · have hPos : 0 < request := by
          by_contra hZero
          rw [Nat.eq_zero_of_not_pos hZero, normalize_zero hg] at hSmall
          exact hSmall (by decide)
        have hCarved : g.Carved (g.normalize request) :=
          hEq ▸ carved_of_step hg hLow hHigh hPos hTiny
        obtain ⟨j, hj, hScale, hPow⟩ := hCarved.exists_of_tiny_le (Nat.le_of_not_lt hSmall)
        rw [hPow, normalize_two_pow hg hj hScale]
    · obtain ⟨j, hj, hScale, hPow, -⟩ :=
        exists_normalize_eq hg (Nat.le_of_not_lt hTiny) (Nat.lt_of_not_le hChunk)
      rw [hPow, normalize_two_pow hg hj hScale]

-- ---------------------------------------------------------------------------
-- The range of sizes
-- ---------------------------------------------------------------------------

theorem normalize_eq_zero_iff (hg : g.WellFormed) : g.normalize request = 0 ↔ request = 0 := by
  constructor
  · intro hZero
    have hLe := le_normalize hg request
    omega
  · rintro rfl
    exact normalize_zero hg

/-- Only a request above a chunk has a size above a chunk. -/
theorem lt_of_chunkSize_lt_normalize (hg : g.WellFormed)
    (hLarge : g.chunkSize < g.normalize request) : g.chunkSize < request := by
  rcases Nat.lt_trichotomy request g.chunkSize with hLt | hEq | hGt
  · have hFits : g.normalize request ≤ g.chunkSize := by
      by_cases hTiny : request < 512
      · by_cases hZero : request = 0
        · rw [hZero, normalize_zero hg]
          exact Nat.zero_le _
        · obtain ⟨k, hLow, hHigh, hStep⟩ := hg.exists_step
          rw [normalize_of_lt hg hTiny hHigh hStep]
          exact (carved_of_step hg hLow hHigh (by omega) hTiny).le_chunkSize hg
      · obtain ⟨k, -, hScale, hPow, -⟩ := exists_normalize_eq hg (Nat.le_of_not_lt hTiny) hLt
        rw [hPow, hg.chunkSize_eq]
        exact Nat.pow_le_pow_right (by decide) hScale
    omega
  · rw [hEq, normalize, if_pos (Nat.le_refl _), align_chunkSize hg] at hLarge
    omega
  · exact hGt

/-- The size of a word is a word. -/
theorem normalize_lt_limit (hg : g.WellFormed) (hRequest : request < Word.limit) :
    g.normalize request < Word.limit := by
  by_cases hLarge : g.chunkSize < g.normalize request
  · have hChunk := lt_of_chunkSize_lt_normalize hg hLarge
    rw [normalize, if_pos hChunk.le, align]
    split
    · exact hRequest
    · cases hRounded : Word.alignUp? request g.alignment with
      | none => exact hRequest
      | some rounded => exact (Word.le_of_alignUp? hRounded).2
  · have hSize := hg.chunkSize_le
    rw [Word.limit_eq]
    omega

-- ---------------------------------------------------------------------------
-- The nearest size
-- ---------------------------------------------------------------------------

/-- The sizes of blocks that need no alignment: multiples of the quantum up to the tiny limit,
powers of two from there to a chunk, and everything beyond. -/
def Rung (g : Geometry) (size : Nat) : Prop :=
  (16 ∣ size ∧ size ≤ 512) ∨ (∃ k, size = 2 ^ k ∧ 512 ≤ size ∧ size ≤ g.chunkSize) ∨
    g.chunkSize < size

theorem rung_normalize (hg : g.WellFormed) (request : Nat) : g.Rung (g.normalize request) := by
  have hTwoPow {k : Nat} (hLow : 9 ≤ k) (hHigh : k ≤ g.scale) : g.Rung (2 ^ k) :=
    .inr (.inl ⟨k, rfl, (by decide : 512 = 2 ^ 9) ▸ Nat.pow_le_pow_right (by decide) hLow,
      hg.chunkSize_eq ▸ Nat.pow_le_pow_right (by decide) hHigh⟩)
  rcases normalize_cases hg request with hZero | hCarved | hLarge
  · exact .inl ⟨hZero ▸ Nat.dvd_zero 16, by omega⟩
  · rcases hCarved with ⟨-, hTiny, count, hCount⟩ | ⟨k, hLow, hHigh, hPow⟩
    · exact .inl ⟨hCount ▸ Nat.dvd_mul_left .., hTiny.le⟩
    · exact hPow ▸ hTwoPow hLow hHigh
  · exact .inr (.inr hLarge)

/-- Without alignment no size lies between a request and the one it is rounded to. -/
theorem normalize_le_of_rung (hg : g.WellFormed) (hNone : g.alignment = 0) (hRung : g.Rung size)
    (hCovers : request ≤ size) : g.normalize request ≤ size := by
  have hPage := hg.least
  have hChunk := hg.pageSize_le
  have hSize := hg.chunkSize_le
  by_cases hLarge : g.chunkSize ≤ request
  · rw [normalize, if_pos hLarge, align, if_pos hNone]
    exact hCovers
  by_cases hTiny : request < 512
  · have hShift := hg.pageShift_ge
    have hEq : g.normalize request = (request + 15) / 16 * 16 :=
      normalize_of_lt hg (k := 4) hTiny (by omega) (by rw [hNone]; rfl)
    rw [hEq]
    rcases hRung with ⟨⟨count, rfl⟩, -⟩ | ⟨-, -, hLow, -⟩ | hBeyond <;> omega
  have hTinyLe : 512 ≤ request := Nat.le_of_not_lt hTiny
  have hEq : g.normalize request = Word.nextPowerOfTwo request := by
    rw [normalize, if_neg hLarge, if_pos (show request ≥ tinyLimit from hTinyLe)]
  have hReach {k : Nat} (hk : request ≤ 2 ^ k) : g.normalize request ≤ 2 ^ k :=
    hEq ▸ Word.nextPowerOfTwo_le (by omega) (by omega) hk
  rcases hRung with ⟨-, hHigh⟩ | ⟨k, rfl, -, -⟩ | hBeyond
  · have : g.normalize request ≤ 2 ^ 9 := hReach (by omega)
    omega
  · exact hReach hCovers
  · have : g.normalize request ≤ 2 ^ g.scale := hReach (by rw [← hg.chunkSize_eq]; omega)
    rw [← hg.chunkSize_eq] at this
    omega

-- ---------------------------------------------------------------------------
-- Classes, pools and depths
-- ---------------------------------------------------------------------------

theorem sizeClass_tiny_or_small_iff :
    (g.sizeClass size = .tiny ∨ g.sizeClass size = .small) ↔ size < g.pageSize := by
  constructor
  · exact lt_pageSize_of_sizeClass
  · intro hPage
    rw [sizeClass, isTinyOrSmall, if_pos (by simpa using hPage)]
    split
    · exact .inl rfl
    · exact .inr rfl

theorem sizeClass_normal_iff (hg : g.WellFormed) :
    g.sizeClass size = .normal ↔ g.pageSize ≤ size ∧ size ≤ g.chunkSize := by
  constructor
  · intro hNormal
    exact ⟨pageSize_le_of_sizeClass hNormal, le_chunkSize_of_sizeClass hg (by simp [hNormal])⟩
  · rintro ⟨hPage, hChunk⟩
    rw [sizeClass, isTinyOrSmall, if_neg (by simpa using hPage), if_pos hChunk]

theorem sizeClass_huge_iff (hg : g.WellFormed) :
    g.sizeClass size = .huge ↔ g.chunkSize < size := by
  constructor
  · exact chunkSize_lt_of_sizeClass_huge
  · intro hLarge
    by_contra hOther
    have := le_chunkSize_of_sizeClass hg hOther
    omega

/-- A size below a page has a pool of its own. -/
structure Pooled (g : Geometry) (size : Nat) : Prop where
  positive : 0 < poolIndex size
  bound : poolIndex size < g.numPools
  elemSize : poolElemSize (poolIndex size) = size

theorem Carved.pooled (hg : g.WellFormed) (h : g.Carved size) (hPage : size < g.pageSize) :
    g.Pooled size := by
  obtain ⟨hBound, hSize⟩ := h.pool hg hPage
  refine ⟨Nat.pos_of_ne_zero fun hFirst => ?_, hBound, hSize⟩
  -- the first pool would serve blocks of no bytes
  have hPos := h.pos
  rw [← hSize, hFirst] at hPos
  exact absurd hPos (by decide)

/-- The runs of a size, at a depth that no subtraction of words on the way there misses. -/
structure Run (g : Geometry) (size : Nat) : Prop where
  power : ∃ k, size = 2 ^ k
  page_le : g.pageShift ≤ size.log2
  order_le : size.log2 - g.pageShift ≤ g.maxOrder
  depth_le : g.runDepth size ≤ g.maxOrder
  exact : g.chunkSize >>> g.runDepth size = size

theorem Carved.run (hg : g.WellFormed) (h : g.Carved size) (hPage : g.pageSize ≤ size) :
    g.Run size := by
  obtain ⟨k, hLow, hHigh, rfl⟩ := h.exists_of_page_le hg hPage
  obtain ⟨hDepth, hExact⟩ := h.runDepth hg hPage
  refine ⟨⟨k, rfl⟩, ?_, ?_, hDepth, ?_⟩
  · rwa [Nat.log2_two_pow]
  · rw [scale] at hHigh
    rw [Nat.log2_two_pow]
    omega
  · have hScale : g.runDepth (2 ^ k) ≤ g.scale := hDepth.trans (Nat.le_add_left ..)
    rw [hg.chunkSize_eq, Nat.shiftRight_eq_div_pow, Nat.pow_div hScale (by decide), hExact]

-- ---------------------------------------------------------------------------
-- The same by bits
-- ---------------------------------------------------------------------------

/-- How the tests and indices of a size are read off its bits: no bit from a page or from the tiny
limit on, the quotients as shifts, the place of a small size as the halvings of what is left. -/
structure ReadsBits (g : Geometry) (size : Nat) : Prop where
  page : size &&& Word.complement (g.pageSize - 1) = 0 ↔ g.isTinyOrSmall size = true
  tiny : size &&& Word.complement (tinyLimit - 1) = 0 ↔ isTiny size = true
  tinyIndex : tinyIndex size = size >>> 4
  smallIndex : smallIndex size = Word.halvings (size >>> 10)

theorem readsBits (hg : g.WellFormed) (hSize : size < Word.limit) : g.ReadsBits size where
  page := by
    have hShift := hg.scale_le
    rw [scale] at hShift
    rw [isTinyOrSmall, decide_eq_true_eq, hg.pageSize_eq,
      Word.and_complement_eq_zero_iff hSize (by omega)]
  tiny := by
    rw [isTiny, decide_eq_true_eq, show tinyLimit = 2 ^ 9 by decide,
      Word.and_complement_eq_zero_iff hSize (by decide)]
  tinyIndex := by rw [Nat.shiftRight_eq_div_pow]; rfl
  smallIndex := by rw [Word.halvings_eq, Nat.shiftRight_eq_div_pow]; rfl

/-- The steps that sizes are rounded up to. -/
def Step (g : Geometry) (step : Nat) : Prop :=
  step = max g.alignment tinyQuantum ∨ (step = g.alignment ∧ g.alignment ≠ 0)

theorem Step.exists_two_pow (hg : g.WellFormed) {step : Nat} (h : g.Step step) :
    ∃ k ≤ g.pageShift, step = 2 ^ k := by
  rcases h with rfl | ⟨rfl, hSome⟩
  · obtain ⟨k, -, hHigh, hStep⟩ := hg.exists_step
    exact ⟨k, hHigh, hStep⟩
  · rcases hg.alignment with hNone | ⟨⟨k, hk⟩, -, hPage⟩
    · exact absurd hNone hSome
    · rw [hk, hg.pageSize_eq, Nat.pow_le_pow_iff_right (by decide)] at hPage
      exact ⟨k, hPage, hk⟩

/-- Rounding up to a step is an addition that must not leave the word, and then a mask. -/
theorem Step.alignUp?_eq_mask (hg : g.WellFormed) {step : Nat} (h : g.Step step)
    (request : Nat) : Word.alignUp? request step =
      (Word.add? request (step - 1)).map fun sum => sum &&& Word.complement (step - 1) := by
  obtain ⟨k, hHigh, rfl⟩ := h.exists_two_pow hg
  have hScale := hg.scale_le
  rw [scale] at hScale
  refine Word.alignUp?_eq_mask (Word.isPowerOfTwo_two_pow k) ?_
  rw [Word.limit_eq]
  exact Nat.pow_lt_pow_right (by decide) (by omega)

-- ---------------------------------------------------------------------------
-- The whole of it
-- ---------------------------------------------------------------------------

/-- What the size `size` has to do with the request `request` that it is made for. -/
structure Rounds (g : Geometry) (request size : Nat) : Prop where
  covers : request ≤ size
  again : g.normalize size = size
  zero : size = 0 ↔ request = 0
  word : request < Word.limit → size < Word.limit ∧ g.ReadsBits size
  masked : ∀ step, g.Step step → Word.alignUp? request step =
    (Word.add? request (step - 1)).map fun sum => sum &&& Word.complement (step - 1)
  paged : (g.sizeClass size = .tiny ∨ g.sizeClass size = .small) ↔ size < g.pageSize
  pooled : 0 < size → size < g.pageSize → g.Pooled size
  alone : 0 < size → size < g.pageSize → ∀ other, g.normalize other < g.pageSize →
    poolIndex (g.normalize other) = poolIndex size → g.normalize other = size
  normal : g.sizeClass size = .normal ↔ g.pageSize ≤ size ∧ size ≤ g.chunkSize
  run : g.pageSize ≤ size → size ≤ g.chunkSize → g.Run size
  huge : g.sizeClass size = .huge ↔ g.chunkSize < size
  beyond : g.chunkSize < size → g.chunkSize < request
  nearest : g.alignment = 0 → IsLeast {rung | g.Rung rung ∧ request ≤ rung} size

/-- Two sizes that share a pool are one. -/
theorem eq_of_poolIndex_eq (hg : g.WellFormed) {other : Nat} (hPos : 0 < g.normalize request)
    (hPage : g.normalize request < g.pageSize) (hOther : g.normalize other < g.pageSize)
    (hEq : poolIndex (g.normalize other) = poolIndex (g.normalize request)) :
    g.normalize other = g.normalize request := by
  have hChunk := hg.pageSize_le
  have hPooled := (hg.carved_of_le hPos (by omega)).pooled hg hPage
  by_cases hZero : g.normalize other = 0
  · rw [hZero] at hEq
    have := hPooled.positive
    rw [← hEq] at this
    exact absurd this (by decide)
  · rw [← ((hg.carved_of_le (Nat.pos_of_ne_zero hZero) (by omega)).pooled hg hOther).elemSize, hEq,
      hPooled.elemSize]

/-- Every request is rounded to a size that all of the arithmetic agrees on. -/
theorem normalize_rounds (hg : g.WellFormed) (request : Nat) :
    g.Rounds request (g.normalize request) := by
  have hPageLe := hg.pageSize_le
  have hPage := hg.least
  exact {
    covers := le_normalize hg request
    again := normalize_normalize hg request
    zero := normalize_eq_zero_iff hg
    word := fun hRequest =>
      have hSize := normalize_lt_limit hg hRequest
      ⟨hSize, readsBits hg hSize⟩
    masked := fun _ hStep => hStep.alignUp?_eq_mask hg request
    paged := sizeClass_tiny_or_small_iff
    pooled := fun hPos hLt => (hg.carved_of_le hPos (by omega)).pooled hg hLt
    alone := fun hPos hLt _ hOther hEq => eq_of_poolIndex_eq hg hPos hLt hOther hEq
    normal := sizeClass_normal_iff hg
    run := fun hLow hHigh => (hg.carved_of_le (by omega) hHigh).run hg hLow
    huge := sizeClass_huge_iff hg
    beyond := lt_of_chunkSize_lt_normalize hg
    nearest := fun hNone =>
      ⟨⟨rung_normalize hg request, le_normalize hg request⟩,
        fun _ ⟨hRung, hCovers⟩ => normalize_le_of_rung hg hNone hRung hCovers⟩ }

/-- A tiny request, one of half a page and more, and one of more than a chunk. -/
theorem normalize_rounds_two_pages :
    (⟨4096, 1, 0⟩ : Geometry).Rounds 17 32 ∧ (⟨4096, 1, 0⟩ : Geometry).Rounds 2049 4096 ∧
      (⟨4096, 1, 0⟩ : Geometry).Rounds 8193 8193 := by
  have hRounds := normalize_rounds wellFormed_two_pages
  exact ⟨(by decide : (⟨4096, 1, 0⟩ : Geometry).normalize 17 = 32) ▸ hRounds 17,
    (by decide : (⟨4096, 1, 0⟩ : Geometry).normalize 2049 = 4096) ▸ hRounds 2049,
    (by decide : (⟨4096, 1, 0⟩ : Geometry).normalize 8193 = 8193) ▸ hRounds 8193⟩

end BlockPool.Geometry
