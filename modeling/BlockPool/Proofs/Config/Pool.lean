import BlockPool.Buffer.Allocator
import BlockPool.Proofs.Chunk.Geometry

/-!
# BlockPool — what a checked configuration promises

The bound on a chunk is checked on a word, and the bits that leave a word at the top are lost. A
page is a power of two, so the bytes of a chunk either fit the word, and are exact then, or leave
nothing in it. A configuration that passes its checks has a geometry to work with, unless its chunks
outgrow the word: these pass as chunks of no bytes.

* `PoolConfig.validate_eq_ok_iff` — the ranges that are checked.
* `PoolConfig.Checked` — a configuration that some way into the pool let pass.
* `PoolConfig.Checked.chunkSize_cases` — its chunks are exact, or have no bytes at all.
* `PoolConfig.Checked.geometry_wellFormed` — its geometry, where the bytes of a chunk fit a word.
-/

namespace BlockPool

/-- A power of two that is moved out of the word leaves nothing behind. -/
theorem Word.shiftLeft_two_pow (shift amount : Nat) :
    Word.shiftLeft (2 ^ shift) amount =
      if 2 ^ shift * 2 ^ amount < Word.limit then 2 ^ shift * 2 ^ amount else 0 := by
  rw [Word.shiftLeft, Nat.shiftLeft_eq]
  split
  · rename_i hFits
    exact Nat.mod_eq_of_lt hFits
  · rename_i hOver
    rw [Word.limit_eq, ← pow_add, not_lt, Nat.pow_le_pow_iff_right (by decide)] at hOver
    rw [Word.limit_eq, ← pow_add]
    exact Nat.mod_eq_zero_of_dvd (Nat.pow_dvd_pow 2 hOver)

/-- Two steps succeed together if the second does on what the first gives. -/
theorem bind_eq_ok_iff {ε α β : Type} {x : Except ε α} {f : α → Except ε β} {b : β} :
    x >>= f = .ok b ↔ ∃ a, x = .ok a ∧ f a = .ok b := by
  cases x with
  | error e => simp [bind, Except.bind]
  | ok a => simp [bind, Except.bind]

namespace PoolConfig

variable {c : PoolConfig}

-- ---------------------------------------------------------------------------
-- The ranges
-- ---------------------------------------------------------------------------

/-- The ranges that are checked. -/
structure InRange (c : PoolConfig) : Prop where
  page : ∃ shift, c.pageSize = 2 ^ shift
  least : 4096 ≤ c.pageSize
  order : c.maxOrder ≤ 14
  chunk : c.chunkSize ≤ 2 ^ 30
  arenas : 0 < c.numArenas
  alignment : c.alignment = 0 ∨
    ((∃ shift, c.alignment = 2 ^ shift) ∧ 16 ≤ c.alignment ∧ c.alignment ≤ c.pageSize)
  interval : 0 < c.cacheTrimInterval

theorem alignmentFits_iff : c.alignmentFits = true ↔ c.alignment = 0 ∨
    ((∃ shift, c.alignment = 2 ^ shift) ∧ 16 ≤ c.alignment ∧ c.alignment ≤ c.pageSize) := by
  rw [alignmentFits, Bool.or_eq_true, beq_iff_eq, Bool.and_eq_true, Bool.and_eq_true,
    Word.isPowerOfTwo_iff, decide_eq_true_eq, decide_eq_true_eq, and_assoc]
  rfl

/-- A check is passed if its range is not violated and the later checks are passed. -/
theorem check_eq_ok_iff {violated : Prop} [Decidable violated] {cause : ConfigError}
    {rest : Except ConfigError Unit} :
    (if violated then .error cause else rest) = .ok () ↔ ¬violated ∧ rest = .ok () := by
  by_cases h : violated <;> simp [h]

/-- A configuration passes if and only if its numbers are in their ranges. -/
theorem validate_eq_ok_iff : c.validate = .ok () ↔ c.InRange := by
  simp only [validate, check_eq_ok_iff, not_or, not_lt, Bool.not_eq_false, Word.isPowerOfTwo_iff,
    alignmentFits_iff, ← Nat.pos_iff_ne_zero, gt_iff_lt, and_true]
  constructor
  · rintro ⟨⟨hLeast, hPage⟩, hOrder, hChunk, hArenas, hAlignment, hInterval⟩
    exact ⟨hPage, hLeast, hOrder, hChunk, hArenas, hAlignment, hInterval⟩
  · intro h
    exact ⟨⟨h.least, h.page⟩, h.order, h.chunk, h.arenas, h.alignment, h.interval⟩

-- ---------------------------------------------------------------------------
-- Ways past the check
-- ---------------------------------------------------------------------------

/-- The configuration was accepted: by the check itself, as what an environment describes, or by an
allocator that was built from it. -/
inductive Checked (c : PoolConfig) : Prop where
  | validate (h : c.validate = .ok ())
  | ofEnvironment (cores : Nat) (env : Environment) (h : ofEnvironment cores env = .ok c)
  | create (id : Nat) (supply : Nat → Supply) (a : Allocator)
    (h : Allocator.create id c supply = .ok a)

/-- No way leads past the check. -/
theorem Checked.inRange (h : c.Checked) : c.InRange := by
  refine validate_eq_ok_iff.mp ?_
  cases h with
  | validate h => exact h
  | ofEnvironment cores env h =>
    simp only [PoolConfig.ofEnvironment, bind_eq_ok_iff] at h
    -- the check comes last, after the ten variables are read
    obtain ⟨_, -, _, -, _, -, _, -, _, -, _, -, _, -, _, -, _, -, _, -, ⟨⟩, hChecked, hConfig⟩ := h
    obtain rfl := Except.ok.inj hConfig
    exact hChecked
  | create id supply a h =>
    unfold Allocator.create at h
    split at h
    · assumption
    · exact absurd h (by simp)

-- ---------------------------------------------------------------------------
-- The geometry
-- ---------------------------------------------------------------------------

/-- The bytes of all pages of a chunk, whether or not a word can hold their number. -/
def chunkBytes (c : PoolConfig) : Nat := c.pageSize * 2 ^ c.maxOrder

/-- The chunks of a checked configuration are exact, and small enough, or have no bytes at all. -/
theorem Checked.chunkSize_cases (h : c.Checked) :
    (c.chunkSize = c.chunkBytes ∧ c.chunkBytes ≤ 2 ^ 30) ∨
      (c.chunkSize = 0 ∧ 2 ^ 64 ≤ c.chunkBytes) := by
  obtain ⟨shift, hShift⟩ := h.inRange.page
  have hSize := Word.shiftLeft_two_pow shift c.maxOrder
  have hBound := h.inRange.chunk
  rw [← hShift, ← chunkBytes, ← chunkSize] at hSize
  split at hSize
  · exact .inl ⟨hSize, hSize ▸ hBound⟩
  · rename_i hOver
    exact .inr ⟨hSize, Word.limit_eq ▸ not_lt.mp hOver⟩

/-- A checked configuration whose chunks fit a word has chunks of at most 1 GiB, of as many bytes as
their pages, and a geometry that the pool works for. -/
theorem Checked.geometry_wellFormed (h : c.Checked) (hFits : c.chunkBytes < 2 ^ 64) :
    c.chunkBytes ≤ 2 ^ 30 ∧ c.chunkSize = c.chunkBytes ∧ c.pageSize ≤ c.chunkSize ∧
      c.geometry.WellFormed := by
  rcases h.chunkSize_cases with ⟨hSize, hBound⟩ | ⟨-, hOver⟩
  · have hRange := h.inRange
    have hGeometry : c.geometry.WellFormed :=
      ⟨hRange.page, hRange.least, hRange.order, hBound, hRange.alignment⟩
    exact ⟨hBound, hSize, hGeometry.pageSize_le, hGeometry⟩
  · exact absurd hFits (not_lt.mpr hOver)

/-- The largest chunks that there are. -/
theorem Checked.geometry_wellFormed_largest :
    let c : PoolConfig := { defaults 1 with pageSize := 2 ^ 16, maxOrder := 14 }
    c.Checked ∧ c.chunkBytes < 2 ^ 64 ∧ c.chunkSize = 2 ^ 30 ∧ c.geometry.WellFormed := by
  intro c
  have hChecked : c.Checked := .validate (by decide +kernel)
  have hFits : c.chunkBytes < 2 ^ 64 := by decide
  obtain ⟨-, hSize, -, hGeometry⟩ := Checked.geometry_wellFormed hChecked hFits
  exact ⟨hChecked, hFits, hSize.trans (by decide), hGeometry⟩

/-- Two pages of 2 ^ 63 bytes are more than a word can count. They pass the check as a chunk of no
bytes, are read from an environment, and an allocator is built from them. -/
theorem checked_two_huge_pages :
    let c : PoolConfig := { defaults 1 with pageSize := 2 ^ 63, maxOrder := 1 }
    let env : Environment := fun key =>
      if key = "POOLBUF_PAGE_SIZE" then some "9223372036854775808"
      else if key = "POOLBUF_MAX_ORDER" then some "1" else none
    c.validate = .ok () ∧ ofEnvironment 1 env = .ok c ∧
      (∀ supply, Allocator.create 0 c supply = .ok (Allocator.build 0 c supply)) ∧
      c.chunkBytes = 2 ^ 64 ∧ c.chunkSize = 0 ∧ ¬c.geometry.WellFormed := by
  intro c env
  have hValid : c.validate = .ok () := by decide +kernel
  refine ⟨hValid, by decide +kernel, fun supply => ?_, by decide, by decide,
    fun hGeometry => absurd hGeometry.product (by decide)⟩
  rw [Allocator.create, hValid]

end PoolConfig

end BlockPool
