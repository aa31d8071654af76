import BlockPool.Word
import Mathlib

/-!
# BlockPool — rounding in words

What the bit tricks on words compute, in terms of division and powers of two. Nothing after this
module looks at single bits of a size again.

* `Word.isPowerOfTwo_iff` — one bit is set exactly in the powers of two.
* `Word.alignUp?_eq` — rounding up, where the result fits a word.
* `Word.nextPowerOfTwo_eq` — the least power of two that reaches a value.
* `Word.and_complement_eq` — a mask of high bits rounds down, so rounding up is an addition and a
  mask.
* `Word.halvings_eq` — the steps until halving a number leaves nothing.
-/

namespace BlockPool.Word

variable {n value align k : Nat}

theorem limit_eq : limit = 2 ^ 64 := by decide

theorem isPowerOfTwo_iff : isPowerOfTwo n = true ↔ ∃ k, n = 2 ^ k := by
  have hCore := Nat.ne_zero_and_sub_one_eq_zero_iff_isPowerOfTwo (n := n)
  unfold Nat.isPowerOfTwo at hCore
  simpa [isPowerOfTwo] using hCore

theorem isPowerOfTwo_two_pow (k : Nat) : isPowerOfTwo (2 ^ k) = true :=
  isPowerOfTwo_iff.mpr ⟨k, rfl⟩

-- ---------------------------------------------------------------------------
-- Alignment
-- ---------------------------------------------------------------------------

theorem alignUp?_eq (hAlign : isPowerOfTwo align = true) (hFits : value + (align - 1) < limit) :
    alignUp? value align = some ((value + (align - 1)) / align * align) := by
  simp [alignUp?, hAlign, add?, hFits]

theorem le_of_alignUp? {rounded : Nat} (h : alignUp? value align = some rounded) :
    value ≤ rounded ∧ rounded < limit := by
  unfold alignUp? add? at h
  split at h
  · rename_i hAlign
    obtain ⟨k, rfl⟩ := isPowerOfTwo_iff.mp hAlign
    split at h
    · rename_i hFits
      obtain rfl : (value + (2 ^ k - 1)) / 2 ^ k * 2 ^ k = rounded := by simpa using h
      have hPos := Nat.two_pow_pos k
      have hSplit := Nat.div_add_mod (value + (2 ^ k - 1)) (2 ^ k)
      have hRest := Nat.mod_lt (value + (2 ^ k - 1)) hPos
      rw [mul_comm] at hSplit
      omega
    · exact absurd h (by simp)
  · exact absurd h (by simp)

-- ---------------------------------------------------------------------------
-- Powers of two
-- ---------------------------------------------------------------------------

/-- Every bit of `filled` is the disjunction of a window of bits of `n`. -/
private def Window (n width filled : Nat) : Prop :=
  ∀ i, filled.testBit i = true ↔ ∃ j < width, n.testBit (i + j) = true

/-- One step of smearing doubles the window. -/
private theorem Window.step {width filled : Nat} (h : Window n width filled) :
    Window n (width + width) (filled ||| filled >>> width) := by
  intro i
  rw [Nat.testBit_or, Bool.or_eq_true, Nat.testBit_shiftRight, h i, h (width + i)]
  constructor
  · rintro (⟨j, hj, hBit⟩ | ⟨j, hj, hBit⟩)
    · exact ⟨j, by omega, hBit⟩
    · exact ⟨width + j, by omega, by rwa [← add_assoc, add_comm i width]⟩
  · rintro ⟨j, hj, hBit⟩
    by_cases hLow : j < width
    · exact .inl ⟨j, hLow, hBit⟩
    · refine .inr ⟨j - width, by omega, ?_⟩
      rwa [show width + i + (j - width) = i + j by omega]

/-- Six steps fill every place below the highest bit of a word. -/
theorem smear_eq (hLow : 2 ^ k ≤ n) (hHigh : n < 2 ^ (k + 1)) (hk : k < 64) :
    smear n = 2 ^ (k + 1) - 1 := by
  have hOne : Window n 1 n := fun i => by simp
  have hAll : Window n 64 (smear n) := hOne.step.step.step.step.step.step
  have hTop : n.testBit k = true := by
    rw [Nat.testBit_eq_decide_div_mod_eq,
      Nat.div_eq_of_lt_le (by omega : 1 * 2 ^ k ≤ n) (by rw [pow_succ] at hHigh; omega)]
    rfl
  apply Nat.eq_of_testBit_eq
  intro i
  rw [Nat.testBit_two_pow_sub_one, Bool.eq_iff_iff, hAll i, decide_eq_true_eq]
  constructor
  · rintro ⟨j, -, hBit⟩
    by_contra hGe
    rw [Nat.testBit_lt_two_pow (hHigh.trans_le (Nat.pow_le_pow_right (by decide) (by omega)))]
      at hBit
    exact absurd hBit (by simp)
  · intro hi
    exact ⟨k - i, by omega, by rwa [show i + (k - i) = k by omega]⟩

/-- The power of two that reaches a value and that the one below does not. -/
theorem nextPowerOfTwo_eq (hLow : 2 ^ k < value) (hHigh : value ≤ 2 ^ (k + 1)) (hk : k + 1 < 64) :
    nextPowerOfTwo value = 2 ^ (k + 1) := by
  have hPos := Nat.two_pow_pos k
  have hWord : 2 ^ (k + 1) < limit := by
    rw [limit_eq]
    exact Nat.pow_lt_pow_right (by decide) hk
  have hSum : 2 ^ (k + 1) - 1 + 1 = 2 ^ (k + 1) := by
    have := Nat.two_pow_pos (k + 1)
    omega
  rw [nextPowerOfTwo, if_neg (by omega),
    smear_eq (k := k) (by omega) (by omega) (by omega), add?, hSum, if_pos hWord]
  rfl

theorem exists_nextPowerOfTwo_eq (hLow : 1 < value) (hHigh : value ≤ 2 ^ 63) :
    ∃ k, nextPowerOfTwo value = 2 ^ (k + 1) ∧ 2 ^ k < value ∧ value ≤ 2 ^ (k + 1) := by
  set k := (value - 1).log2 with hk
  obtain ⟨hFloor, hCeil⟩ := (Nat.log2_eq_iff (by omega)).mp hk.symm
  have hSmall : k < 63 := (Nat.log2_lt (by omega)).mpr (by omega)
  exact ⟨k, nextPowerOfTwo_eq (by omega) (by omega) (by omega), by omega, by omega⟩

/-- No power of two between a value and the one it is rounded to. -/
theorem nextPowerOfTwo_le (hLow : 1 < value) (hHigh : value ≤ 2 ^ 63) (hk : value ≤ 2 ^ k) :
    nextPowerOfTwo value ≤ 2 ^ k := by
  obtain ⟨j, hEq, hLt, -⟩ := exists_nextPowerOfTwo_eq hLow hHigh
  rw [hEq]
  exact Nat.pow_le_pow_right (by decide)
    ((Nat.pow_lt_pow_iff_right (by decide)).mp (hLt.trans_le hk))

-- ---------------------------------------------------------------------------
-- Rounding by masks
-- ---------------------------------------------------------------------------

/-- The word with exactly the bits that `value` has not. -/
def complement (value : Nat) : Nat := maxValue - value

theorem testBit_complement {i : Nat} (h : value < limit) :
    (complement value).testBit i = (decide (i < 64) && !value.testBit i) := by
  rw [limit_eq] at h
  rw [complement, maxValue, limit_eq, Nat.sub_sub, add_comm 1 value,
    Nat.testBit_two_pow_sub_succ h]

/-- A word without its lowest bits is the multiple of a power of two below it. -/
theorem and_complement_eq (hValue : value < limit) (hk : k ≤ 64) :
    value &&& complement (2 ^ k - 1) = value / 2 ^ k * 2 ^ k := by
  have hPos := Nat.two_pow_pos k
  have hMask : 2 ^ k - 1 < limit := by
    have := Nat.pow_le_pow_right (show 0 < 2 by decide) hk
    rw [limit_eq]
    omega
  apply Nat.eq_of_testBit_eq
  intro i
  rw [Nat.testBit_and, testBit_complement hMask, Nat.testBit_two_pow_sub_one,
    Nat.testBit_mul_two_pow]
  by_cases hHigh : i < 64
  · by_cases hLow : k ≤ i
    · simp [hHigh, hLow, Nat.testBit_div_two_pow, Nat.not_lt.mpr hLow]
    · simp [hLow, Nat.lt_of_not_le hLow]
  · -- beyond the word there is nothing on either side
    have hNone : value.testBit i = false := by
      rw [limit_eq] at hValue
      exact Nat.testBit_lt_two_pow
        (hValue.trans_le (Nat.pow_le_pow_right (by decide) (Nat.le_of_not_lt hHigh)))
    have hLow : k ≤ i := by omega
    simp [hNone, hLow, Nat.testBit_div_two_pow]

/-- A word has no bit from `k` on exactly when it is below that power of two. -/
theorem and_complement_eq_zero_iff (hValue : value < limit) (hk : k ≤ 64) :
    value &&& complement (2 ^ k - 1) = 0 ↔ value < 2 ^ k := by
  have hPos := Nat.two_pow_pos k
  rw [and_complement_eq hValue hk, Nat.mul_eq_zero, Nat.div_eq_zero_iff]
  omega

/-- Rounding up is an addition that must stay in the word, and then a mask. -/
theorem alignUp?_eq_mask (hAlign : isPowerOfTwo align = true) (hWord : align < limit) :
    alignUp? value align =
      (add? value (align - 1)).map fun sum => sum &&& complement (align - 1) := by
  obtain ⟨k, rfl⟩ := isPowerOfTwo_iff.mp hAlign
  have hk : k ≤ 64 := by
    rw [limit_eq, Nat.pow_lt_pow_iff_right (by decide)] at hWord
    omega
  rw [alignUp?, if_pos hAlign, add?]
  split
  · rename_i hSum
    rw [Option.map_some, Option.map_some, and_complement_eq hSum hk]
  · rfl

-- ---------------------------------------------------------------------------
-- Fixed points of rounding
-- ---------------------------------------------------------------------------

/-- What was rounded up is a multiple. -/
theorem dvd_of_alignUp? {rounded : Nat} (h : alignUp? value align = some rounded) :
    align ∣ rounded := by
  unfold alignUp? add? at h
  split at h
  · split at h
    · obtain rfl : (value + (align - 1)) / align * align = rounded := by simpa using h
      exact Nat.dvd_mul_left ..
    · exact absurd h (by simp)
  · exact absurd h (by simp)

/-- A multiple is not moved, not even one so large that the step past it leaves the word. -/
theorem alignUp?_getD_of_dvd (h : align ∣ value) : (alignUp? value align).getD value = value := by
  unfold alignUp? add?
  split
  · split
    · rename_i hAlign _
      obtain ⟨k, rfl⟩ := isPowerOfTwo_iff.mp hAlign
      obtain ⟨count, rfl⟩ := h
      have hPos := Nat.two_pow_pos k
      have hCount : (2 ^ k * count + (2 ^ k - 1)) / 2 ^ k = count := by
        rw [Nat.mul_add_div hPos, Nat.div_eq_of_lt (by omega), Nat.add_zero]
      rw [Option.map_some, Option.getD_some, hCount, mul_comm]
    · rfl
  · rfl

-- ---------------------------------------------------------------------------
-- Counting places
-- ---------------------------------------------------------------------------

/-- How often a number can be halved before nothing is left. -/
def halvings (n : Nat) : Nat :=
  if n = 0 then 0 else halvings (n >>> 1) + 1
termination_by n
decreasing_by
  rw [Nat.shiftRight_one]
  omega

/-- Each halving drops one binary place. -/
theorem halvings_eq (n : Nat) : halvings n = bitLength n := by
  fun_induction halvings n with
  | case1 => rfl
  | case2 n hPos ih =>
    rw [ih, Nat.shiftRight_one, bitLength, bitLength, if_neg hPos]
    by_cases hOne : n / 2 = 0
    · have : n = 1 := by omega
      subst this
      rfl
    · rw [if_neg hOne, Nat.log2_def n, if_pos (by omega)]

end BlockPool.Word
