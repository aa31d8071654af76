import BlockPool.Proofs.Word

/-!
# BlockPool — rounding is exact

What a word is rounded to, for every word, in terms that mention no bits. Up to half of the range
there is a power of two to move up to, and it is the least one; above that the highest power is all
there is. A multiple of an alignment is reached unless it lies past the last word, and the sum that
is made on the way never leaves the word for another reason.

* `Word.log2_eq` — the zeros above the highest set bit give the logarithm of a natural number.
* `Word.isLeast_nextPowerOfTwo`, `Word.nextPowerOfTwo_eq_top` — the two halves of the range.
* `Word.alignUp?_two_pow` — the least multiple, if it is a word.
* `Word.rounding_exact` — all roundings of a value and an alignment at once.
-/

namespace BlockPool.Word

variable {value align k : Nat}

-- ---------------------------------------------------------------------------
-- The highest set bit
-- ---------------------------------------------------------------------------

theorem toNat_ofNat_of_lt (hWord : value < limit) : (BitVec.ofNat bits value).toNat = value := by
  rw [limit_eq] at hWord
  rw [BitVec.toNat_ofNat, bits, Nat.mod_eq_of_lt hWord]

theorem two_pow_log2_le (hPos : 0 < value) (hWord : value < limit) : 2 ^ log2 value ≤ value := by
  have hSome : BitVec.ofNat bits value ≠ BitVec.ofNat bits 0 := by
    intro hZero
    have hSame := toNat_ofNat_of_lt hWord
    rw [hZero, BitVec.toNat_zero] at hSame
    exact hPos.ne hSame
  have hBit := BitVec.two_pow_sub_clz_le_toNat_of_ne_zero (by decide) hSome
  rw [toNat_ofNat_of_lt hWord] at hBit
  rwa [log2, if_neg hPos.ne']

theorem lt_two_pow_log2_succ (hWord : value < limit) : value < 2 ^ (log2 value + 1) := by
  by_cases hZero : value = 0
  · subst hZero
    decide
  · have hBelow := BitVec.toNat_lt_two_pow_sub_clz (x := BitVec.ofNat bits value)
    rw [toNat_ofNat_of_lt hWord] at hBelow
    -- a word that is not zero has fewer leading zeros than places
    have hPlaces : leadingZeros value < bits := by
      by_contra hAll
      rw [← leadingZeros, Nat.sub_eq_zero_of_le (Nat.le_of_not_lt hAll)] at hBelow
      omega
    rw [log2, if_neg hZero]
    rwa [← leadingZeros, show bits - leadingZeros value = bits - 1 - leadingZeros value + 1 by
      omega] at hBelow

/-- Counting the zeros from the top of the word is the logarithm of a natural number. -/
theorem log2_eq (hWord : value < limit) : log2 value = value.log2 := by
  by_cases hZero : value = 0
  · subst hZero
    rfl
  · exact ((Nat.log2_eq_iff hZero).mpr
      ⟨two_pow_log2_le (Nat.pos_of_ne_zero hZero) hWord, lt_two_pow_log2_succ hWord⟩).symm

/-- The logarithm is the largest exponent whose power does not pass the value. -/
theorem isGreatest_log2 (hPos : 0 < value) (hWord : value < limit) :
    IsGreatest {k | 2 ^ k ≤ value} (log2 value) := by
  refine ⟨two_pow_log2_le hPos hWord, fun k hk => ?_⟩
  rw [log2_eq hWord, Nat.le_log2 hPos.ne']
  exact hk

-- ---------------------------------------------------------------------------
-- Up to a power of two
-- ---------------------------------------------------------------------------

theorem isLeast_nextPowerOfTwo (hHigh : value ≤ 2 ^ 63) :
    IsLeast {power | (∃ k, power = 2 ^ k) ∧ max value 1 ≤ power} (nextPowerOfTwo value) := by
  by_cases hOne : value ≤ 1
  · rw [nextPowerOfTwo, if_pos hOne]
    constructor
    · exact ⟨⟨0, rfl⟩, by omega⟩
    · rintro _ ⟨-, hReach⟩
      exact le_of_max_le_right hReach
  · have hLow : 1 < value := Nat.lt_of_not_le hOne
    obtain ⟨k, hEq, -, hCovers⟩ := exists_nextPowerOfTwo_eq hLow hHigh
    constructor
    · exact ⟨⟨k + 1, hEq⟩, by omega⟩
    · rintro _ ⟨⟨j, rfl⟩, hReach⟩
      exact nextPowerOfTwo_le hLow hHigh (le_of_max_le_left hReach)

/-- Above half of the range every place is filled, and one more does not fit the word. -/
theorem nextPowerOfTwo_eq_top (hLow : 2 ^ 63 < value) (hWord : value < limit) :
    nextPowerOfTwo value = 2 ^ 63 := by
  rw [limit_eq] at hWord
  have hFilled : smear (value - 1) = 2 ^ 64 - 1 :=
    smear_eq (k := 63) (by omega) (by omega) (by decide)
  rw [nextPowerOfTwo, if_neg (by omega), hFilled]
  rfl

/-- A power of two that reaches a value reaches what the value is rounded to. -/
theorem nextPowerOfTwo_le_two_pow (hWord : value < limit) (hReach : value ≤ 2 ^ k) :
    nextPowerOfTwo value ≤ 2 ^ k := by
  by_cases hHigh : value ≤ 2 ^ 63
  · have hOne := Nat.one_le_two_pow (n := k)
    exact (isLeast_nextPowerOfTwo hHigh).2 ⟨⟨k, rfl⟩, max_le hReach hOne⟩
  · rw [nextPowerOfTwo_eq_top (by omega) hWord]
    omega

/-- Every word is rounded to a power of two that is a word. -/
theorem exists_nextPowerOfTwo_eq_two_pow (hWord : value < limit) :
    ∃ k < 64, nextPowerOfTwo value = 2 ^ k := by
  by_cases hHigh : value ≤ 2 ^ 63
  · obtain ⟨k, hEq⟩ := (isLeast_nextPowerOfTwo hHigh).1.1
    have hTop : 2 ^ k ≤ 2 ^ 63 := hEq ▸ nextPowerOfTwo_le_two_pow hWord hHigh
    rw [Nat.pow_le_pow_iff_right (by decide)] at hTop
    exact ⟨k, by omega, hEq⟩
  · exact ⟨63, by decide, nextPowerOfTwo_eq_top (by omega) hWord⟩

/-- Rounding up to a power of two adds at most one to the logarithm. -/
theorem log2_nextPowerOfTwo_le (hWord : value < limit) :
    log2 (nextPowerOfTwo value) ≤ log2 value + 1 := by
  obtain ⟨k, hk, hEq⟩ := exists_nextPowerOfTwo_eq_two_pow hWord
  have hNext : 2 ^ k < limit := limit_eq ▸ Nat.pow_lt_pow_right (by decide) hk
  have hReach : 2 ^ k ≤ 2 ^ (log2 value + 1) :=
    hEq ▸ nextPowerOfTwo_le_two_pow hWord (lt_two_pow_log2_succ hWord).le
  rw [hEq, log2_eq hNext, Nat.log2_two_pow]
  exact (Nat.pow_le_pow_iff_right (by decide)).mp hReach

-- ---------------------------------------------------------------------------
-- Up to a multiple
-- ---------------------------------------------------------------------------

/-- The least multiple at or above a value, in natural numbers. -/
theorem isLeast_mul_ceilDiv (hPos : 0 < align) (value : Nat) :
    IsLeast {multiple | align ∣ multiple ∧ value ≤ multiple} (align * (value ⌈/⌉ align)) := by
  refine ⟨⟨Nat.dvd_mul_right .., (ceilDiv_le_iff_le_mul hPos).mp le_rfl⟩, ?_⟩
  rintro _ ⟨⟨count, rfl⟩, hReach⟩
  exact Nat.mul_le_mul_left _ ((ceilDiv_le_iff_le_mul hPos).mpr hReach)

/-- The sum that is made on the way fits a word whenever the multiple does: the range ends at a
multiple itself, so the last one before it leaves room for the step. -/
theorem add_lt_limit_iff (hWord : 2 ^ k < limit) (value : Nat) :
    value + (2 ^ k - 1) < limit ↔ 2 ^ k * (value ⌈/⌉ 2 ^ k) < limit := by
  have hPos := Nat.two_pow_pos k
  obtain ⟨⟨hMultiple, hReach⟩, -⟩ := isLeast_mul_ceilDiv hPos value
  have hNear : 2 ^ k * (value ⌈/⌉ 2 ^ k) ≤ value + (2 ^ k - 1) := by
    rw [Nat.ceilDiv_eq_add_pred_div, Nat.add_sub_assoc hPos]
    exact Nat.mul_div_le ..
  have hRange : 2 ^ k ∣ limit := by
    rw [limit_eq, Nat.pow_lt_pow_iff_right (by decide)] at hWord
    exact limit_eq ▸ Nat.pow_dvd_pow 2 hWord.le
  constructor
  · exact hNear.trans_lt
  · intro hFits
    have hRoom := Nat.le_of_dvd (Nat.sub_pos_of_lt hFits) (Nat.dvd_sub hRange hMultiple)
    omega

theorem alignUp?_two_pow (hWord : 2 ^ k < limit) (value : Nat) :
    alignUp? value (2 ^ k) =
      if 2 ^ k * (value ⌈/⌉ 2 ^ k) < limit then some (2 ^ k * (value ⌈/⌉ 2 ^ k)) else none := by
  have hPos := Nat.two_pow_pos k
  rw [alignUp?, if_pos (isPowerOfTwo_two_pow k), add?]
  simp only [add_lt_limit_iff hWord]
  split
  · rw [Option.map_some, Nat.ceilDiv_eq_add_pred_div, Nat.add_sub_assoc hPos, mul_comm]
  · rfl

theorem alignUp?_eq_none (hOther : ¬ ∃ k, align = 2 ^ k) (value : Nat) :
    alignUp? value align = none := by
  rw [alignUp?, if_neg (mt isPowerOfTwo_iff.mp hOther)]

-- ---------------------------------------------------------------------------
-- The whole of it
-- ---------------------------------------------------------------------------

/-- What the roundings of a value are, with `align` for the alignment. -/
structure Rounded (value align : Nat) : Prop where
  next : value ≤ 2 ^ 63 →
    IsLeast {power | (∃ k, power = 2 ^ k) ∧ max value 1 ≤ power} (nextPowerOfTwo value)
  top : 2 ^ 63 < value → nextPowerOfTwo value = 2 ^ 63
  floor : 0 < value → IsGreatest {k | 2 ^ k ≤ value} (log2 value)
  logarithm : log2 value = value.log2
  floorNext : log2 (nextPowerOfTwo value) ≤ log2 value + 1
  multiple : (∃ k, align = 2 ^ k) → ∃ least,
    IsLeast {multiple | align ∣ multiple ∧ value ≤ multiple} least ∧
      alignUp? value align = if least < limit then some least else none
  masked : (∃ k, align = 2 ^ k) → alignUp? value align =
    (add? value (align - 1)).map fun sum => sum &&& complement (align - 1)
  refused : (¬ ∃ k, align = 2 ^ k) → alignUp? value align = none

/-- Every word is rounded exactly, to a power of two as to a multiple of any alignment. -/
theorem rounding_exact (hValue : value < limit) (hAlign : align < limit) :
    Rounded value align where
  next := isLeast_nextPowerOfTwo
  top := fun hLow => nextPowerOfTwo_eq_top hLow hValue
  floor := fun hPos => isGreatest_log2 hPos hValue
  logarithm := log2_eq hValue
  floorNext := log2_nextPowerOfTwo_le hValue
  multiple := by
    rintro ⟨k, rfl⟩
    exact ⟨_, isLeast_mul_ceilDiv (Nat.two_pow_pos k) value, alignUp?_two_pow hAlign value⟩
  masked := fun hPower => alignUp?_eq_mask (isPowerOfTwo_iff.mpr hPower) hAlign
  refused := fun hOther => alignUp?_eq_none hOther value

/-- Three below the end of the range: the next multiple of four is no word, and no power of two
reaches that far. -/
theorem rounding_exact_near_end :
    2 ^ 64 - 3 < limit ∧ 4 < limit ∧ Rounded (2 ^ 64 - 3) 4 ∧
      alignUp? (2 ^ 64 - 3) 4 = none ∧ nextPowerOfTwo (2 ^ 64 - 3) = 2 ^ 63 ∧
      log2 (2 ^ 64 - 3) = 63 := by
  refine ⟨by decide, by decide, rounding_exact (by decide) (by decide), ?_⟩
  decide +kernel

end BlockPool.Word
