import BlockPool.Proofs.Store.Bitmap

/-!
# BlockPool — searches of a bitmap

A search goes through the words and looks at a whole word at a time. What it finds is what a look
at one index after the other would find: the least index that the view of the words shows.

* `Bitmap.seen` — whether a view of the words shows an index.
* `Bitmap.findFrom?_eq_some`, `Bitmap.findFrom?_eq_none` — a search finds the least index, and
  nothing where there is none.
* `Bitmap.findClear?_eq_some`, `Bitmap.findClear?_eq_none` — the same for what is not in the set.
-/

namespace BlockPool.Bitmap

variable {b : Bitmap} {view : BitVec 64 → BitVec 64} {start word count i j k : Nat}

/-- Whether a view of the words shows an index. -/
def seen (b : Bitmap) (view : BitVec 64 → BitVec 64) (index : Nat) : Bool :=
  (view (b.wordOf index)).getLsbD (index % 64)

/-- The complement shows what is not in the set. -/
theorem seen_not (b : Bitmap) (i : Nat) : b.seen (fun word => ~~~word) i = !b.holds i := by
  have hLt : i % 64 < 64 := Nat.mod_lt _ (by decide)
  rw [seen, BitVec.getLsbD_not, holds_eq_getLsbD]
  simp [hLt]

-- ---------------------------------------------------------------------------
-- One word
-- ---------------------------------------------------------------------------

theorem lowestBit?_eq_some {bits : BitVec 64} (h : lowestBit? bits = some k) :
    k < 64 ∧ bits.getLsbD k = true ∧ ∀ j < k, bits.getLsbD j = false := by
  rw [lowestBit?, List.find?_range_eq_some, List.mem_range] at h
  exact ⟨h.2.1, h.1, fun j hj => by simpa using h.2.2 j hj⟩

theorem lowestBit?_eq_none {bits : BitVec 64} (h : lowestBit? bits = none) (hk : k < 64) :
    bits.getLsbD k = false := by
  rw [lowestBit?, List.find?_range_eq_none] at h
  simpa using h k hk

/-- The part of a word that a search from `start` on looks at. -/
def kept (b : Bitmap) (view : BitVec 64 → BitVec 64) (start word : Nat) : BitVec 64 :=
  if word = start / 64 then view (b.store.getD word 0) &&& (BitVec.allOnes 64 <<< (start % 64))
  else view (b.store.getD word 0)

/-- In the words from that of `start` on it is what is seen from `start` on. -/
theorem getLsbD_kept (hWord : start / 64 ≤ word) (hk : k < 64) :
    (b.kept view start word).getLsbD k =
      (decide (start ≤ word * 64 + k) && b.seen view (word * 64 + k)) := by
  have hSeen : b.seen view (word * 64 + k) = (view (b.store.getD word 0)).getLsbD k := by
    rw [seen, wordOf, wordBits_eq, show (word * 64 + k) / 64 = word by omega,
      show (word * 64 + k) % 64 = k by omega]
  rw [hSeen, kept]
  split
  · -- only in the word of `start` itself are some bits left out
    rw [BitVec.getLsbD_and, BitVec.getLsbD_shiftLeft, BitVec.getLsbD_allOnes, Bool.and_comm]
    congr 1
    by_cases hLow : start % 64 ≤ k
    · have hFrom : start ≤ word * 64 + k := by omega
      have hPlace : k - start % 64 < 64 := by omega
      simp [hk, hFrom, hPlace, hLow]
    · have hBefore : ¬ start ≤ word * 64 + k := by omega
      simp [hBefore, Nat.lt_of_not_le hLow]
  · have hFrom : start ≤ word * 64 + k := by omega
    simp [hFrom]

-- ---------------------------------------------------------------------------
-- One word after the other
-- ---------------------------------------------------------------------------

theorem scan_succ (b : Bitmap) (view : BitVec 64 → BitVec 64) (start word count : Nat) :
    b.scan view start word (count + 1) =
      match lowestBit? (b.kept view start word) with
      | some place => some (word * 64 + place)
      | none => b.scan view start (word + 1) count := rfl

/-- The index is seen and none before it is, from `start` on. -/
structure FirstSeen (b : Bitmap) (view : BitVec 64 → BitVec 64) (start i : Nat) : Prop where
  from_le : start ≤ i
  seen : b.seen view i = true
  least : ∀ j, start ≤ j → j < i → b.seen view j = false

/-- A scan finds nothing in the words in front of its own, so all that it answers concerns the
indices from `start` on. -/
theorem scan_eq_some (hWord : start / 64 ≤ word)
    (hBefore : ∀ j, start ≤ j → j < word * 64 → b.seen view j = false)
    (h : b.scan view start word count = some i) : b.FirstSeen view start i := by
  induction count generalizing word with
  | zero => exact absurd h (by simp [scan])
  | succ count ih =>
    rw [scan_succ] at h
    split at h
    · rename_i place hPlace
      obtain rfl := Option.some.inj h
      obtain ⟨hLt, hBit, hLeast⟩ := lowestBit?_eq_some hPlace
      rw [getLsbD_kept hWord hLt, Bool.and_eq_true, decide_eq_true_eq] at hBit
      refine ⟨hBit.1, hBit.2, fun j hFrom hj => ?_⟩
      by_cases hHere : word * 64 ≤ j
      · have hClear := hLeast (j - word * 64) (by omega)
        rw [getLsbD_kept hWord (by omega), show word * 64 + (j - word * 64) = j by omega] at hClear
        simpa [hFrom] using hClear
      · exact hBefore j hFrom (by omega)
    · rename_i hNone
      refine ih (by omega) (fun j hFrom hj => ?_) h
      by_cases hHere : word * 64 ≤ j
      · have hClear := lowestBit?_eq_none hNone (k := j - word * 64) (by omega)
        rw [getLsbD_kept hWord (by omega), show word * 64 + (j - word * 64) = j by omega] at hClear
        simpa [hFrom] using hClear
      · exact hBefore j hFrom (by omega)

theorem scan_eq_none (hWord : start / 64 ≤ word)
    (h : b.scan view start word count = none) (hFrom : start ≤ j) (hLow : word * 64 ≤ j)
    (hHigh : j < (word + count) * 64) : b.seen view j = false := by
  induction count generalizing word with
  | zero => omega
  | succ count ih =>
    rw [scan_succ] at h
    split at h
    · exact absurd h (by simp)
    · rename_i hNone
      by_cases hHere : j < (word + 1) * 64
      · have hClear := lowestBit?_eq_none hNone (k := j - word * 64) (by omega)
        rw [getLsbD_kept hWord (by omega), show word * 64 + (j - word * 64) = j by omega] at hClear
        simpa [hFrom] using hClear
      · exact ih (by omega) h (by omega) (by omega)

-- ---------------------------------------------------------------------------
-- The whole search
-- ---------------------------------------------------------------------------

theorem findFrom?_scan
    (h : b.scan view start (start / 64) (wordsFor b.bits - start / 64) = some i) :
    b.FirstSeen view start i :=
  scan_eq_some (Nat.le_refl _) (fun j hFrom hj => by omega) h

/-- A search finds the least index below the length that is seen. -/
theorem findFrom?_eq_some (h : b.findFrom? view start = some i) :
    i < b.bits ∧ b.FirstSeen view start i := by
  obtain ⟨hScan, hLt⟩ := Option.filter_eq_some_iff.mp h
  exact ⟨by simpa using hLt, findFrom?_scan hScan⟩

/-- A search that finds nothing misses nothing. -/
theorem findFrom?_eq_none (h : b.findFrom? view start = none) (hFrom : start ≤ j)
    (hj : j < b.bits) : b.seen view j = false := by
  have hWords : b.bits ≤ wordsFor b.bits * 64 := by
    rw [wordsFor, wordBits_eq]
    omega
  cases hScan : b.scan view start (start / 64) (wordsFor b.bits - start / 64) with
  | none => exact scan_eq_none (Nat.le_refl _) hScan hFrom (by omega) (by omega)
  | some i =>
    -- what the words show first is beyond the length already
    have hBeyond := Option.filter_eq_none_iff.mp h i hScan
    rw [decide_eq_true_eq] at hBeyond
    exact (findFrom?_scan hScan).least j hFrom (by omega)

theorem findClear?_eq_some (h : b.findClear? = some i) :
    i < b.bits ∧ b.holds i = false ∧ ∀ j < i, b.holds j = true := by
  obtain ⟨hLt, hFirst⟩ := findFrom?_eq_some h
  refine ⟨hLt, ?_, fun j hj => ?_⟩
  · simpa [seen_not] using hFirst.seen
  · simpa [seen_not] using hFirst.least j (Nat.zero_le j) hj

theorem findClear?_eq_none (h : b.findClear? = none) (hj : j < b.bits) : b.holds j = true := by
  simpa [seen_not] using findFrom?_eq_none h (Nat.zero_le j) hj

end BlockPool.Bitmap
