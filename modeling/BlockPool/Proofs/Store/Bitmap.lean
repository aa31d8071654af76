import BlockPool.Store.Bitmap
import Mathlib

/-!
# BlockPool — bitmaps as finite sets

A bitmap stands for the set of its members. What a change does to the words is read here once, as
what it does to the set; all later proofs speak of members and never of words.

* `Bitmap.Sound` — the words reach the length, hold nothing beyond it, and the count is exact.
* `Bitmap.set_eq_ok`, `Bitmap.clear_eq_ok` — when a change is accepted, and what it yields.
* `Bitmap.Sound.ext` — two bitmaps over the same number of words with the same members are equal.
-/

namespace BlockPool.Bitmap

-- ---------------------------------------------------------------------------
-- Words and masks
-- ---------------------------------------------------------------------------

theorem wordBits_eq : wordBits = 64 := rfl

/-- The mask of an index is one bit. -/
theorem getLsbD_maskOf (i k : Nat) :
    (maskOf i).getLsbD k = decide (i % 64 = k) := by
  have hLt : i % 64 < 64 := Nat.mod_lt _ (by decide)
  rw [maskOf, wordBits_eq, ← BitVec.twoPow_eq, BitVec.getLsbD_twoPow]
  simp [hLt]

/-- An index is held exactly when its bit in its word is set. -/
theorem holds_eq_getLsbD (b : Bitmap) (i : Nat) :
    b.holds i = (b.wordOf i).getLsbD (i % 64) := by
  have hLt : i % 64 < 64 := Nat.mod_lt _ (by decide)
  rw [holds, maskOf, wordBits_eq, ← BitVec.twoPow_eq, BitVec.and_twoPow]
  cases hBit : (b.wordOf i).getLsbD (i % 64) with
  | true =>
    have hNe : BitVec.twoPow 64 (i % 64) ≠ 0#64 := by
      intro hZero
      have hBit := congrArg (fun w => w.getLsbD (i % 64)) hZero
      simp [hLt] at hBit
    simp [hNe]
  | false => simp

theorem wordOf_setIfInBounds (b : Bitmap) (i j used : Nat) (word : BitVec 64)
    (hi : i / 64 < b.store.size) :
    wordOf { b with store := b.store.setIfInBounds (i / wordBits) word, used } j =
      if i / 64 = j / 64 then word else b.wordOf j := by
  rw [wordOf, wordOf, wordBits_eq, Array.getD_eq_getD_getElem?, Array.getD_eq_getD_getElem?,
    Array.getElem?_setIfInBounds]
  by_cases hEq : i / 64 = j / 64
  · simp [hEq, hEq ▸ hi]
  · simp [hEq]

-- ---------------------------------------------------------------------------
-- Members
-- ---------------------------------------------------------------------------

/-- The indices in the set. -/
def members (b : Bitmap) : Finset Nat := (Finset.range b.bits).filter fun i => b.holds i = true

@[simp] theorem mem_members {b : Bitmap} {i : Nat} :
    i ∈ b.members ↔ i < b.bits ∧ b.holds i = true := by
  simp [members]

/-- What every reachable bitmap satisfies: the words reach the length, no bit beyond it is set,
and the count of members is exact. -/
structure Sound (b : Bitmap) : Prop where
  room : b.bits ≤ b.available
  clean : ∀ i, b.bits ≤ i → b.holds i = false
  count : b.used = b.members.card

/-- An index below the length lies in one of the words. -/
theorem Sound.word_lt {b : Bitmap} (h : b.Sound) {i : Nat} (hi : i < b.bits) :
    i / 64 < b.store.size := by
  have hRoom := h.room
  rw [available, wordBits_eq] at hRoom
  omega

/-- A bitmap counts no members exactly when it has none. -/
theorem Sound.used_eq_zero_iff {b : Bitmap} (h : b.Sound) :
    b.used = 0 ↔ ∀ i < b.bits, b.holds i = false := by
  rw [h.count, Finset.card_eq_zero, Finset.eq_empty_iff_forall_notMem]
  simp

-- ---------------------------------------------------------------------------
-- The empty set
-- ---------------------------------------------------------------------------

theorem holds_withCapacity (bits capacity i : Nat) :
    (withCapacity bits capacity).holds i = false := by
  rw [holds_eq_getLsbD, wordOf, withCapacity, Array.getD_eq_getD_getElem?,
    Array.getElem?_replicate]
  split <;> simp

theorem sound_withCapacity (bits capacity : Nat) : (withCapacity bits capacity).Sound where
  room := by
    have hMax : bits ≤ max capacity bits := Nat.le_max_right ..
    simp only [withCapacity, available, wordsFor, wordBits_eq, Array.size_replicate]
    omega
  clean i _ := holds_withCapacity bits capacity i
  count := by
    have hNone : (withCapacity bits capacity).members = ∅ := by
      rw [Finset.eq_empty_iff_forall_notMem]
      intro i hi
      have := (mem_members.mp hi).2
      simp [holds_withCapacity] at this
    rw [hNone]
    rfl

-- ---------------------------------------------------------------------------
-- One index in or out
-- ---------------------------------------------------------------------------

/-- Membership after the word of an index got another content of its bit alone. -/
private theorem holds_of_words {b b' : Bitmap} {i : Nat} {value : Bool} (hi : i / 64 < b.store.size)
    {word : BitVec 64} {used : Nat}
    (hb' : b' = { b with store := b.store.setIfInBounds (i / wordBits) word, used })
    (hWord : ∀ k < 64, word.getLsbD k = if i % 64 = k then value else (b.wordOf i).getLsbD k)
    (j : Nat) : b'.holds j = if j = i then value else b.holds j := by
  have hLt : j % 64 < 64 := Nat.mod_lt _ (by decide)
  rw [holds_eq_getLsbD, holds_eq_getLsbD, hb', wordOf_setIfInBounds b i j used word hi]
  by_cases hSame : i / 64 = j / 64
  · have hWordEq : b.wordOf i = b.wordOf j := by
      rw [wordOf, wordOf, wordBits_eq, hSame]
    rw [if_pos hSame, hWord _ hLt, hWordEq]
    by_cases hji : j = i
    · simp [hji]
    · have hNe : i % 64 ≠ j % 64 := by omega
      simp [hji, hNe]
  · have hji : j ≠ i := fun h => hSame (by rw [h])
    simp [hSame, hji]

/-- Setting an index succeeds exactly for an index below the length that is not in the set. -/
theorem set_eq_ok {b b' : Bitmap} {i : Nat} (h : b.set i = .ok b') :
    i < b.bits ∧ b.holds i = false ∧
      b' = { b with
        store := b.store.setIfInBounds (i / wordBits) (b.wordOf i ||| maskOf i)
        used := b.used + 1 } := by
  rw [set] at h
  split at h
  · exact absurd h (by simp)
  · split at h
    · exact absurd h (by simp)
    · rename_i hLen hFree
      exact ⟨by omega, by simpa using hFree, (Except.ok.inj h).symm⟩

theorem exists_set {b : Bitmap} {i : Nat} (hi : i < b.bits) (hFree : b.holds i = false) :
    ∃ b', b.set i = .ok b' := by
  simp [set, hFree, Nat.not_le.mpr hi]

theorem Sound.holds_set {b b' : Bitmap} (hb : b.Sound) {i : Nat} (h : b.set i = .ok b') (j : Nat) :
    b'.holds j = if j = i then true else b.holds j := by
  obtain ⟨hi, -, hb'⟩ := set_eq_ok h
  refine holds_of_words (hb.word_lt hi) hb' (fun k hk => ?_) j
  rw [BitVec.getLsbD_or, getLsbD_maskOf i k]
  by_cases hik : i % 64 = k <;> simp [hik]

theorem Sound.members_set {b b' : Bitmap} (hb : b.Sound) {i : Nat} (h : b.set i = .ok b') :
    b'.members = insert i b.members := by
  obtain ⟨hi, -, hb'⟩ := set_eq_ok h
  have hBits : b'.bits = b.bits := by rw [hb']
  ext j
  rw [mem_members, Finset.mem_insert, mem_members, hb.holds_set h, hBits]
  by_cases hji : j = i
  · simp [hji, hi]
  · simp [hji]

theorem Sound.set {b b' : Bitmap} (hb : b.Sound) {i : Nat} (h : b.set i = .ok b') : b'.Sound := by
  obtain ⟨hi, hFree, hb'⟩ := set_eq_ok h
  have hBits : b'.bits = b.bits := by rw [hb']
  refine ⟨?_, ?_, ?_⟩
  · have hRoom := hb.room
    rw [hb']
    simpa [available] using hRoom
  · intro j hj
    rw [hb.holds_set h, if_neg (by omega)]
    exact hb.clean j (by omega)
  · have hUsed : b'.used = b.used + 1 := by rw [hb']
    rw [hb.members_set h, Finset.card_insert_of_notMem (by simp [hFree]), hUsed, hb.count]

/-- Clearing an index succeeds exactly for an index below the length that is in the set. -/
theorem clear_eq_ok {b b' : Bitmap} {i : Nat} (h : b.clear i = .ok b') :
    i < b.bits ∧ b.holds i = true ∧
      b' = { b with
        store := b.store.setIfInBounds (i / wordBits) (b.wordOf i &&& ~~~maskOf i)
        used := b.used - 1 } := by
  rw [clear] at h
  split at h
  · exact absurd h (by simp)
  · split at h
    · rename_i hLen hHeld
      exact ⟨by omega, hHeld, (Except.ok.inj h).symm⟩
    · exact absurd h (by simp)

theorem exists_clear {b : Bitmap} {i : Nat} (hi : i < b.bits) (hHeld : b.holds i = true) :
    ∃ b', b.clear i = .ok b' := by
  simp [clear, hHeld, Nat.not_le.mpr hi]

theorem Sound.holds_clear {b b' : Bitmap} (hb : b.Sound) {i : Nat} (h : b.clear i = .ok b')
    (j : Nat) : b'.holds j = if j = i then false else b.holds j := by
  obtain ⟨hi, -, hb'⟩ := clear_eq_ok h
  refine holds_of_words (hb.word_lt hi) hb' (fun k hk => ?_) j
  rw [BitVec.getLsbD_and, BitVec.getLsbD_not, getLsbD_maskOf i k]
  by_cases hik : i % 64 = k <;> simp [hik, hk]

theorem Sound.members_clear {b b' : Bitmap} (hb : b.Sound) {i : Nat} (h : b.clear i = .ok b') :
    b'.members = b.members.erase i := by
  obtain ⟨hi, -, hb'⟩ := clear_eq_ok h
  have hBits : b'.bits = b.bits := by rw [hb']
  ext j
  rw [mem_members, Finset.mem_erase, mem_members, hb.holds_clear h, hBits]
  by_cases hji : j = i <;> simp [hji]

theorem Sound.clear {b b' : Bitmap} (hb : b.Sound) {i : Nat} (h : b.clear i = .ok b') :
    b'.Sound := by
  obtain ⟨hi, hHeld, hb'⟩ := clear_eq_ok h
  have hBits : b'.bits = b.bits := by rw [hb']
  refine ⟨?_, ?_, ?_⟩
  · have hRoom := hb.room
    rw [hb']
    simpa [available] using hRoom
  · intro j hj
    rw [hb.holds_clear h, if_neg (by omega)]
    exact hb.clean j (by omega)
  · have hUsed : b'.used = b.used - 1 := by rw [hb']
    rw [hb.members_clear h, Finset.card_erase_of_mem (by simp [hi, hHeld]), hUsed, hb.count]

-- ---------------------------------------------------------------------------
-- A bitmap is determined by its members
-- ---------------------------------------------------------------------------

/-- Two sound bitmaps of one length over as many words, with the same members, are the same. -/
theorem Sound.ext {b c : Bitmap} (hb : b.Sound) (hc : c.Sound) (hBits : b.bits = c.bits)
    (hStore : b.store.size = c.store.size)
    (hHolds : ∀ i < b.bits, b.holds i = c.holds i) : b = c := by
  have hAll : ∀ i, b.holds i = c.holds i := by
    intro i
    by_cases hi : i < b.bits
    · exact hHolds i hi
    · rw [hb.clean i (by omega), hc.clean i (by omega)]
  have hWords : b.store = c.store := by
    apply Array.ext hStore
    intro w hw hw'
    apply BitVec.eq_of_getLsbD_eq
    intro k hk
    have hBit := hAll (64 * w + k)
    rw [holds_eq_getLsbD, holds_eq_getLsbD, wordOf, wordOf, wordBits_eq,
      show (64 * w + k) / 64 = w by omega, show (64 * w + k) % 64 = k by omega] at hBit
    simpa [Array.getD_eq_getD_getElem?, hw, hw'] using hBit
  have hMembers : b.members = c.members := by
    ext i
    simp [hBits, hAll i]
  have hUsed : b.used = c.used := by rw [hb.count, hc.count, hMembers]
  cases b
  cases c
  simp_all

end BlockPool.Bitmap
