import BlockPool.Store.Ring
import Mathlib

/-!
# BlockPool — what a ring holds

A ring stands for the list of its elements, oldest first: the cells from the tail on, round the
end. Pushing appends to the list, popping takes its first element off.

* `Ring.Holds` — the ring stands for a list.
* `Ring.Holds.pop_cons`, `Ring.Holds.take` — what comes out, and what is left.
-/

namespace BlockPool.Ring

variable {α : Type} {r r' : Ring α} {xs : List α} {x : α}

/-- The cell so many places after the tail. -/
def cellAt (r : Ring α) (i : Nat) : Nat := (r.tail + i) % r.capacity

/-- The elements, oldest first. -/
def toList (r : Ring α) : List α :=
  (List.range r.length).filterMap fun i => (r.cells[r.cellAt i]?).join

/-- The ring stands for the list. -/
structure Holds (r : Ring α) (xs : List α) : Prop where
  length : r.length = xs.length
  fits : xs.length ≤ r.capacity
  tail : r.capacity = 0 ∨ r.tail < r.capacity
  head : r.head = r.cellAt xs.length
  cell : ∀ i x, xs[i]? = some x → r.cells[r.cellAt i]? = some (some x)

theorem filterMap_range (xs : List α) :
    ((List.range xs.length).filterMap fun i => xs[i]?) = xs := by
  induction xs with
  | nil => rfl
  | cons x xs ih =>
    rw [List.length_cons, List.range_succ_eq_map, List.filterMap_cons, List.filterMap_map]
    exact congrArg (x :: ·) ih

theorem Holds.toList_eq (h : r.Holds xs) : r.toList = xs := by
  have hCell : ∀ i ∈ List.range r.length, (r.cells[r.cellAt i]?).join = xs[i]? := by
    intro i hi
    rw [h.length, List.mem_range] at hi
    rw [h.cell i xs[i] (List.getElem?_eq_getElem hi), List.getElem?_eq_getElem hi]
    rfl
  rw [toList, List.filterMap_congr hCell, h.length, filterMap_range]

theorem holds_empty (capacity : Nat) : (empty capacity : Ring α).Holds [] where
  length := rfl
  fits := Nat.zero_le _
  tail := by
    rw [Ring.capacity, empty, Array.size_replicate]
    exact (Nat.eq_zero_or_pos capacity)
  head := by simp [cellAt, empty]
  cell i x hx := by simp at hx

-- ---------------------------------------------------------------------------
-- Places in the ring
-- ---------------------------------------------------------------------------

theorem cellAt_ne {i j : Nat} (hij : i < j) (hj : j < r.capacity) : r.cellAt i ≠ r.cellAt j := by
  intro hEq
  have hMod : i ≡ j [MOD r.capacity] := Nat.ModEq.add_left_cancel' r.tail hEq
  have hSame := hMod.eq_of_lt_of_lt (hij.trans hj) hj
  omega

theorem after_cellAt (r : Ring α) (i : Nat) : r.after (r.cellAt i) = r.cellAt (i + 1) := by
  rw [after, cellAt, cellAt, Nat.mod_add_mod, Nat.add_assoc]

theorem cellAt_lt (hPos : 0 < r.capacity) (i : Nat) : r.cellAt i < r.cells.size :=
  Nat.mod_lt _ hPos

theorem Holds.cellAt_zero (h : r.Holds xs) (hPos : 0 < r.capacity) : r.cellAt 0 = r.tail := by
  rw [cellAt, Nat.add_zero, Nat.mod_eq_of_lt]
  rcases h.tail with hZero | hLt
  · omega
  · exact hLt

-- ---------------------------------------------------------------------------
-- In
-- ---------------------------------------------------------------------------

theorem Holds.isFull_iff (h : r.Holds xs) : r.isFull = true ↔ xs.length = r.capacity := by
  rw [isFull, h.length, beq_iff_eq]

/-- A ring with room takes the element in behind the others. -/
theorem Holds.push (h : r.Holds xs) (hRoom : xs.length < r.capacity) (x : α) :
    ∃ r', r.push x = .ok r' ∧ r'.Holds (xs ++ [x]) ∧ r'.capacity = r.capacity := by
  have hNotFull : ¬ r.isFull = true := by
    rw [h.isFull_iff]
    omega
  have hSize : (r.cells.setIfInBounds r.head (some x)).size = r.cells.size :=
    Array.size_setIfInBounds
  refine ⟨_, if_neg hNotFull, ⟨?_, ?_, ?_, ?_, ?_⟩, hSize⟩
  · rw [List.length_append, h.length, List.length_singleton]
  · rw [Ring.capacity, hSize, List.length_append, List.length_singleton]
    exact hRoom
  · rw [Ring.capacity, hSize]
    exact h.tail
  · rw [cellAt, Ring.capacity, hSize, List.length_append, List.length_singleton]
    exact (congrArg r.after h.head).trans (r.after_cellAt xs.length)
  · intro i y hy
    have hLt : i < xs.length + 1 := by
      have := (List.getElem?_eq_some_iff.mp hy).1
      rwa [List.length_append, List.length_singleton] at this
    rw [cellAt, Ring.capacity, hSize, Array.getElem?_setIfInBounds]
    change (if r.head = r.cellAt i then _ else r.cells[r.cellAt i]?) = _
    by_cases hLast : i = xs.length
    · subst hLast
      rw [if_pos h.head, if_pos (h.head ▸ cellAt_lt (by omega) _)]
      rw [List.getElem?_append_right (Nat.le_refl _), Nat.sub_self] at hy
      obtain rfl : x = y := by simpa using hy
      rfl
    · rw [if_neg (by rw [h.head]; exact (cellAt_ne (by omega) hRoom).symm)]
      exact h.cell i y (by rwa [List.getElem?_append_left (by omega)] at hy)

theorem Holds.of_push (h : r.Holds xs) (hPush : r.push x = .ok r') :
    xs.length < r.capacity ∧ r'.Holds (xs ++ [x]) ∧ r'.capacity = r.capacity := by
  have hRoom : xs.length < r.capacity := by
    by_contra hFull
    have hEq : xs.length = r.capacity := Nat.le_antisymm h.fits (Nat.le_of_not_lt hFull)
    rw [Ring.push, if_pos (h.isFull_iff.mpr hEq)] at hPush
    exact absurd hPush (by simp)
  obtain ⟨r₁, hEq, hHolds⟩ := h.push hRoom x
  obtain rfl := Except.ok.inj (hPush.symm.trans hEq)
  exact ⟨hRoom, hHolds⟩

-- ---------------------------------------------------------------------------
-- Out
-- ---------------------------------------------------------------------------

theorem Holds.pop_nil (h : r.Holds []) : r.pop = (none, r) := by
  rw [pop, if_pos (by simp [isEmpty, h.length])]

/-- The oldest element comes out. -/
theorem Holds.pop_cons (h : r.Holds (x :: xs)) :
    ∃ r', r.pop = (some x, r') ∧ r'.Holds xs ∧ r'.capacity = r.capacity := by
  have hPos : 0 < r.capacity := lt_of_lt_of_le (Nat.succ_pos _) h.fits
  have hFirst : r.cells[r.tail]? = some (some x) := by
    rw [← h.cellAt_zero hPos]
    exact h.cell 0 x rfl
  have hSize : (r.cells.setIfInBounds r.tail none).size = r.cells.size :=
    Array.size_setIfInBounds
  have hFits := h.fits
  rw [List.length_cons] at hFits
  -- from the second cell on they are where they were, counted from the next one
  have hNext : ∀ i, (r.after r.tail + i) % r.capacity = r.cellAt (i + 1) := by
    intro i
    rw [after, Nat.mod_add_mod, cellAt, Nat.add_assoc, Nat.add_comm 1 i]
  refine ⟨⟨r.cells.setIfInBounds r.tail none, r.head, r.after r.tail, r.length - 1⟩, ?_,
    ⟨?_, ?_, ?_, ?_, ?_⟩, hSize⟩
  · rw [pop, if_neg (by simp [isEmpty, h.length]), hFirst]
    rfl
  · rw [h.length, List.length_cons, Nat.add_sub_cancel]
  · rw [Ring.capacity, hSize]
    exact (Nat.le_succ _).trans hFits
  · rw [Ring.capacity, hSize]
    exact .inr (Nat.mod_lt _ hPos)
  · rw [cellAt, Ring.capacity, hSize]
    exact h.head.trans (hNext xs.length).symm
  · intro i y hy
    have hLt := (List.getElem?_eq_some_iff.mp hy).1
    rw [cellAt, Ring.capacity, hSize, Array.getElem?_setIfInBounds]
    change (if r.tail = (r.after r.tail + i) % r.capacity then _ else
      r.cells[(r.after r.tail + i) % r.capacity]?) = _
    rw [hNext, if_neg, h.cell (i + 1) y hy]
    rw [← h.cellAt_zero hPos]
    -- the cell that is emptied is the first, and no other is
    exact cellAt_ne (Nat.succ_pos i) (by omega)

/-- The oldest elements come out, up to a number of them. -/
theorem Holds.take (h : r.Holds xs) (count : Nat) :
    (r.take count).1 = xs.take count ∧ (r.take count).2.Holds (xs.drop count) ∧
      (r.take count).2.capacity = r.capacity := by
  induction count generalizing r xs with
  | zero => exact ⟨rfl, h, rfl⟩
  | succ count ih =>
    cases xs with
    | nil =>
      rw [Ring.take, h.pop_nil]
      exact ⟨rfl, h, rfl⟩
    | cons x xs =>
      obtain ⟨r', hPop, hRest, hCapacity⟩ := h.pop_cons
      obtain ⟨hTaken, hLeft, hSame⟩ := ih hRest
      rw [Ring.take, hPop]
      exact ⟨congrArg (x :: ·) hTaken, hLeft, hSame.trans hCapacity⟩

theorem Holds.drain (h : r.Holds xs) : r.drain.1 = xs ∧ r.drain.2.Holds [] := by
  obtain ⟨hTaken, hLeft, -⟩ := h.take r.length
  rw [h.length, List.take_length] at hTaken
  rw [h.length, List.drop_length] at hLeft
  rw [Ring.drain, h.length]
  exact ⟨hTaken, hLeft⟩

end BlockPool.Ring
