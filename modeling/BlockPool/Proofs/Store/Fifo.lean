import BlockPool.Proofs.Store.Ring

/-!
# BlockPool — rings against queues

A ring answers as a queue of at most so many elements does, whatever it is asked and however often
its cells were gone round. The indices stay among the cells, and a cell that is read for an element
has one.

* `Fifo.serve` — a bounded queue: the list of its elements, oldest first.
* `Ring.Refines` — a ring and a queue agree on every question.
* `Ring.run_fifo` — they do after all requests to a new ring, and gave the same answers.
-/

namespace BlockPool

namespace Ring

variable {α : Type}

-- ---------------------------------------------------------------------------
-- Requests
-- ---------------------------------------------------------------------------

/-- What can be asked of a ring. -/
inductive Op (α : Type) where
  | push (a : α)
  | pop
  | peek
  | drain
  /-- A drain that is stopped after so many elements. -/
  | drainSome (count : Nat)
deriving DecidableEq

/-- The answer to a request. -/
inductive Answer (α : Type) where
  | pushed
  /-- There was no room, and the element comes back. -/
  | full (a : α)
  | element (a? : Option α)
  | elements (as : List α)
deriving DecidableEq

/-- The answer to a request, and the ring after it. A refused element leaves the ring as it is. -/
def serve (r : Ring α) : Op α → Answer α × Ring α
  | .push a =>
    match r.push a with
    | .ok after => (.pushed, after)
    | .error back => (.full back, r)
  | .pop => (.element r.pop.1, r.pop.2)
  | .peek => (.element r.peek?, r)
  | .drain => (.elements r.drain.1, r.drain.2)
  | .drainSome count => (.elements (r.take count).1, (r.take count).2)

/-- The answers to one request after the other, and the ring after them. -/
def run (r : Ring α) : List (Op α) → List (Answer α) × Ring α
  | [] => ([], r)
  | op :: rest =>
    let after := (r.serve op).2
    ((r.serve op).1 :: (run after rest).1, (run after rest).2)

end Ring

namespace Fifo

variable {α : Type}

/-- The answer of a queue with room for `capacity` elements, and the queue after it. -/
def serve (capacity : Nat) (queue : List α) : Ring.Op α → Ring.Answer α × List α
  | .push a => if queue.length = capacity then (.full a, queue) else (.pushed, queue ++ [a])
  | .pop => (.element queue.head?, queue.tail)
  | .peek => (.element queue.head?, queue)
  | .drain => (.elements queue, [])
  | .drainSome count => (.elements (queue.take count), queue.drop count)

/-- The answers to one request after the other, and the queue after them. -/
def run (capacity : Nat) (queue : List α) : List (Ring.Op α) → List (Ring.Answer α) × List α
  | [] => ([], queue)
  | op :: rest =>
    let after := (serve capacity queue op).2
    ((serve capacity queue op).1 :: (run capacity after rest).1, (run capacity after rest).2)

end Fifo

namespace Ring

variable {α : Type} {r : Ring α} {xs : List α} {capacity : Nat}

-- ---------------------------------------------------------------------------
-- One request
-- ---------------------------------------------------------------------------

theorem Holds.push_of_full (h : r.Holds xs) (hFull : xs.length = r.capacity) (a : α) :
    r.push a = .error a := by
  rw [Ring.push, if_pos (h.isFull_iff.mpr hFull)]

theorem Holds.peek?_eq (h : r.Holds xs) : r.peek? = xs.head? := by
  cases xs with
  | nil => rw [peek?, if_pos (by simp [isEmpty, h.length]), List.head?_nil]
  | cons x xs =>
    have hPos : 0 < r.capacity := lt_of_lt_of_le (Nat.succ_pos _) h.fits
    rw [peek?, if_neg (by simp [isEmpty, h.length]), ← h.cellAt_zero hPos, h.cell 0 x rfl]
    rfl

/-- A ring answers as the queue that it stands for, and stands for what becomes of it. -/
theorem Holds.serve (h : r.Holds xs) (op : Op α) :
    (r.serve op).1 = (Fifo.serve r.capacity xs op).1 ∧
      (r.serve op).2.Holds (Fifo.serve r.capacity xs op).2 ∧
      (r.serve op).2.capacity = r.capacity := by
  cases op with
  | push a =>
    rw [Ring.serve, Fifo.serve]
    by_cases hFull : xs.length = r.capacity
    · rw [h.push_of_full hFull, if_pos hFull]
      exact ⟨rfl, h, rfl⟩
    · obtain ⟨after, hPush, hHolds, hSame⟩ := h.push (lt_of_le_of_ne h.fits hFull) a
      rw [hPush, if_neg hFull]
      exact ⟨rfl, hHolds, hSame⟩
  | pop =>
    cases xs with
    | nil =>
      rw [Ring.serve, h.pop_nil]
      exact ⟨rfl, h, rfl⟩
    | cons x xs =>
      obtain ⟨after, hPop, hHolds, hSame⟩ := h.pop_cons
      rw [Ring.serve, hPop]
      exact ⟨rfl, hHolds, hSame⟩
  | peek => exact ⟨congrArg Answer.element h.peek?_eq, h, rfl⟩
  | drain =>
    obtain ⟨hTaken, hLeft⟩ := h.drain
    exact ⟨congrArg Answer.elements hTaken, hLeft, (h.take r.length).2.2⟩
  | drainSome count =>
    obtain ⟨hTaken, hLeft, hSame⟩ := h.take count
    exact ⟨congrArg Answer.elements hTaken, hLeft, hSame⟩

theorem Holds.run (h : r.Holds xs) (hCapacity : r.capacity = capacity) (ops : List (Op α)) :
    (r.run ops).1 = (Fifo.run capacity xs ops).1 ∧
      (r.run ops).2.Holds (Fifo.run capacity xs ops).2 ∧
      (r.run ops).2.capacity = capacity := by
  induction ops generalizing r xs with
  | nil => exact ⟨rfl, h, hCapacity⟩
  | cons op rest ih =>
    subst hCapacity
    obtain ⟨hAnswer, hHolds, hSame⟩ := h.serve op
    obtain ⟨hAnswers, hLast, hCapacity⟩ := ih hHolds hSame
    exact ⟨congrArg₂ List.cons hAnswer hAnswers, hLast, hCapacity⟩

-- ---------------------------------------------------------------------------
-- All questions
-- ---------------------------------------------------------------------------

/-- What the indices are used for makes sense: where an element goes in or comes out, there are
cells to go round, the index is one of them, and what is read as an element is one. -/
structure Proper (r : Ring α) : Prop where
  head : r.isFull = false → 0 < r.capacity ∧ r.head < r.cells.size
  tail : r.isEmpty = false → 0 < r.capacity ∧ ∃ a, r.cells[r.tail]? = some (some a)

theorem Holds.proper (h : r.Holds xs) : r.Proper where
  head hRoom := by
    have hNotFull : xs.length ≠ r.capacity := fun hFull => by
      rw [h.isFull_iff.mpr hFull] at hRoom
      exact absurd hRoom (by simp)
    have hPos : 0 < r.capacity := by
      have hFits := h.fits
      omega
    exact ⟨hPos, h.head ▸ cellAt_lt hPos _⟩
  tail hSome := by
    cases xs with
    | nil => simp [isEmpty, h.length] at hSome
    | cons x xs =>
      have hPos : 0 < r.capacity := lt_of_lt_of_le (Nat.succ_pos _) h.fits
      exact ⟨hPos, x, h.cellAt_zero hPos ▸ h.cell 0 x rfl⟩

theorem take_succ {x : α} {after : Ring α} (hPop : r.pop = (some x, after)) (count : Nat) :
    r.take (count + 1) = (x :: (after.take count).1, (after.take count).2) := by
  rw [Ring.take, hPop]

/-- A drain that is not stopped ends when nothing is left, however long one waits. -/
theorem Holds.take_of_length_le (h : r.Holds xs) {count : Nat} (hLe : xs.length ≤ count) :
    r.take count = r.drain := by
  rw [Ring.drain, h.length]
  induction count generalizing r xs with
  | zero => rw [Nat.le_zero.mp hLe]
  | succ count ih =>
    cases xs with
    | nil =>
      rw [Ring.take, h.pop_nil]
      rfl
    | cons x xs =>
      obtain ⟨after, hPop, hRest, -⟩ := h.pop_cons
      rw [List.length_cons, take_succ hPop, take_succ hPop, ih hRest (Nat.le_of_succ_le_succ hLe)]

/-- A ring of so many cells and a queue agree on every question. -/
structure Refines (r : Ring α) (capacity : Nat) (queue : List α) : Prop where
  toList_eq : r.toList = queue
  capacity_eq : r.capacity = capacity
  length_eq : r.length = queue.length
  length_le : queue.length ≤ capacity
  isEmpty_iff : r.isEmpty = true ↔ queue = []
  isFull_iff : r.isFull = true ↔ queue.length = capacity
  /-- The ring answers as the queue does, and its elements are then those of the queue. -/
  serve_eq : ∀ op, (r.serve op).1 = (Fifo.serve capacity queue op).1 ∧
    (r.serve op).2.toList = (Fifo.serve capacity queue op).2
  /-- An element is refused exactly when there is no room, and nothing changes then. -/
  push_error_iff : ∀ a b, r.push a = .error b ↔ queue.length = capacity ∧ b = a
  serve_of_full : ∀ a, queue.length = capacity → r.serve (.push a) = (.full a, r)
  drain_eq : ∀ count, queue.length ≤ count → r.take count = r.drain
  /-- The indices are in order, and stay so while elements are taken one by one. -/
  proper : ∀ count, (r.take count).2.Proper

/-- A ring that holds a list answers as a queue of its capacity would that holds the list. -/
theorem Holds.refines (h : r.Holds xs) : r.Refines r.capacity xs where
  toList_eq := h.toList_eq
  capacity_eq := rfl
  length_eq := h.length
  length_le := h.fits
  isEmpty_iff := by rw [isEmpty, h.length, beq_iff_eq, List.length_eq_zero_iff]
  isFull_iff := h.isFull_iff
  serve_eq op := ⟨(h.serve op).1, (h.serve op).2.1.toList_eq⟩
  push_error_iff a b := by
    constructor
    · intro hRefused
      have hFull : xs.length = r.capacity := by
        -- where there is room a push is not refused
        by_contra hRoom
        obtain ⟨after, hPush, -⟩ := h.push (lt_of_le_of_ne h.fits hRoom) a
        rw [hPush] at hRefused
        exact absurd hRefused (by simp)
      rw [h.push_of_full hFull] at hRefused
      exact ⟨hFull, (Except.error.inj hRefused).symm⟩
    · rintro ⟨hFull, rfl⟩
      exact h.push_of_full hFull b
  serve_of_full a hFull := by rw [Ring.serve, h.push_of_full hFull]
  drain_eq count hLe := h.take_of_length_le hLe
  proper count := (h.take count).2.1.proper

/-- Whatever a new ring is asked, it answers as a queue with as much room that is asked the same,
and stands for it afterwards. -/
theorem run_fifo (capacity : Nat) (ops : List (Op α)) :
    ((empty capacity).run ops).1 = (Fifo.run capacity [] ops).1 ∧
      ((empty capacity).run ops).2.Refines capacity (Fifo.run capacity [] ops).2 := by
  have hCapacity : (empty capacity : Ring α).capacity = capacity := Array.size_replicate
  obtain ⟨hAnswers, hHolds, hSame⟩ := (holds_empty capacity).run hCapacity ops
  have hRefines := hHolds.refines
  rw [hSame] at hRefines
  exact ⟨hAnswers, hRefines⟩

/-- Two cells are gone round twice; a ring without cells refuses everything. -/
example :
    ((empty 2).run [.push 1, .push 2, .push 3, .pop, .push 4, .drainSome 1, .push 5, .drain]).1 =
        [.pushed, .pushed, .full 3, .element (some 1), .pushed, .elements [2], .pushed,
          .elements [4, 5]] ∧
      ((empty 0).run [.push 1, .pop, .peek, .drain]).1 =
        [.full 1, .element none, .element none, .elements []] := by
  decide

end Ring

end BlockPool
