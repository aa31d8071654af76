/-!
# BlockPool — bounded queues

A `Ring` is a first-in first-out queue of at most so many elements, in an array that is used
round and round. A ring of capacity zero refuses every element.
-/

namespace BlockPool

/-- A queue in an array of cells, the first to be read at `tail`, the next to be written at
`head`. -/
structure Ring (α : Type) where
  cells : Array (Option α)
  head : Nat
  tail : Nat
  length : Nat

namespace Ring

variable {α : Type}

/-- The empty queue with room for `capacity` elements. -/
def empty (capacity : Nat) : Ring α where
  cells := Array.replicate capacity none
  head := 0
  tail := 0
  length := 0

instance : Inhabited (Ring α) := ⟨empty 0⟩

/-- The most elements the queue can hold. -/
def capacity (r : Ring α) : Nat := r.cells.size

/-- Whether the queue holds nothing. -/
def isEmpty (r : Ring α) : Bool := r.length == 0

/-- Whether the queue has no room left. -/
def isFull (r : Ring α) : Bool := r.length == r.capacity

/-- The cell after this one, round the end. -/
def after (r : Ring α) (cell : Nat) : Nat := (cell + 1) % r.capacity

/-- Appends an element; a full queue hands it back. -/
def push (r : Ring α) (a : α) : Except α (Ring α) :=
  if r.isFull then .error a
  else .ok
    { cells := r.cells.setIfInBounds r.head (some a)
      head := r.after r.head
      tail := r.tail
      length := r.length + 1 }

/-- The oldest element, left where it is. -/
def peek? (r : Ring α) : Option α :=
  if r.isEmpty then none else (r.cells[r.tail]?).join

/-- Takes the oldest element. -/
def pop (r : Ring α) : Option α × Ring α :=
  if r.isEmpty then (none, r)
  else
    ((r.cells[r.tail]?).join,
      { cells := r.cells.setIfInBounds r.tail none
        head := r.head
        tail := r.after r.tail
        length := r.length - 1 })

/-- Takes up to `count` elements, oldest first, and stops early when there is none left. -/
def take (r : Ring α) : Nat → List α × Ring α
  | 0 => ([], r)
  | count + 1 =>
    match r.pop with
    | (none, rest) => ([], rest)
    | (some a, rest) =>
      let (taken, last) := take rest count
      (a :: taken, last)

/-- Takes every element, oldest first. -/
def drain (r : Ring α) : List α × Ring α := r.take r.length

end Ring

end BlockPool
