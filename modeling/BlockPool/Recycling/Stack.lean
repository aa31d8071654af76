import BlockPool.Config.Recycling
import BlockPool.Recycling.Item

/-!
# BlockPool — stacks of recycled items

A `Stack` holds the items that came back to one thread, the last one on top. It grows by doubling
up to a fixed bound. Of the items that come back for the first time a filter lets one in so many
through; an item that was let through once always is.

* `Stack.push` — an item given back by the thread itself; the stack grows when it is full.
* `Stack.receive` — an item that came from another thread; room was made before, by `Stack.grow`.
-/

namespace BlockPool.Recycling

/-- The items that came back to one thread, the last one first. -/
structure Stack where
  entries : List Pooled
  /-- How far the stack has grown. -/
  capacity : Nat
  maxCapacity : Nat
  /-- Of so many items that come back for the first time, one is kept. -/
  ratio : Nat
  /-- The items that came back for the first time, less one, counted in a word. -/
  offers : UInt64
deriving Inhabited

namespace Stack

/-- The empty stack. The count of offers wraps to zero at the first one, which is so kept. -/
def empty (c : RecyclerConfig) : Stack where
  entries := []
  capacity := c.initialCapacity
  maxCapacity := c.maxCapacityPerThread
  ratio := c.ratio
  offers := UInt64.ofNat Word.maxValue

/-- The number of items. -/
def size (s : Stack) : Nat := s.entries.length

/-- Whether there is no item. -/
def isEmpty (s : Stack) : Bool := s.entries.isEmpty

/-- Whether the filter lets an item through. An item that comes back for the first time is
counted, and of `ratio` such items the first is let through. -/
def filter (s : Stack) (tokens : Tokens) (p : Pooled) : Bool × Stack × Tokens :=
  if tokens.keptBefore p.token then (true, s, tokens)
  else
    let s := { s with offers := s.offers + 1 }
    if s.offers.toNat % s.ratio = 0 then (true, s, tokens.markKept p.token)
    else (false, s, tokens)

/-- Takes in an item that the stack's own thread gives back, unless the stack is at its bound or
the filter turns the item away. -/
def push (s : Stack) (tokens : Tokens) (p : Pooled) : Bool × Stack × Tokens :=
  if s.size ≥ s.maxCapacity then (false, s, tokens)
  else
    match s.filter tokens p with
    | (false, s, tokens) => (false, s, tokens)
    | (true, s, tokens) =>
      let capacity := if s.size = s.capacity then min (2 * s.size) s.maxCapacity else s.capacity
      (true, { s with capacity, entries := p :: s.entries }, tokens)

/-- Takes in an item that another thread gave back, unless the stack is full or the filter turns
the item away. -/
def receive (s : Stack) (tokens : Tokens) (p : Pooled) : Bool × Stack × Tokens :=
  if s.size ≥ s.capacity then (false, s, tokens)
  else
    match s.filter tokens p with
    | (false, s, tokens) => (false, s, tokens)
    | (true, s, tokens) => (true, { s with entries := p :: s.entries }, tokens)

/-- Takes in items in turn, and names those that were turned away. -/
def receiveAll (s : Stack) (tokens : Tokens) : List Pooled → List Pooled × Stack × Tokens
  | [] => ([], s, tokens)
  | p :: rest =>
    let (kept, s, tokens) := s.receive tokens p
    let (refused, s, tokens) := receiveAll s tokens rest
    (if kept then refused else p :: refused, s, tokens)

/-- Takes the item that came last. -/
def pop? (s : Stack) : Option (Pooled × Stack) :=
  match s.entries with
  | [] => none
  | p :: entries => some (p, { s with entries })

-- ---------------------------------------------------------------------------
-- Growing
-- ---------------------------------------------------------------------------

/-- Doubles a capacity once, and again until it reaches a goal, in at most so many steps. -/
def doubled (goal : Nat) : Nat → Nat → Nat
  | 0, capacity => capacity
  | steps + 1, capacity =>
    if 2 * capacity ≥ goal then 2 * capacity else doubled goal steps (2 * capacity)

/-- Doubles the capacity until so many items have room, or up to the bound. -/
def grow (s : Stack) (need : Nat) : Stack :=
  let goal := min need s.maxCapacity
  { s with capacity := min (doubled goal (goal + 1) (max s.capacity 1)) s.maxCapacity }

end Stack

end BlockPool.Recycling
