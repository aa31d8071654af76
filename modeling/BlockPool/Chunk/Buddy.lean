import BlockPool.Store.Bitmap

/-!
# BlockPool — buddy trees

A `Buddy` divides a memory of `2 ^ order` equal pages by halving. Its nodes are numbered from the
root, 1, downwards: the halves of node `id` are `2 * id` and `2 * id + 1`, the nodes of one depth
stand from left to right, and the pages are the nodes at depth `order`.

For each node the tree keeps how large a run can still be taken below it: the least depth at which
a whole free node lies there, or one more than `order` if there is none.

* `Buddy.take?` — takes the leftmost free node of a depth.
* `Buddy.give` — gives a taken node back.
* `Buddy.mismatch?` — the first node whose entry is not what its halves ask for.
-/

namespace BlockPool

/-- A memory divided by halving. -/
structure Buddy where
  /-- The depth of the pages. -/
  order : Nat
  /-- For each node, the least depth of a whole free node at or below it. -/
  room : Array Nat
  /-- The nodes that are taken. -/
  taken : Bitmap

namespace Buddy

/-- The number of pages. -/
def numPages (t : Buddy) : Nat := 1 <<< t.order

/-- The entry of a node with nothing free below it. -/
def unusable (t : Buddy) : Nat := t.order + 1

/-- The depth of a node. -/
def depthOf (id : Nat) : Nat := id.log2

/-- The entry of a node. -/
def roomAt (t : Buddy) (id : Nat) : Nat := t.room.getD id 0

/-- The tree in which every page is free: each node is a whole free node of its own depth. -/
def fresh (order : Nat) : Buddy where
  order := order
  room := Array.ofFn fun id : Fin (1 <<< (order + 1)) => depthOf id
  taken := Bitmap.empty (1 <<< (order + 1))

instance : Inhabited Buddy := ⟨fresh 0⟩

/-- The number of entries, the unused one in front of the root included. -/
def numNodes (t : Buddy) : Nat := t.room.size

/-- Whether a node is taken. -/
def isTaken (t : Buddy) (id : Nat) : Bool :=
  match t.taken.get id with
  | .ok taken => taken
  | .error _ => false

/-- Changes the entry of a node. -/
def setRoom (t : Buddy) (id value : Nat) : Buddy :=
  { t with room := t.room.setIfInBounds id value }

/-- The other half of the node above. -/
def sibling (id : Nat) : Nat := if id % 2 = 0 then id + 1 else id - 1

-- ---------------------------------------------------------------------------
-- Taking a node
-- ---------------------------------------------------------------------------

/-- Goes down from a node to a whole free node of the given depth, to the left wherever there is
one, in at most so many steps. -/
def descend (t : Buddy) (depth : Nat) : Nat → Nat → Option Nat
  | 0, id => if t.roomAt id < depth ∨ id < 1 <<< depth then none else some id
  | steps + 1, id =>
    if t.roomAt id < depth ∨ id < 1 <<< depth then
      let left := 2 * id
      descend t depth steps (if t.roomAt left > depth then left + 1 else left)
    else some id

/-- Puts the entries above a node right after the node was taken: the larger run of the two
halves. -/
def settleTaken (t : Buddy) : Nat → Nat → Buddy
  | 0, _ => t
  | levels + 1, id =>
    let larger := min (t.roomAt id) (t.roomAt (sibling id))
    settleTaken (t.setRoom (id / 2) larger) levels (id / 2)

/-- Takes the leftmost free node of a depth. -/
def take? (t : Buddy) (depth : Nat) : Option (Nat × Buddy) :=
  if t.roomAt 1 > depth then none
  else
    match t.descend depth t.order 1 with
    | none => none
    | some id =>
      match t.taken.set id with
      | .error _ => none
      | .ok taken =>
        let t := { t with taken }.setRoom id t.unusable
        some (id, t.settleTaken (depthOf id) id)

-- ---------------------------------------------------------------------------
-- Giving a node back
-- ---------------------------------------------------------------------------

/-- Puts the entries above a node right after the node became free: two whole halves make a whole
node, and otherwise the larger run of the two counts. -/
def settleFreed (t : Buddy) : Nat → Nat → Buddy
  | 0, _ => t
  | levels + 1, id =>
    -- `id` lies at depth `levels + 1`, so its halves' parent lies at depth `levels`
    let own := t.roomAt id
    let other := t.roomAt (sibling id)
    let joined := if own = levels + 1 ∧ other = levels + 1 then levels else min own other
    settleFreed (t.setRoom (id / 2) joined) levels (id / 2)

/-- Gives a taken node back. -/
def give (t : Buddy) (id : Nat) : Except BitmapError Buddy :=
  match t.taken.clear id with
  | .error e => .error e
  | .ok taken =>
    let t := { t with taken }.setRoom id (depthOf id)
    .ok (t.settleFreed (depthOf id) id)

-- ---------------------------------------------------------------------------
-- Checking
-- ---------------------------------------------------------------------------

/-- The entry that a node must have. A taken node has nothing free; a free page is whole; above
the pages, two whole halves make a whole node, and otherwise the larger run of the two counts. -/
def expectedRoom (t : Buddy) (id : Nat) : Nat :=
  if t.isTaken id then t.unusable
  else if id ≥ t.numPages then depthOf id
  else
    let left := 2 * id
    let right := left + 1
    if t.roomAt left = depthOf left ∧ t.roomAt right = depthOf right then depthOf id
    else min (t.roomAt left) (t.roomAt right)

/-- The first node with another entry than it must have. -/
def mismatch? (t : Buddy) : Option Nat :=
  ((List.range t.numNodes).drop 1).find? fun id => t.roomAt id != t.expectedRoom id

/-- The nodes that are taken. -/
def takenNodes (t : Buddy) : List Nat :=
  (List.range t.numNodes).filter t.isTaken

end Buddy

end BlockPool
