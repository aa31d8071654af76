import BlockPool.Store.Slab

/-!
# BlockPool — chains

A `Chain` is a doubly linked list of slots of a slab. It holds the two ends and the length; the
links are kept with the values, so one value is in one chain at most, and a value moves from one
chain to another without moving in the slab.

* `Chain.pushFront`, `Chain.pushBack` — refuse a slot without a value and one that is linked.
* `Chain.unlink`, `Chain.popFront` — take a slot out; the first needs a slot of this chain.
* `Chain.walk` — the slots from the front on.
-/

namespace BlockPool

/-- The place of a value in its chain. -/
structure Link where
  next : Option Nat := none
  prev : Option Nat := none
  linked : Bool := false
deriving DecidableEq, Repr, Inhabited

/-- A value that can be linked into a chain. -/
structure Node (α : Type) where
  value : α
  link : Link := {}

/-- The storage that chains run through. -/
abbrev Nodes (α : Type) := Slab (Node α)

namespace Nodes

variable {α : Type}

/-- The link of the value in a slot. -/
def link? (nodes : Nodes α) (index : Nat) : Option Link :=
  (nodes.at? index).map (·.link)

/-- Changes the link of the value in a slot. -/
def modifyLink (nodes : Nodes α) (index : Nat) (f : Link → Link) : Nodes α :=
  nodes.modifyAt index fun node => { node with link := f node.link }

/-- The value in a slot. -/
def value? (nodes : Nodes α) (index : Nat) : Option α :=
  (nodes.at? index).map (·.value)

/-- Puts another value in place of the one in a slot and leaves its link. -/
def putValue (nodes : Nodes α) (index : Nat) (value : α) : Nodes α :=
  nodes.modifyAt index fun node => { node with value }

/-- Stores a value that is in no chain. -/
def insertValue (nodes : Nodes α) (value : α) : Slab.Key × Nodes α :=
  nodes.insert { value }

/-- Whether an optional slot has a value. -/
def holds (nodes : Nodes α) (index : Option Nat) : Bool :=
  match index with
  | some i => (nodes.at? i).isSome
  | none => false

end Nodes

/-- A doubly linked list of slots. -/
structure Chain where
  head : Option Nat := none
  tail : Option Nat := none
  length : Nat := 0
deriving DecidableEq, Repr, Inhabited

namespace Chain

variable {α : Type}

/-- The chain of no slots. -/
def empty : Chain := {}

/-- Whether the chain has no slots. -/
def isEmpty (c : Chain) : Bool := c.length == 0

/-- Links a slot in front of the others, unless it has no value or is linked already. -/
def pushFront (c : Chain) (nodes : Nodes α) (index : Nat) : Option (Chain × Nodes α) :=
  match nodes.link? index with
  | none => none
  | some link =>
    if link.linked then none
    else
      let nodes := nodes.modifyLink index fun _ =>
        { next := c.head, prev := none, linked := true }
      match c.head with
      | some old =>
        if nodes.holds (some old) then
          some ({ head := some index, tail := c.tail, length := c.length + 1 },
            nodes.modifyLink old fun link => { link with prev := some index })
        else some ({ head := some index, tail := some index, length := c.length + 1 }, nodes)
      | none => some ({ head := some index, tail := some index, length := c.length + 1 }, nodes)

/-- Links a slot behind the others, unless it has no value or is linked already. -/
def pushBack (c : Chain) (nodes : Nodes α) (index : Nat) : Option (Chain × Nodes α) :=
  match nodes.link? index with
  | none => none
  | some link =>
    if link.linked then none
    else
      let nodes := nodes.modifyLink index fun _ =>
        { next := none, prev := c.tail, linked := true }
      match c.tail with
      | some old =>
        if nodes.holds (some old) then
          some ({ head := c.head, tail := some index, length := c.length + 1 },
            nodes.modifyLink old fun link => { link with next := some index })
        else some ({ head := some index, tail := some index, length := c.length + 1 }, nodes)
      | none => some ({ head := some index, tail := some index, length := c.length + 1 }, nodes)

/-- Makes `next` follow `prev` in the nodes, where there is a `prev`, and else at the head. -/
def joinForward (c : Chain) (nodes : Nodes α) (prev next : Option Nat) : Chain × Nodes α :=
  match prev with
  | some p =>
    if nodes.holds prev then
      (c, nodes.modifyLink p fun link => { link with next })
    else ({ c with head := next }, nodes)
  | none => ({ c with head := next }, nodes)

/-- Makes `prev` precede `next` in the nodes, where there is a `next`, and else at the tail. -/
def joinBackward (c : Chain) (nodes : Nodes α) (prev next : Option Nat) : Chain × Nodes α :=
  match next with
  | some n =>
    if nodes.holds next then
      (c, nodes.modifyLink n fun link => { link with prev })
    else ({ c with tail := prev }, nodes)
  | none => ({ c with tail := prev }, nodes)

/-- Takes a slot out of the chain; it must be one of its own. A slot without a value and one that
is not linked are refused. -/
def unlink (c : Chain) (nodes : Nodes α) (index : Nat) : Option (Chain × Nodes α) :=
  match nodes.link? index with
  | none => none
  | some link =>
    if link.linked then
      let nodes := nodes.modifyLink index fun _ => {}
      let (c, nodes) := c.joinForward nodes link.prev link.next
      let (c, nodes) := c.joinBackward nodes link.prev link.next
      some ({ c with length := c.length - 1 }, nodes)
    else none

/-- Takes the first slot out of the chain and names it. -/
def popFront (c : Chain) (nodes : Nodes α) : Option Nat × Chain × Nodes α :=
  match c.head with
  | none => (none, c, nodes)
  | some index =>
    match c.unlink nodes index with
    | some (c, nodes) => (some index, c, nodes)
    | none => (some index, c, nodes)

/-- The slot that follows another. -/
def next? (nodes : Nodes α) (index : Nat) : Option Nat :=
  (nodes.link? index).bind (·.next)

/-- At most `count` slots, from `start` on. -/
def walkFrom (nodes : Nodes α) : Nat → Option Nat → List Nat
  | 0, _ => []
  | _, none => []
  | count + 1, some index => index :: walkFrom nodes count (next? nodes index)

/-- At most `count` slots, from the front on. -/
def walk (c : Chain) (nodes : Nodes α) (count : Nat) : List Nat :=
  walkFrom nodes count c.head

/-- Every slot, from the front on. No chain is longer than the slab has slots, one slot that lost
its value apart. -/
def toList (c : Chain) (nodes : Nodes α) : List Nat :=
  c.walk nodes (nodes.slots.size + 1)

/-- Whether the slot is in the chain. -/
def contains (c : Chain) (nodes : Nodes α) (index : Nat) : Bool :=
  (c.toList nodes).contains index

end Chain

end BlockPool
