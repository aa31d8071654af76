import BlockPool.Recycling.Stack

/-!
# BlockPool — queues between threads

A `Queue` carries items from one thread back to the stack of another. It is a row of links, each
with the same number of slots: items are written into the last link and read from the first one.
Every link costs its slots from a budget that all queues to one stack share, and gives them back
when it has been read to its end and another link follows.

* `Queue.add` — writes an item, and says which budget is left.
* `Queue.transfer` — reads what waits in the first link into a stack, as far as it has room.
* `Queue.drain` — transfers until one of them brings nothing.
-/

namespace BlockPool.Recycling

/-- So many slots of a queue: those that were read, and the items that wait in those after them.
The others are not yet written. -/
structure Queue.Link where
  read : Nat := 0
  waiting : List Pooled := []
deriving Inhabited

/-- The number of slots that were written. -/
def Queue.Link.written (link : Queue.Link) : Nat := link.read + link.waiting.length

/-- The links between two threads. -/
structure Queue where
  /-- The slots of a link. -/
  linkCapacity : Nat
  /-- The link that is read. -/
  front : Queue.Link
  /-- The links that follow it; the last of all is the one that is written. -/
  rest : List Queue.Link
deriving Inhabited

namespace Queue

/-- A queue of one link, with nothing written. -/
def fresh (linkCapacity : Nat) : Queue := ⟨linkCapacity, {}, []⟩

/-- The links, in the order they are read. -/
def links (q : Queue) : List Link := q.front :: q.rest

/-- The number of links. -/
def numLinks (q : Queue) : Nat := q.rest.length + 1

/-- The slots of all links. -/
def cost (q : Queue) : Nat := q.numLinks * q.linkCapacity

/-- The items that were written and not read, oldest first. -/
def waiting (q : Queue) : List Pooled := q.links.flatMap (·.waiting)

/-- The link that is written. -/
def back (q : Queue) : Link := q.rest.getLastD q.front

/-- Changes the link that is written. -/
def modifyBack (q : Queue) (f : Link → Link) : Queue :=
  match q.rest.getLast? with
  | none => { q with front := f q.front }
  | some last => { q with rest := q.rest.dropLast ++ [f last] }

/-- Writes an item into the last link. A full link is followed by another one, if the budget has
room for it; the answer carries what is left of the budget. -/
def add (q : Queue) (p : Pooled) (budget : Nat) : Option (Queue × Nat) :=
  if q.back.written = q.linkCapacity then
    if budget < q.linkCapacity then none
    else some ({ q with rest := q.rest ++ [{ waiting := [p] }] }, budget - q.linkCapacity)
  else some (q.modifyBack fun link => { link with waiting := link.waiting ++ [p] }, budget)

/-- Leaves a first link that was read to its end, if another one follows, and gives its slots
back. -/
def advance (q : Queue) : Queue × Nat :=
  match q.rest with
  | next :: rest =>
    if q.front.read = q.linkCapacity then ({ q with front := next, rest }, q.linkCapacity)
    else (q, 0)
  | [] => (q, 0)

/-- What a transfer leaves. -/
structure Transfer where
  /-- Whether the stack has more items than before. -/
  moved : Bool
  queue : Queue
  stack : Stack
  tokens : Tokens
  /-- The slots that were given back. -/
  freed : Nat
  /-- The items that were read and that the stack turned away. -/
  refused : List Pooled

/-- Reads what waits in the first link, as far as the stack has room after growing, into the
stack. -/
def transfer (q : Queue) (s : Stack) (tokens : Tokens) : Transfer :=
  let (q, before) := q.advance
  let need := s.size + q.front.waiting.length
  let grown := if q.front.waiting ≠ [] ∧ need > s.capacity then s.grow need else s
  let count := min q.front.waiting.length (grown.capacity - grown.size)
  let (refused, filled, tokens) := grown.receiveAll tokens (q.front.waiting.take count)
  let front : Link := ⟨q.front.read + count, q.front.waiting.drop count⟩
  let (q, after) := if count = 0 then (q, 0) else { q with front }.advance
  { moved := decide (filled.size ≠ s.size)
    queue := q
    stack := filled
    tokens := tokens
    freed := before + after
    refused := refused }

/-- Transfers until one brings nothing, at most so many times. -/
def drainWithin : Nat → Queue → Stack → Tokens → Transfer
  | 0, q, s, tokens => ⟨false, q, s, tokens, 0, []⟩
  | steps + 1, q, s, tokens =>
    let first := q.transfer s tokens
    if first.moved then
      let others := drainWithin steps first.queue first.stack first.tokens
      { others with
        moved := true
        freed := first.freed + others.freed
        refused := first.refused ++ others.refused }
    else first

/-- Transfers until one brings nothing. All but the last one read an item that waits. -/
def drain (q : Queue) (s : Stack) (tokens : Tokens) : Transfer :=
  drainWithin (q.waiting.length + 1) q s tokens

end Queue

end BlockPool.Recycling
