import BlockPool.Recycling.Queue
import BlockPool.Total

/-!
# BlockPool — home stacks

A `Home` is the stack of one thread for one recycler, with the queues that other threads have
towards it. A queue is first pending and is adopted when the thread looks for items the next time.

* `Home.addFrom?`, `Home.openFrom?` — an item that another thread gives back, over its queue or
  a new one.
* `Home.scavenge` — looks at the queues in turn until one brings items to the stack.
* `Home.budget` — the slots that may still be added to the queues, in all.
-/

namespace BlockPool.Recycling

/-- A queue towards a stack, and the thread that writes it, until that exits. -/
structure Inbound where
  sender : Option Nat
  queue : Queue
deriving Inhabited

/-- The stack of one thread for one recycler. -/
structure Home where
  recycler : Nat
  thread : Nat
  stack : Stack
  /-- The queues that were adopted. -/
  queues : List Inbound
  /-- The queues that were not, oldest first. -/
  pending : List Inbound
  /-- The adopted queue to look at next. -/
  cursor : Nat
  /-- The slots that may still be added to queues. -/
  budget : Nat
deriving Inhabited

namespace Home

/-- The empty stack of a thread, with no queues. -/
def empty (recycler thread : Nat) (c : RecyclerConfig) : Home where
  recycler := recycler
  thread := thread
  stack := Stack.empty c
  queues := []
  pending := []
  cursor := 0
  budget := c.sharedCapacity

/-- Every queue towards the stack. -/
def inbound (h : Home) : List Inbound := h.queues ++ h.pending

/-- The number of queues towards the stack. -/
def numQueues (h : Home) : Nat := h.inbound.length

/-- The slots of all queues. -/
def cost (h : Home) : Nat := total (h.inbound.map (·.queue.cost))

/-- Changes every queue towards the stack. -/
def mapInbound (h : Home) (f : Inbound → Inbound) : Home :=
  { h with queues := h.queues.map f, pending := h.pending.map f }

-- ---------------------------------------------------------------------------
-- Items from other threads
-- ---------------------------------------------------------------------------

/-- The queue that a thread writes. -/
def queueFrom? (h : Home) (sender : Nat) : Option Queue :=
  (h.inbound.find? fun i => i.sender == some sender).map (·.queue)

/-- Puts another queue in place of the one that a thread writes. -/
def setQueueFrom (h : Home) (sender : Nat) (queue : Queue) : Home :=
  h.mapInbound fun i => if i.sender = some sender then { i with queue } else i

/-- Writes an item into the queue of a thread, if there is room for it. -/
def addFrom? (h : Home) (sender : Nat) (p : Pooled) : Option Home := do
  let (queue, budget) ← (← h.queueFrom? sender).add p h.budget
  return { h.setQueueFrom sender queue with budget }

/-- Makes a queue for a thread that has none, and writes an item into it, if the budget has room
for a link. -/
def openFrom? (h : Home) (sender : Nat) (linkCapacity : Nat) (p : Pooled) : Option Home := do
  if h.budget < linkCapacity then none
  else
    let (queue, budget) ← (Queue.fresh linkCapacity).add p (h.budget - linkCapacity)
    return { h with pending := h.pending ++ [⟨some sender, queue⟩], budget }

-- ---------------------------------------------------------------------------
-- Looking for items
-- ---------------------------------------------------------------------------

/-- What a look at the queues leaves. -/
structure Haul where
  /-- Whether items came to the stack. -/
  found : Bool
  home : Home
  tokens : Tokens
  /-- The items that came to nothing. -/
  refused : List Pooled

/-- The state after a transfer from the queue at the cursor. -/
def afterTransfer (h : Home) (i : Inbound) (t : Queue.Transfer) : Home :=
  { h with
    stack := t.stack
    queues := h.queues.set h.cursor { i with queue := t.queue }
    budget := h.budget + t.freed }

/-- The state after the queue at the cursor was given up. Its slots go back to the budget. -/
def afterRetiring (h : Home) (t : Queue.Transfer) : Home :=
  { h with
    stack := t.stack
    queues := h.queues.eraseIdx h.cursor
    budget := h.budget + t.freed + t.queue.cost }

/-- Looks at so many queues, from the cursor on, until one brings items. The queue of a thread that
has exited is drained and given up; what it still held after that is lost. -/
def look : Nat → Home → Tokens → Haul
  | 0, h, tokens => ⟨false, h, tokens, []⟩
  | count + 1, h, tokens =>
    match h.queues[h.cursor]? with
    | none => ⟨false, h, tokens, []⟩
    | some i =>
      let first := i.queue.transfer h.stack tokens
      let h := h.afterTransfer i first
      if first.moved then ⟨true, h, first.tokens, first.refused⟩
      else if i.sender.isSome then
        let others := look count { h with cursor := h.cursor + 1 } first.tokens
        { others with refused := first.refused ++ others.refused }
      else
        let last := first.queue.drain h.stack first.tokens
        let h := h.afterRetiring last
        let refused := first.refused ++ last.refused ++ last.queue.waiting
        if last.moved then ⟨true, h, last.tokens, refused⟩
        else
          let others := look count h last.tokens
          { others with refused := refused ++ others.refused }

/-- Adopts the pending queues. -/
def adopt (h : Home) : Home :=
  { h with queues := h.queues ++ h.pending, pending := [] }

/-- Adopts the pending queues and looks at the queues from the cursor to the end, until one brings
items. After a look that brings nothing the next one starts at the first queue. -/
def scavenge (h : Home) (tokens : Tokens) : Haul :=
  let h := h.adopt
  let h := if h.cursor ≥ h.queues.length then { h with cursor := 0 } else h
  let haul := look (h.queues.length - h.cursor) h tokens
  if haul.found then haul else { haul with home := { haul.home with cursor := 0 } }

-- ---------------------------------------------------------------------------
-- Threads that exit
-- ---------------------------------------------------------------------------

/-- A thread writes its queue no more. -/
def forgetSender (h : Home) (thread : Nat) : Home :=
  h.mapInbound fun i => if i.sender = some thread then { i with sender := none } else i

/-- What is left to a thread that writes a queue when the stack is gone: the items that wait in
the link it writes. -/
def leftTo (h : Home) (sender : Nat) : List Pooled :=
  match h.queueFrom? sender with
  | some queue => queue.back.waiting
  | none => []

/-- What is lost when the stack is gone: its items, and those that wait in a queue, but for what
is left to the thread that writes it. -/
def lost (h : Home) : List Pooled :=
  h.stack.entries ++ h.inbound.flatMap fun i =>
    match i.sender with
    | some _ => i.queue.links.dropLast.flatMap (·.waiting)
    | none => i.queue.waiting

end Home

end BlockPool.Recycling
