import BlockPool.Recycling.Home
import BlockPool.Thread.Caller

/-!
# BlockPool — recyclers

A recycler lends items and takes them back. Each thread has a stack of its own for each recycler;
an item belongs to the stack of the thread that it was made for, and one that is given back
elsewhere travels there over a queue.

An item that is not taken back is thrown away, and what it carried is then given back in turn, by
the same thread and from within the same call. A stack or a set of routes that the call is using is
`busy` at that moment, and the item that needs it is thrown away too.

* `Recyclers.get` — lends an item: one that came back, or else a new one.
* `Recyclers.recycle`, `Recyclers.giveBack` — give an item back.
* `Recyclers.discard` — throws an item away.
* `Recyclers.exitThread` — the end of a thread, with its stacks and its side of the queues.
-/

namespace BlockPool.Recycling

/-- How a thread gets items to a stack of another thread. -/
inductive Route where
  /-- Over a queue. -/
  | queued
  /-- Not at all: the thread had as many routes as it may. -/
  | refusing
  /-- The stack is gone; these items wait in what is left of the queue. -/
  | stranded (left : List Pooled)
deriving Inhabited

/-- The routes of a thread, for one recycler, by the stack they lead to. -/
structure Sender where
  thread : Nat
  recycler : Nat
  routes : List (Nat × Route)
deriving Inhabited

/-- The recyclers of a program, with what their threads hold. -/
structure Recyclers where
  configs : Array RecyclerConfig
  /-- The number of objects made so far, which is the number of the next one. -/
  made : Nat
  tokens : Tokens
  /-- The stacks, by number; those whose thread has exited are gone. -/
  homes : Array (Option Home)
  senders : List Sender

instance : Inhabited Recyclers := ⟨⟨#[], 0, #[], #[], []⟩⟩

/-- The place of a call: its thread, unless that is past keeping anything, and the recyclers whose
stack or routes on that thread are in use by the call. -/
structure Access where
  thread : Option Nat
  busyStacks : List Nat
  busyRoutes : List Nat
deriving Inhabited

namespace Access

/-- A call that uses nothing yet. -/
def ofCaller : Caller → Access
  | .thread id => ⟨some id, [], []⟩
  | .exiting => ⟨none, [], []⟩

/-- The same call while it uses the stack of a recycler. -/
def usingStack (acc : Access) (recycler : Nat) : Access :=
  { acc with busyStacks := recycler :: acc.busyStacks }

/-- The same call while it uses the routes of a recycler. -/
def usingRoutes (acc : Access) (recycler : Nat) : Access :=
  { acc with busyRoutes := recycler :: acc.busyRoutes }

end Access

/-- The answer to an item that is given back. -/
structure Verdict where
  /-- Whether the item was kept, or why it could not be given back. -/
  answer : Except RecycleError Bool
  /-- The place where things are thrown away now. -/
  access : Access
  /-- The items that are thrown away before this one. -/
  evicted : List Pooled := []

/-- Whether the item was kept. -/
def Verdict.kept (v : Verdict) : Bool :=
  match v.answer with
  | .ok kept => kept
  | .error _ => false

namespace Recyclers

/-- Recyclers of the given limits, before anything was lent. -/
def create (configs : Array RecyclerConfig) : Recyclers :=
  ⟨configs, 0, #[], #[], []⟩

/-- The limits of a recycler. -/
def config (s : Recyclers) (recycler : Nat) : RecyclerConfig :=
  s.configs.getD recycler (RecyclerConfig.defaults 1)

-- ---------------------------------------------------------------------------
-- Stacks and routes
-- ---------------------------------------------------------------------------

/-- A stack by its number, unless its thread has exited. -/
def home? (s : Recyclers) (id : Nat) : Option Home := (s.homes[id]?).join

/-- Puts another state in place of a stack's. -/
def setHome (s : Recyclers) (id : Nat) (home : Home) : Recyclers :=
  { s with homes := s.homes.setIfInBounds id (some home) }

/-- Whether this is the stack of a thread for a recycler. -/
def isHomeOf (home : Option Home) (thread recycler : Nat) : Bool :=
  match home with
  | some h => h.thread == thread && h.recycler == recycler
  | none => false

/-- The stack of a thread for a recycler, which is made if there is none. -/
def ensureHome (s : Recyclers) (thread recycler : Nat) : Nat × Home × Recyclers :=
  let fresh := Home.empty recycler thread (s.config recycler)
  match s.homes.findIdx? fun home => isHomeOf home thread recycler with
  | some id => (id, (s.home? id).getD fresh, s)
  | none => (s.homes.size, fresh, { s with homes := s.homes.push (some fresh) })

/-- The routes of a thread for a recycler. -/
def routesOf (s : Recyclers) (thread recycler : Nat) : List (Nat × Route) :=
  match s.senders.find? fun x => x.thread == thread && x.recycler == recycler with
  | some sender => sender.routes
  | none => []

/-- Puts other routes in place of those of a thread for a recycler. -/
def setRoutes (s : Recyclers) (thread recycler : Nat) (routes : List (Nat × Route)) :
    Recyclers :=
  let others := s.senders.filter fun x => !(x.thread == thread && x.recycler == recycler)
  { s with senders := others ++ [⟨thread, recycler, routes⟩] }

-- ---------------------------------------------------------------------------
-- Giving one item back
-- ---------------------------------------------------------------------------

/-- Gives an item to the stack of the thread itself. -/
def offerHere (s : Recyclers) (acc : Access) (id : Nat) (home : Home) (p : Pooled) :
    Verdict × Recyclers :=
  if acc.busyStacks.contains home.recycler then (⟨.ok false, acc, []⟩, s)
  else
    let (kept, stack, tokens) := home.stack.push s.tokens p
    (⟨.ok kept, acc.usingStack home.recycler, []⟩,
      { s.setHome id { home with stack } with tokens })

/-- The items that waited in a route to a stack that is gone. -/
def strandedIn : Route → List Pooled
  | .stranded left => left
  | _ => []

/-- Gives up the routes to stacks that are gone, if there are as many routes as there may be. The
items that waited in them come out. -/
def pruneRoutes (s : Recyclers) (limit : Nat) (routes : List (Nat × Route)) :
    List (Nat × Route) × List Pooled :=
  if routes.length ≥ limit then
    (routes.filter fun route => (s.home? route.1).isSome,
      (routes.filter fun route => (s.home? route.1).isNone).flatMap fun route =>
        strandedIn route.2)
  else (routes, [])

/-- Sends an item to a stack that the thread has no route to yet. -/
def offerOnNewRoute (s : Recyclers) (acc : Access) (thread id : Nat) (home : Home) (p : Pooled) :
    Verdict × Recyclers :=
  let config := s.config home.recycler
  let limit := config.maxDelayedQueuesPerThread
  let (routes, evicted) := s.pruneRoutes limit (s.routesOf thread home.recycler)
  if routes.length ≥ limit then
    (⟨.ok false, acc, evicted⟩,
      s.setRoutes thread home.recycler (routes ++ [(id, .refusing)]))
  else
    match home.openFrom? thread config.linkCapacity p with
    | none => (⟨.ok false, acc, evicted⟩, s.setRoutes thread home.recycler routes)
    | some home =>
      (⟨.ok true, acc, evicted⟩,
        (s.setHome id home).setRoutes thread home.recycler (routes ++ [(id, .queued)]))

/-- Sends an item to the stack of another thread. -/
def offerAway (s : Recyclers) (acc : Access) (thread id : Nat) (home : Home) (p : Pooled) :
    Verdict × Recyclers :=
  if acc.busyRoutes.contains home.recycler then (⟨.ok false, acc, []⟩, s)
  else
    let acc := acc.usingRoutes home.recycler
    match (s.routesOf thread home.recycler).lookup id with
    | none => s.offerOnNewRoute acc thread id home p
    | some .queued =>
      match home.addFrom? thread p with
      | some home => (⟨.ok true, acc, []⟩, s.setHome id home)
      | none => (⟨.ok false, acc, []⟩, s)
    | some _ => (⟨.ok false, acc, []⟩, s)

/-- Gives an item back through a recycler. An inert token brings it nowhere. A token of another
recycler is refused, and so is one whose item came back before; else the item is on its way back,
whether or not it is kept. -/
def offer (s : Recyclers) (acc : Access) (recycler : Nat) (p : Pooled) : Verdict × Recyclers :=
  match s.tokens.state? p.token with
  | none => (⟨.ok false, acc, []⟩, s)
  | some state =>
    if state.recycler ≠ recycler then (⟨.error .foreignToken, acc, []⟩, s)
    else if state.recycled then (⟨.error .recycledAlready, acc, []⟩, s)
    else
      let s := { s with tokens := s.tokens.markRecycled p.token }
      match s.home? state.home, acc.thread with
      | some home, some thread =>
        if home.thread = thread then s.offerHere acc state.home home p
        else s.offerAway acc thread state.home home p
      | _, _ => (⟨.ok false, acc, []⟩, s)

/-- The recycler that issued a token. -/
def recyclerOf (s : Recyclers) (token : Token) : Nat :=
  ((s.tokens.state? token).map (·.recycler)).getD 0

-- ---------------------------------------------------------------------------
-- Throwing items away
-- ---------------------------------------------------------------------------

/-- Throws an item away: what it carries is given back, and if it is not kept, thrown away too.
What such a step evicts is thrown away by `evict`. -/
def discardWith (evict : Recyclers → Access → List Pooled → Recyclers) :
    Item → Recyclers → Access → Recyclers
  | .plain _, s, _ => s
  | .carrying _ inner token, s, acc =>
    let (verdict, s) := s.offer acc (s.recyclerOf token) ⟨inner, token⟩
    let s := evict s verdict.access verdict.evicted
    if verdict.kept then s else discardWith evict inner s verdict.access

/-- Throws an item away where evictions nest at most so deep. -/
def discardWithin : Nat → Item → Recyclers → Access → Recyclers
  | 0 => discardWith fun s _ _ => s
  | depth + 1 => discardWith fun s acc evicted =>
    evicted.foldl (fun s p => discardWithin depth p.item s acc) s

/-- Throws an item away. An eviction needs the routes of a recycler and leaves them busy for what
it throws away, so evictions nest no deeper than there are recyclers. -/
def discard (s : Recyclers) (acc : Access) (item : Item) : Recyclers :=
  discardWithin s.configs.size item s acc

/-- Throws items away, one after the other. -/
def discardAll (s : Recyclers) (acc : Access) (items : List Pooled) : Recyclers :=
  items.foldl (fun s p => s.discard acc p.item) s

-- ---------------------------------------------------------------------------
-- Lending and giving back
-- ---------------------------------------------------------------------------

/-- Gives an item back through a recycler. The answer is whether it was kept; an item that was not
is thrown away, also after an error. -/
def recycle (s : Recyclers) (caller : Caller) (recycler : Nat) (p : Pooled) :
    Except RecycleError Bool × Recyclers :=
  let (verdict, s) := s.offer (Access.ofCaller caller) recycler p
  let s := s.discardAll verdict.access verdict.evicted
  (verdict.answer, if verdict.kept then s else s.discard verdict.access p.item)

/-- Gives an item back through its own recycler. -/
def giveBack (s : Recyclers) (caller : Caller) (p : Pooled) :
    Except RecycleError Bool × Recyclers :=
  s.recycle caller (s.recyclerOf p.token) p

/-- Makes an object that no recycler will take back. -/
def makeInert (s : Recyclers) : Pooled × Recyclers :=
  (⟨.plain s.made, .inert⟩, { s with made := s.made + 1 })

/-- Makes an object for a stack. -/
def makeFor (s : Recyclers) (recycler id : Nat) : Pooled × Recyclers :=
  let (token, tokens) := s.tokens.issue recycler id
  (⟨.plain s.made, token⟩, { s with made := s.made + 1, tokens })

/-- Looks in the queues towards a stack for items. -/
def scavengeHome (s : Recyclers) (id : Nat) (home : Home) : Bool × Recyclers :=
  let haul := home.scavenge s.tokens
  let s := { s.setHome id haul.home with tokens := haul.tokens }
  let acc := (Access.ofCaller (.thread home.thread)).usingStack home.recycler
  (haul.found, s.discardAll acc haul.refused)

/-- Looks for items that other threads gave back to this one. -/
def scavenge (s : Recyclers) (caller : Caller) (recycler : Nat) : Bool × Recyclers :=
  match caller with
  | .exiting => (false, s)
  | .thread thread =>
    let (id, home, s) := s.ensureHome thread recycler
    s.scavengeHome id home

/-- Takes the item on top of a stack. -/
def pop? (s : Recyclers) (id : Nat) : Option (Pooled × Recyclers) := do
  let home ← s.home? id
  let (p, stack) ← home.stack.pop?
  return (p, { s.setHome id { home with stack } with tokens := s.tokens.markInUse p.token })

/-- Lends an item: one from the thread's stack, where an empty stack looks for items first, or
else a new one. -/
def get (s : Recyclers) (caller : Caller) (recycler : Nat) : Pooled × Recyclers :=
  match caller with
  | .exiting => s.makeInert
  | .thread thread =>
    if (s.config recycler).isDisabled then s.makeInert
    else
      let (id, home, s) := s.ensureHome thread recycler
      let s := if home.stack.isEmpty then (s.scavengeHome id home).2 else s
      match s.pop? id with
      | some lent => lent
      | none => s.makeFor recycler id

-- ---------------------------------------------------------------------------
-- Threads that exit
-- ---------------------------------------------------------------------------

/-- A route of a sender after the stacks of a thread are gone. -/
def routeAfterExit (s : Recyclers) (exiting sender : Nat) (route : Nat × Route) : Nat × Route :=
  match route.2, s.home? route.1 with
  | .queued, some home =>
    if home.thread = exiting then (route.1, .stranded (home.leftTo sender)) else route
  | _, _ => route

/-- Ends a thread. Its stacks are gone, the queues that it wrote have no writer any more, and all
items that no one can reach after that are thrown away. Nothing is kept of what they carry. -/
def exitThread (s : Recyclers) (thread : Nat) : Recyclers :=
  let own := s.senders.filter fun x => x.thread == thread
  let strandedItems := own.flatMap fun x => x.routes.flatMap fun route => strandedIn route.2
  let others := s.senders.filter fun x => !(x.thread == thread)
  let senders := others.map fun x =>
    { x with routes := x.routes.map (s.routeAfterExit thread x.thread) }
  let lost := s.homes.toList.flatMap fun home =>
    match home with
    | some h => if h.thread = thread then h.lost else []
    | none => []
  let homes := s.homes.map fun home =>
    home.bind fun h => if h.thread = thread then none else some (h.forgetSender thread)
  { s with homes, senders }.discardAll (Access.ofCaller .exiting) (strandedItems ++ lost)

end Recyclers

end BlockPool.Recycling
