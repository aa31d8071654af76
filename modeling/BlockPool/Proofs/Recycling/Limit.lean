import BlockPool.Proofs.Recycling.Bounds

/-!
# BlockPool — the limit on queues

A thread has no more queues for one recycler than the limit allows. When it wants one more, it first
gives up its routes to stacks that are gone. If it still has too many, it marks the stack, and turns
away all items for that stack from then on.

Marks take up room beside the queues, and nobody looks at a mark again while its stack is there. So
a mark says what was so when it was made, which need not be so any more when it is found.

* `Recyclers.openQueues`, `Recyclers.liveQueues`, `Recyclers.liveMarks` — the routes of a thread.
* `Recyclers.Reached` — the moments of a run, between one move and the next.
* `Recyclers.Marking` — the moment at which a thread marks a stack.
* `Recyclers.run_queue_limit` — what the limit says about queues and marks, always.
-/

namespace BlockPool.Recycling

/-- Whether the thread has, or had, a queue there. If not, it has marked the stack. -/
def Route.isQueue : Route → Bool
  | .queued => true
  | .refusing => false
  | .stranded _ => true

namespace Recyclers

variable {s s' start : Recyclers} {acc : Access} {p : Pooled} {home : Home}
  {id thread recycler via : Nat} {configs : Array RecyclerConfig} {P : Recyclers → Prop}

-- ---------------------------------------------------------------------------
-- Queues and marks
-- ---------------------------------------------------------------------------

/-- The number of queues that a thread holds for a recycler. -/
def openQueues (s : Recyclers) (thread recycler : Nat) : Nat :=
  (s.routesOf thread recycler).countP fun route => route.2.isQueue

/-- The number of those whose stack is there. -/
def liveQueues (s : Recyclers) (thread recycler : Nat) : Nat :=
  (s.routesOf thread recycler).countP fun route =>
    route.2.isQueue && (s.home? route.1).isSome

/-- The number of stacks that a thread has marked and that are there. -/
def liveMarks (s : Recyclers) (thread recycler : Nat) : Nat :=
  (s.routesOf thread recycler).countP fun route =>
    !route.2.isQueue && (s.home? route.1).isSome

/-- Whether a thread has marked a stack. -/
def marked (s : Recyclers) (thread recycler id : Nat) : Bool :=
  (s.routesOf thread recycler).any fun route => route.1 == id && !route.2.isQueue

/-- An item is offered, and the thread marks a stack because of it. -/
structure Marking (s : Recyclers) (acc : Access) (via : Nat) (p : Pooled)
    (thread recycler id : Nat) : Prop where
  before : s.marked thread recycler id = false
  after : (s.offer acc via p).2.marked thread recycler id = true

/-- The routes of a thread to stacks that are there leave no room for a queue. If all of them are
queues, there are as many queues as there may be. -/
structure Full (s : Recyclers) (thread recycler limit : Nat) : Prop where
  routes : limit ≤ s.liveQueues thread recycler + s.liveMarks thread recycler
  queues : s.liveMarks thread recycler = 0 → s.liveQueues thread recycler = limit

theorem marked_eq_true_iff : s.marked thread recycler id = true ↔
    (id, Route.refusing) ∈ s.routesOf thread recycler := by
  rw [marked, List.any_eq_true]
  constructor
  · rintro ⟨⟨other, way⟩, hMem, hIs⟩
    rw [Bool.and_eq_true, beq_iff_eq] at hIs
    obtain ⟨rfl, hWay⟩ := hIs
    cases way with
    | queued => exact absurd hWay (by simp [Route.isQueue])
    | refusing => exact hMem
    | stranded left => exact absurd hWay (by simp [Route.isQueue])
  · intro hMem
    exact ⟨_, hMem, by simp [Route.isQueue]⟩

theorem liveQueues_le (s : Recyclers) (thread recycler : Nat) :
    s.liveQueues thread recycler ≤ s.openQueues thread recycler := by
  refine List.countP_mono_left fun route _ hLive => ?_
  exact (Bool.and_eq_true_iff.mp hLive).1

/-- A route to a stack that is there is a queue or a mark. -/
theorem countP_live (s : Recyclers) (routes : List (Nat × Route)) :
    (routes.filter fun route => (s.home? route.1).isSome).length =
      (routes.countP fun route => route.2.isQueue && (s.home? route.1).isSome) +
        routes.countP fun route => !route.2.isQueue && (s.home? route.1).isSome := by
  rw [← List.countP_eq_length_filter,
    List.countP_eq_countP_filter_add routes (fun route => (s.home? route.1).isSome)
      fun route => route.2.isQueue, List.countP_filter, List.countP_filter]
  simp [Bool.and_comm]

/-- If there is no room after the routes to stacks that are gone were given up, then those to stacks
that are there take it up. -/
theorem limit_le_live {limit : Nat} (hLimit : (s.config recycler).maxDelayedQueuesPerThread = limit)
    (hMany : limit ≤ (s.roomyRoutes thread recycler).length) :
    limit ≤ s.liveQueues thread recycler + s.liveMarks thread recycler := by
  rw [roomyRoutes, hLimit, pruneRoutes] at hMany
  split at hMany
  · rw [countP_live] at hMany
    exact hMany
  · rename_i hFew
    exact absurd hMany hFew

-- ---------------------------------------------------------------------------
-- The moments of a run
-- ---------------------------------------------------------------------------

/-- What moves lead to, one after the other. -/
inductive Reached (start : Recyclers) : Recyclers → Prop where
  | refl : Reached start start
  | enter {s : Recyclers} (thread recycler : Nat) (h : Reached start s) :
      Reached start (s.ensureHome thread recycler).2.2
  | offer {s : Recyclers} (acc : Access) (recycler : Nat) (p : Pooled) (h : Reached start s) :
      Reached start (s.offer acc recycler p).2
  | look {s : Recyclers} {id : Nat} {home : Home} (hHome : s.home? id = some home)
      (h : Reached start s) : Reached start (s.look id home)
  | leave {s : Recyclers} (thread : Nat) (h : Reached start s) : Reached start (s.leave thread)
  | pop {s : Recyclers} {id : Nat} {home : Home} {p : Pooled} {entries : List Pooled}
      (hHome : s.home? id = some home) (hEntries : home.stack.entries = p :: entries)
      (h : Reached start s) :
      Reached start { s.setHome id { home with stack := { home.stack with entries } } with
        tokens := s.tokens.markInUse p.token }
  | makeFor {s : Recyclers} {id : Nat} {home : Home} (hHome : s.home? id = some home)
      (h : Reached start s) : Reached start (s.makeFor home.recycler id).2
  | makeInert {s : Recyclers} (h : Reached start s) : Reached start s.makeInert.2

theorem lasting_reached (start : Recyclers) : Lasting (Reached start) where
  enter h := .enter _ _ h
  offer h := .offer _ _ _ h
  look hHome h := .look hHome h
  leave h := .leave _ h
  pop hHome hEntries h := .pop hHome hEntries h
  makeFor hHome h := .makeFor hHome h
  makeInert h := .makeInert h

/-- A run is made of moves. -/
theorem reached_run (s : Recyclers) (ops : List Op) : Reached s (s.run ops) :=
  (lasting_reached s).run ops .refl

namespace Reached

/-- What every move keeps holds at every moment. -/
theorem keeps (h : Reached start s) (hLasting : Lasting P) (hStart : P start) : P s := by
  induction h with
  | refl => exact hStart
  | enter thread recycler _ ih => exact hLasting.enter ih
  | offer acc recycler p _ ih => exact hLasting.offer ih
  | look hHome _ ih => exact hLasting.look hHome ih
  | leave thread _ ih => exact hLasting.leave ih
  | pop hHome hEntries _ ih => exact hLasting.pop hHome hEntries ih
  | makeFor hHome _ ih => exact hLasting.makeFor hHome ih
  | makeInert _ ih => exact hLasting.makeInert ih

theorem linked (h : Reached (create configs) s) : s.Linked :=
  h.keeps lasting_linked (linked_create configs)

theorem config (h : Reached (create configs) s) : s.config = (create configs).config :=
  (h.keeps (homeKept_sound (create configs).config).lasting (homes_create configs _)).config

end Reached

-- ---------------------------------------------------------------------------
-- What moves do to the routes of a thread
-- ---------------------------------------------------------------------------

theorem routesOf_ensureHome (s : Recyclers) (thread recycler : Nat) :
    (s.ensureHome thread recycler).2.2.routesOf = s.routesOf := by
  obtain ⟨-, -, ⟨-, hSame⟩ | ⟨-, -, hPushed⟩⟩ := s.ensureHome_cases thread recycler
  · rw [hSame]
  · rw [hPushed]
    rfl

/-- The routes of a thread for a recycler after an item was offered, and the answer to it. -/
inductive Rerouted (s : Recyclers) (acc : Access) (thread recycler : Nat) :
    Except RecycleError Bool → List (Nat × Route) → Prop where
  | same (answer : Except RecycleError Bool) :
      Rerouted s acc thread recycler answer (s.routesOf thread recycler)
  /-- The thread has given up routes, but got no queue. -/
  | pruned (answer : Except RecycleError Bool) :
      Rerouted s acc thread recycler answer (s.roomyRoutes thread recycler)
  /-- It has one more queue. -/
  | opened {id : Nat} (answer : Except RecycleError Bool)
      (hFew : (s.roomyRoutes thread recycler).length <
        (s.config recycler).maxDelayedQueuesPerThread) :
      Rerouted s acc thread recycler answer (s.roomyRoutes thread recycler ++ [(id, .queued)])
  /-- It has marked the stack of another thread, and turned the item away. -/
  | marks {id : Nat} {home : Home} (hHome : s.home? id = some home)
      (hThread : acc.thread = some thread) (hAway : home.thread ≠ thread)
      (hMany : (s.config recycler).maxDelayedQueuesPerThread ≤
        (s.roomyRoutes thread recycler).length) :
      Rerouted s acc thread recycler (.ok false)
        (s.roomyRoutes thread recycler ++ [(id, .refusing)])

/-- Where the routes of one thread for one recycler change, all others stay as they were. -/
theorem Rerouted.setRoutes {thread' recycler' : Nat} {answer : Except RecycleError Bool}
    {routes : List (Nat × Route)} (h : Rerouted s acc thread recycler answer routes)
    (hSame : s'.routesOf = s.routesOf) : Rerouted s acc thread' recycler' answer
      ((s'.setRoutes thread recycler routes).routesOf thread' recycler') := by
  rw [routesOf_setRoutes]
  split
  · rename_i hOwn
    obtain ⟨rfl, rfl⟩ := hOwn
    exact h
  · rw [hSame]
    exact .same _

/-- When an item is given back, the routes of a thread change by the rule for new ones, or not. -/
theorem rerouted_offer (s : Recyclers) (acc : Access) (via : Nat) (p : Pooled)
    (thread recycler : Nat) : Rerouted s acc thread recycler (s.offer acc via p).1.answer
      ((s.offer acc via p).2.routesOf thread recycler) := by
  obtain ⟨-, -, hSame⟩ | ⟨state, -, ⟨-, -, hSame⟩ | ⟨-, -, -, hSame⟩ |
    ⟨-, -, kept, hAnswer, hOffers⟩⟩ := s.offer_cases acc via p
  · rw [hSame]
    exact .same _
  · rw [hSame]
    exact .same _
  · rw [hSame]
    exact .same _
  · rw [hAnswer]
    generalize (s.offer acc via p).2 = after at hOffers
    -- only a new route, and what is given up for it, changes the routes of a thread
    cases hOffers with
    | stays => exact .same _
    | here hHome hThread hFree => exact .same _
    | adds hHome hThread hAway hRoute hAdd => exact .same _
    | refuses hHome hThread hAway hRoute hMany =>
      exact Rerouted.setRoutes (s := s) (.marks hHome hThread hAway hMany) rfl
    | prunes hHome hThread hAway hRoute hFew hOpen =>
      exact Rerouted.setRoutes (s := s) (.pruned _) rfl
    | opens hHome hThread hAway hRoute hFew hOpen =>
      exact Rerouted.setRoutes (s := s) (.opened _ hFew) rfl

theorem isQueue_routeAfterExit (s : Recyclers) (exiting sender : Nat) (route : Nat × Route) :
    (s.routeAfterExit exiting sender route).2.isQueue = route.2.isQueue := by
  unfold routeAfterExit
  split
  · rename_i hQueued _
    rw [hQueued]
    split
    · rfl
    · rw [hQueued]
  · rfl

/-- A thread that leaves has no routes any more. -/
theorem routesOf_leave_self (s : Recyclers) (thread recycler : Nat) :
    (s.leave thread).routesOf thread recycler = [] := by
  rcases (s.leave thread).routesOf_cases thread recycler with hNil | ⟨x, hx, hThread, -, -⟩
  · exact hNil
  · obtain ⟨y, -, hOther, rfl⟩ := mem_senders_leave hx
    exact absurd hThread hOther

theorem openQueues_leave_le (s : Recyclers) (exiting thread recycler : Nat) :
    (s.leave exiting).openQueues thread recycler ≤ s.openQueues thread recycler := by
  by_cases hOwn : thread = exiting
  · rw [openQueues, hOwn, routesOf_leave_self]
    exact Nat.zero_le _
  · refine Nat.le_of_eq ?_
    rw [openQueues, routesOf_leave hOwn, List.countP_map, openQueues]
    exact congrArg (fun q => List.countP q _)
      (funext fun route => s.isQueue_routeAfterExit exiting thread route)

/-- The others keep their marks, and make none. -/
theorem marked_leave {exiting : Nat} (hStays : thread ≠ exiting) (recycler id : Nat) :
    (s.leave exiting).marked thread recycler id = s.marked thread recycler id := by
  rw [marked, routesOf_leave hStays, List.any_map, marked]
  refine congrArg (fun q => List.any _ q) (funext fun route => ?_)
  rw [Function.comp_apply, fst_routeAfterExit, isQueue_routeAfterExit]

theorem marked_of_leave {exiting : Nat} (h : (s.leave exiting).marked thread recycler id = true) :
    s.marked thread recycler id = true := by
  by_cases hOwn : thread = exiting
  · rw [marked, hOwn, routesOf_leave_self] at h
    exact absurd h (by simp)
  · rwa [marked_leave hOwn] at h

-- ---------------------------------------------------------------------------
-- The limit
-- ---------------------------------------------------------------------------

/-- The routes that are left hold no queue that was not there. -/
theorem countP_roomyRoutes_le (s : Recyclers) (thread recycler : Nat) :
    ((s.roomyRoutes thread recycler).countP fun route => route.2.isQueue) ≤
      s.openQueues thread recycler :=
  (s.pruneRoutes_frame _ _).1.countP_le

/-- An item that is offered leads to no more queues than there may be. -/
theorem openQueues_offer_le {limit : Nat}
    (hLimit : (s.config recycler).maxDelayedQueuesPerThread = limit)
    (hQueues : s.openQueues thread recycler ≤ limit) (acc : Access) (via : Nat) (p : Pooled) :
    (s.offer acc via p).2.openQueues thread recycler ≤ limit := by
  have hRerouted := s.rerouted_offer acc via p thread recycler
  have hLeft := s.countP_roomyRoutes_le thread recycler
  rw [openQueues]
  generalize (s.offer acc via p).2.routesOf thread recycler = routes at hRerouted ⊢
  generalize (s.offer acc via p).1.answer = answer at hRerouted
  cases hRerouted with
  | same => exact hQueues
  | pruned => exact Nat.le_trans hLeft hQueues
  | opened _ hFew =>
    have hQueue : Route.queued.isQueue = true := rfl
    rw [List.countP_append, List.countP_singleton, if_pos hQueue]
    have hLength : ((s.roomyRoutes thread recycler).countP fun route => route.2.isQueue) ≤
      (s.roomyRoutes thread recycler).length := List.countP_le_length
    omega
  | marks hHome hThread hAway hMany =>
    rw [List.countP_append, List.countP_singleton]
    exact Nat.le_trans hLeft hQueues

theorem Reached.openQueues_le (h : Reached (create configs) s) (thread recycler : Nat) :
    s.openQueues thread recycler ≤
      ((create configs).config recycler).maxDelayedQueuesPerThread := by
  induction h with
  | refl => exact Nat.zero_le _
  | enter t r _ ih =>
    rw [openQueues, routesOf_ensureHome]
    exact ih
  | offer acc via p hReached ih => exact openQueues_offer_le (by rw [hReached.config]) ih acc via p
  | leave exiting _ ih => exact Nat.le_trans (openQueues_leave_le _ exiting thread recycler) ih
  | look _ _ ih => exact ih
  | pop _ _ _ ih => exact ih
  | makeFor _ _ ih => exact ih
  | makeInert _ ih => exact ih

-- ---------------------------------------------------------------------------
-- Marks
-- ---------------------------------------------------------------------------

/-- A thread marks a stack of another one that is there, when its routes leave no room. The item is
turned away. -/
theorem Marking.refuses {limit : Nat} (h : s.Marking acc via p thread recycler id)
    (hLimit : (s.config recycler).maxDelayedQueuesPerThread = limit) :
    (s.offer acc via p).1.answer = .ok false ∧ acc.thread = some thread ∧
      (∃ home, s.home? id = some home ∧ home.thread ≠ thread) ∧
        limit ≤ s.liveQueues thread recycler + s.liveMarks thread recycler := by
  have hRerouted := s.rerouted_offer acc via p thread recycler
  have hAfter := marked_eq_true_iff.mp h.after
  have hNot : (id, Route.refusing) ∉ s.routesOf thread recycler := by
    rw [← marked_eq_true_iff, h.before]
    decide
  have hLeft : (id, Route.refusing) ∉ s.roomyRoutes thread recycler := fun hMem =>
    hNot ((s.pruneRoutes_frame _ _).1.subset hMem)
  generalize (s.offer acc via p).2.routesOf thread recycler = routes at hRerouted hAfter
  generalize (s.offer acc via p).1.answer = answer at hRerouted
  cases hRerouted with
  | same => exact absurd hAfter hNot
  | pruned => exact absurd hAfter hLeft
  | opened =>
    rcases List.mem_append.mp hAfter with hOld | hNew
    · exact absurd hOld hLeft
    · exact absurd (List.mem_singleton.mp hNew) (by simp)
  | marks hHome hThread hAway hMany =>
    rcases List.mem_append.mp hAfter with hOld | hNew
    · exact absurd hOld hLeft
    · obtain ⟨rfl, -⟩ := Prod.mk.inj (List.mem_singleton.mp hNew)
      rw [hLimit] at hMany
      exact ⟨rfl, hThread, ⟨_, hHome, hAway⟩, limit_le_live hLimit hMany⟩

theorem Reached.full (h : Reached (create configs) s)
    (hMarking : s.Marking acc via p thread recycler id) :
    s.Full thread recycler ((create configs).config recycler).maxDelayedQueuesPerThread := by
  obtain ⟨-, -, -, hRoutes⟩ := hMarking.refuses (by rw [h.config])
  refine ⟨hRoutes, fun hNone => ?_⟩
  have hOpen := h.openQueues_le thread recycler
  have hLive := s.liveQueues_le thread recycler
  omega

/-- A thread marked a stack at an earlier moment, as its routes left no room then. -/
def MarkedBefore (configs : Array RecyclerConfig) (s : Recyclers) (thread recycler id : Nat) :
    Prop :=
  ∃ before acc via p, Reached (create configs) before ∧
    before.Marking acc via p thread recycler id ∧
      before.Full thread recycler ((create configs).config recycler).maxDelayedQueuesPerThread ∧
        Reached (before.offer acc via p).2 s

theorem MarkedBefore.later (h : MarkedBefore configs s thread recycler id)
    (hLater : ∀ earlier, Reached earlier s → Reached earlier s') :
    MarkedBefore configs s' thread recycler id := by
  obtain ⟨before, acc, via, p, hReached, hMarking, hFull, hSince⟩ := h
  exact ⟨before, acc, via, p, hReached, hMarking, hFull, hLater _ hSince⟩

/-- Every mark was made so. -/
theorem Reached.markedBefore (h : Reached (create configs) s)
    (hMarked : s.marked thread recycler id = true) :
    MarkedBefore configs s thread recycler id := by
  induction h with
  | refl => exact absurd hMarked (by simp [marked, routesOf, create])
  | @offer s acc via p hReached ih =>
    cases hBefore : s.marked thread recycler id with
    | true => exact (ih hBefore).later fun _ hSince => hSince.offer acc via p
    | false =>
      have hMarking : s.Marking acc via p thread recycler id := ⟨hBefore, hMarked⟩
      exact ⟨s, acc, via, p, hReached, hMarking, hReached.full hMarking, .refl⟩
  | leave exiting _ ih =>
    exact (ih (marked_of_leave hMarked)).later fun _ hSince => hSince.leave exiting
  | enter t r _ ih =>
    rw [marked, routesOf_ensureHome] at hMarked
    exact (ih hMarked).later fun _ hSince => hSince.enter t r
  | look hHome _ ih => exact (ih hMarked).later fun _ hSince => hSince.look hHome
  | pop hHome hEntries _ ih => exact (ih hMarked).later fun _ hSince => hSince.pop hHome hEntries
  | makeFor hHome _ ih => exact (ih hMarked).later fun _ hSince => hSince.makeFor hHome
  | makeInert _ ih => exact (ih hMarked).later fun _ hSince => hSince.makeInert

/-- Nothing that is offered takes a mark away while the stack is there. -/
theorem marked_offer (hMarked : s.marked thread recycler id = true)
    (hLive : (s.home? id).isSome = true) (acc : Access) (via : Nat) (p : Pooled) :
    (s.offer acc via p).2.marked thread recycler id = true := by
  rw [marked_eq_true_iff] at hMarked ⊢
  have hRerouted := s.rerouted_offer acc via p thread recycler
  have hLeft : (id, Route.refusing) ∈ s.roomyRoutes thread recycler := by
    rw [roomyRoutes, pruneRoutes]
    split
    · exact List.mem_filter.mpr ⟨hMarked, hLive⟩
    · exact hMarked
  generalize (s.offer acc via p).2.routesOf thread recycler = routes at hRerouted ⊢
  generalize (s.offer acc via p).1.answer = answer at hRerouted
  cases hRerouted with
  | same => exact hMarked
  | pruned => exact hLeft
  | opened => exact List.mem_append_left _ hLeft
  | marks => exact List.mem_append_left _ hLeft

/-- No route is hidden by another one. -/
theorem Linked.lookup_of_mem {way : Route} (h : s.Linked)
    (hMem : (id, way) ∈ s.routesOf thread recycler) :
    (s.routesOf thread recycler).lookup id = some way := by
  obtain ⟨before, after, hSplit⟩ := List.append_of_mem hMem
  refine List.lookup_eq_some_iff.mpr ⟨before, after, hSplit, fun route hBefore => ?_⟩
  have hNodup := h.nodup_routesOf thread recycler
  rw [hSplit, List.map_append, List.map_cons] at hNodup
  have hApart := (List.nodup_append.mp hNodup).2.2 route.1 (List.mem_map_of_mem hBefore) id
    List.mem_cons_self
  simpa using Ne.symm hApart

/-- While a mark stands, the thread turns away what is on its way to the stack. -/
theorem Linked.offer_of_marked (h : s.Linked) (hMarked : s.marked thread recycler id = true)
    (hHome : s.home? id = some home) (hAway : home.thread ≠ thread)
    (hThread : acc.thread = some thread) (hOut : s.tokens.Tells p.token via id false) :
    (s.offer acc via p).1.answer = .ok false := by
  have hMem := marked_eq_true_iff.mp hMarked
  obtain rfl : home.recycler = recycler := ((h.leads_routesOf hMem).2 home hHome).1
  have hRoute := h.lookup_of_mem hMem
  have hSame : ({ s with tokens := s.tokens.markRecycled p.token } : Recyclers).routesOf thread
      home.recycler = s.routesOf thread home.recycler := rfl
  rw [offer_eq_offerAway hOut hHome hThread hAway, offerAway]
  split
  · rfl
  · dsimp only
    rw [hSame, hRoute]

/-- What the limit says about the routes of a thread for a recycler. -/
structure QueueLimit (configs : Array RecyclerConfig) (s : Recyclers)
    (thread recycler limit : Nat) : Prop where
  queues : s.openQueues thread recycler ≤ limit
  /-- The thread marks a stack only if that is there, and of another thread, and the routes leave no
  room. The item is turned away. -/
  marking : ∀ acc via p id, s.Marking acc via p thread recycler id →
    (s.offer acc via p).1.answer = .ok false ∧ acc.thread = some thread ∧
      (∃ home, s.home? id = some home ∧ home.thread ≠ thread) ∧ s.Full thread recycler limit
  /-- A mark that is found was made so. -/
  found : ∀ id, s.marked thread recycler id = true → MarkedBefore configs s thread recycler id
  /-- It stands until the stack is gone, or the thread itself. -/
  standing : ∀ id, s.marked thread recycler id = true →
    ((s.home? id).isSome = true → ∀ acc via p,
      (s.offer acc via p).2.marked thread recycler id = true) ∧
        ∀ exiting, thread ≠ exiting → (s.leave exiting).marked thread recycler id = true
  /-- While it stands, items for the stack are turned away, whatever became of the queues. -/
  dropping : ∀ acc via p id home, s.marked thread recycler id = true →
    s.home? id = some home → home.thread ≠ thread → acc.thread = some thread →
      s.tokens.Tells p.token via id false → (s.offer acc via p).1.answer = .ok false

/-- A run passes through such moments only, and at each of them: a thread holds no more queues for a
recycler than the limit, it marks a stack only while its routes to stacks that are there leave no
room, and turns items for that stack away from then on. -/
theorem run_queue_limit (configs : Array RecyclerConfig) :
    (∀ ops, Reached (create configs) ((create configs).run ops)) ∧
      ∀ s, Reached (create configs) s → ∀ thread recycler, s.QueueLimit configs thread recycler
        ((create configs).config recycler).maxDelayedQueuesPerThread := by
  refine ⟨fun ops => reached_run _ ops, fun s hReached thread recycler => ?_⟩
  refine ⟨hReached.openQueues_le thread recycler, ?_, ?_, ?_, ?_⟩
  · intro acc via p id hMarking
    obtain ⟨hAnswer, hThread, hHome, -⟩ := hMarking.refuses (by rw [hReached.config])
    exact ⟨hAnswer, hThread, hHome, hReached.full hMarking⟩
  · intro id hMarked
    exact hReached.markedBefore hMarked
  · intro id hMarked
    refine ⟨fun hLive acc via p => marked_offer hMarked hLive acc via p, fun exiting hStays => ?_⟩
    rwa [marked_leave hStays]
  · intro acc via p id home hMarked hHome hAway hThread hOut
    exact hReached.linked.offer_of_marked hMarked hHome hAway hThread hOut

/-- One recycler that allows a thread one queue. -/
def oneQueue : Array RecyclerConfig :=
  #[{ RecyclerConfig.defaults 1 with ratio := 1, maxDelayedQueuesPerThread := 1 }]

/-- Two threads lend items, one and two, and a third one gives the first of them back. -/
def queueTaken : List Op :=
  [.get (.thread 1) 0, .get (.thread 2) 0, .get (.thread 2) 0,
    .recycle (.thread 0) 0 ⟨.plain 0, .live 0⟩]

/-- With its one queue taken, the third thread marks the stack of the second one. -/
theorem run_queue_limit_one_queue :
    ((create oneQueue).run queueTaken).Marking (.ofCaller (.thread 0)) 0 ⟨.plain 1, .live 1⟩ 0 0 1 ∧
      ((create oneQueue).run queueTaken).Full 0 0 1 := by
  have hLimit := (run_queue_limit oneQueue).2 _ ((run_queue_limit oneQueue).1 queueTaken) 0 0
  have hMarking : ((create oneQueue).run queueTaken).Marking (.ofCaller (.thread 0)) 0
      ⟨.plain 1, .live 1⟩ 0 0 1 := ⟨by decide +kernel, by decide +kernel⟩
  exact ⟨hMarking, (hLimit.marking _ _ _ _ hMarking).2.2.2⟩

/-- A mark outlasts the queue that it was made for. When the first thread has left, the third one
holds no queue to a stack that is there, and still turns away an item for the second one. -/
theorem mark_outlasts_queue :
    let s := (create oneQueue).run
      (queueTaken ++ [.recycle (.thread 0) 0 ⟨.plain 1, .live 1⟩, .exit 1])
    (s.config 0).maxDelayedQueuesPerThread = 1 ∧ s.liveQueues 0 0 = 0 ∧
      (s.home? 1).any (fun home => home.thread = 2) = true ∧ s.marked 0 0 1 = true ∧
        s.tokens.Tells (.live 2) 0 1 false ∧
          (s.recycle (.thread 0) 0 ⟨.plain 2, .live 2⟩).1 = .ok false := by
  intro s
  have hOut : s.tokens.Tells (.live 2) 0 1 false := ⟨false, by decide +kernel⟩
  exact ⟨by decide +kernel, by decide +kernel, by decide +kernel, by decide +kernel, hOut,
    by decide +kernel⟩

end Recyclers

end BlockPool.Recycling
