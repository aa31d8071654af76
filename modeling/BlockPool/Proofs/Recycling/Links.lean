import BlockPool.Proofs.Recycling.Run
import Mathlib.Data.List.Nodup

/-!
# BlockPool — routes and queues

The routes of a thread and the queues towards a stack are two ends of one thing, kept in two places.
A thread that writes a queue has a route to the stack that the queue belongs to, and so never opens
a second one; and as no two stacks ever have one number, a route that is stranded stays so.

* `Recyclers.Linked` — how routes and queues fit together.
* `Recyclers.lasting_linked` — they always do.
-/

namespace BlockPool.Recycling

theorem Home.inbound_forgetSender (h : Home) (thread : Nat) :
    (h.forgetSender thread).inbound = h.inbound.map fun i =>
      if i.sender = some thread then { i with sender := none } else i :=
  h.inbound_mapInbound _

/-- What waits in the queues goes on waiting when a thread writes its queue no more. -/
theorem Home.entries_forgetSender (h : Home) (thread : Nat) :
    (h.forgetSender thread).entries = h.entries := by
  rw [entries, inbound_forgetSender, List.flatMap_map, entries]
  congr 1
  refine List.flatMap_congr fun i _ => ?_
  split <;> rfl

/-- A thread that exits is none of those any more that write a queue. -/
theorem Home.senders_forgetSender (h : Home) (thread : Nat) :
    (h.forgetSender thread).senders = h.senders.filter fun t => t != thread := by
  have hList : ∀ xs : List Inbound, (xs.map fun i =>
      if i.sender = some thread then { i with sender := none } else i).filterMap (·.sender) =
        (xs.filterMap (·.sender)).filter fun t => t != thread := by
    intro xs
    induction xs with
    | nil => rfl
    | cons i rest ih =>
      rw [List.map_cons]
      cases hSender : i.sender with
      | none =>
        rw [if_neg (by simp), List.filterMap_cons_none hSender, List.filterMap_cons_none hSender,
          ih]
      | some t =>
        rw [List.filterMap_cons_some hSender, List.filter_cons]
        by_cases hGone : t = thread
        · rw [if_pos (by rw [hGone]), List.filterMap_cons_none rfl, ih, if_neg (by simp [hGone])]
        · rw [if_neg (by simpa using hGone), List.filterMap_cons_some hSender, ih,
            if_pos (by simpa using hGone)]
  rw [senders, inbound_forgetSender, hList, senders]

namespace Recyclers

variable {s s' : Recyclers} {acc : Access} {p : Pooled} {home home' : Home}
  {id thread recycler : Nat} {routes : List (Nat × Route)} {x : Sender}

/-- How routes and queues fit together. -/
structure Linked (s : Recyclers) : Prop where
  senders : (s.senders.map fun x => (x.thread, x.recycler)).Nodup
  routes : ∀ x ∈ s.senders, (x.routes.map (·.1)).Nodup
  /-- A route leads to a stack of its recycler. It is not stranded while the stack is there. -/
  leads : ∀ x ∈ s.senders, ∀ route ∈ x.routes, route.1 < s.homes.size ∧
    ∀ home, s.home? route.1 = some home → home.recycler = x.recycler ∧ strandedIn route.2 = []
  /-- Who writes a queue towards a stack has a route to it. -/
  queued : ∀ id home, s.home? id = some home → ∀ thread ∈ home.senders,
    (s.routesOf thread home.recycler).lookup id = some .queued
  distinct : ∀ id home, s.home? id = some home → home.senders.Nodup

theorem linked_create (configs : Array RecyclerConfig) : (create configs).Linked where
  senders := List.nodup_nil
  routes x hx := absurd hx (by simp [create])
  leads x hx := absurd hx (by simp [create])
  queued id home hHome := absurd hHome (by simp [create, home?])
  distinct id home hHome := absurd hHome (by simp [create, home?])

-- ---------------------------------------------------------------------------
-- The routes of a thread
-- ---------------------------------------------------------------------------

theorem routesOf_eq_getD (s : Recyclers) (thread recycler : Nat) :
    s.routesOf thread recycler = ((s.senders.find? fun x =>
      x.thread == thread && x.recycler == recycler).map (·.routes)).getD [] := by
  unfold routesOf
  cases s.senders.find? fun x => x.thread == thread && x.recycler == recycler <;> rfl

/-- The routes of a thread are those of a sender, if there are any. -/
theorem routesOf_cases (s : Recyclers) (thread recycler : Nat) :
    s.routesOf thread recycler = [] ∨ ∃ x ∈ s.senders, x.thread = thread ∧
      x.recycler = recycler ∧ s.routesOf thread recycler = x.routes := by
  unfold routesOf
  split
  · rename_i x hFind
    have hKey := List.find?_some hFind
    simp only [Bool.and_eq_true, beq_iff_eq] at hKey
    exact .inr ⟨x, List.mem_of_find?_eq_some hFind, hKey.1, hKey.2, rfl⟩
  · exact .inl rfl

theorem Linked.nodup_routesOf (h : s.Linked) (thread recycler : Nat) :
    ((s.routesOf thread recycler).map (·.1)).Nodup := by
  rcases s.routesOf_cases thread recycler with hNil | ⟨x, hx, -, -, hSame⟩
  · rw [hNil]
    exact List.nodup_nil
  · rw [hSame]
    exact h.routes x hx

theorem Linked.leads_routesOf (h : s.Linked) {route : Nat × Route}
    (hRoute : route ∈ s.routesOf thread recycler) : route.1 < s.homes.size ∧
      ∀ home, s.home? route.1 = some home → home.recycler = recycler ∧ strandedIn route.2 = [] := by
  rcases s.routesOf_cases thread recycler with hNil | ⟨x, hx, -, rfl, hSame⟩
  · rw [hNil] at hRoute
    exact absurd hRoute (by simp)
  · exact h.leads x hx route (hSame ▸ hRoute)

theorem mem_senders_setRoutes (hx : x ∈ (s.setRoutes thread recycler routes).senders) :
    (x ∈ s.senders ∧ (x.thread, x.recycler) ≠ (thread, recycler)) ∨
      x = ⟨thread, recycler, routes⟩ := by
  rcases List.mem_append.mp hx with hOld | hNew
  · obtain ⟨hMem, hKey⟩ := List.mem_filter.mp hOld
    refine .inl ⟨hMem, fun hSame => ?_⟩
    obtain ⟨rfl, rfl⟩ := Prod.mk.inj hSame
    simp at hKey
  · exact .inr (List.mem_singleton.mp hNew)

-- ---------------------------------------------------------------------------
-- One stack or one set of routes changes
-- ---------------------------------------------------------------------------

theorem Linked.setTokens (h : s.Linked) (tokens : Tokens) (made : Nat) :
    ({ s with tokens, made } : Recyclers).Linked :=
  ⟨h.senders, h.routes, h.leads, h.queued, h.distinct⟩

/-- A stack in place of another of the same recycler, with senders that have a route to it. -/
theorem Linked.setHome (h : s.Linked) (hHome : s.home? id = some home)
    (hRecycler : home'.recycler = home.recycler)
    (hSenders : ∀ t ∈ home'.senders, t ∈ home.senders ∨
      (s.routesOf t home.recycler).lookup id = some .queued)
    (hDistinct : home'.senders.Nodup) : (s.setHome id home').Linked := by
  -- the stacks are those before, but for the one
  have hAt : ∀ other found, (s.setHome id home').home? other = some found →
      (other = id ∧ found = home') ∨ s.home? other = some found := by
    intro other found hFound
    rw [home?_setHome (lt_size_of_home? hHome)] at hFound
    split at hFound
    · rename_i hSame
      exact .inl ⟨hSame, (Option.some.inj hFound).symm⟩
    · exact .inr hFound
  refine ⟨h.senders, h.routes, fun x hx route hRoute => ?_, fun other found hFound t ht => ?_,
    fun other found hFound => ?_⟩
  · obtain ⟨hLt, hLive⟩ := h.leads x hx route hRoute
    refine ⟨(Array.size_setIfInBounds ..).symm ▸ hLt, fun found hFound => ?_⟩
    rcases hAt _ _ hFound with ⟨hSame, rfl⟩ | hBefore
    · rw [hRecycler]
      exact hLive home (hSame ▸ hHome)
    · exact hLive found hBefore
  · show (s.routesOf t found.recycler).lookup other = _
    rcases hAt _ _ hFound with ⟨rfl, rfl⟩ | hBefore
    · rw [hRecycler]
      exact (hSenders t ht).elim (h.queued _ home hHome t) fun hQueued => hQueued
    · exact h.queued other found hBefore t ht
  · rcases hAt _ _ hFound with ⟨-, rfl⟩ | hBefore
    · exact hDistinct
    · exact h.distinct other found hBefore

/-- What is on a stack is nothing to the queues towards it. -/
theorem Linked.setStack (h : s.Linked) (hHome : s.home? id = some home) (stack : Stack) :
    (s.setHome id { home with stack }).Linked :=
  h.setHome hHome rfl (fun _ ht => .inl ht) (h.distinct id home hHome)

/-- Other routes for one thread, which lead to stacks that are there and keep those with a queue. -/
theorem Linked.setRoutes (h : s.Linked) (hRoutes : (routes.map (·.1)).Nodup)
    (hLeads : ∀ route ∈ routes, route.1 < s.homes.size ∧ ∀ home,
      s.home? route.1 = some home → home.recycler = recycler ∧ strandedIn route.2 = [])
    (hQueued : ∀ id home, s.home? id = some home → home.recycler = recycler →
      thread ∈ home.senders → routes.lookup id = some .queued) :
    (s.setRoutes thread recycler routes).Linked := by
  refine ⟨?_, fun x hx => ?_, fun x hx route hRoute => ?_, fun id home hHome t ht => ?_,
    h.distinct⟩
  · rw [Recyclers.setRoutes, List.map_append]
    -- the entry of the thread was taken out before it was added
    refine List.nodup_append.mpr ⟨h.senders.sublist (List.filter_sublist.map _),
      List.nodup_singleton _, fun key hKey other hOther => ?_⟩
    rintro rfl
    obtain ⟨x, hx, rfl⟩ := List.mem_map.mp hKey
    obtain ⟨-, hNot⟩ := List.mem_filter.mp hx
    obtain ⟨hThread, hRecycler⟩ := Prod.mk.inj (List.mem_singleton.mp hOther)
    simp [hThread, hRecycler] at hNot
  · rcases mem_senders_setRoutes hx with ⟨hOld, -⟩ | rfl
    · exact h.routes x hOld
    · exact hRoutes
  · rcases mem_senders_setRoutes hx with ⟨hOld, -⟩ | rfl
    · exact h.leads x hOld route hRoute
    · exact hLeads route hRoute
  · rw [routesOf_setRoutes]
    split
    · rename_i hSame
      obtain ⟨rfl, hRecycler⟩ := hSame
      exact hQueued id home hHome hRecycler ht
    · exact h.queued id home hHome t ht

/-- Routes to stacks that are gone may be given up, and one to a stack may join that has none. -/
theorem Linked.addRoute (h : s.Linked) (hHome : s.home? id = some home)
    (hRoute : (s.routesOf thread home.recycler).lookup id = none) (way : Route)
    (hWay : strandedIn way = []) : (s.setRoutes thread home.recycler
      (s.roomyRoutes thread home.recycler ++ [(id, way)])).Linked := by
  obtain ⟨hKept, hLookup⟩ := s.pruneRoutes_frame
    (s.config home.recycler).maxDelayedQueuesPerThread (s.routesOf thread home.recycler)
  refine h.setRoutes ?_ (fun route hMem => ?_) (fun other found hFound hRecycler hSender => ?_)
  · rw [List.map_append]
    refine List.nodup_append.mpr ⟨(h.nodup_routesOf ..).sublist (hKept.map _),
      List.nodup_singleton _, fun key hKey other hOther => ?_⟩
    rintro rfl
    obtain ⟨route, hMem, rfl⟩ := List.mem_map.mp hKey
    have hNot := List.lookup_eq_none_iff.mp hRoute route (hKept.subset hMem)
    exact absurd (List.mem_singleton.mp hOther).symm (by simpa using hNot)
  · rcases List.mem_append.mp hMem with hOld | hNew
    · exact h.leads_routesOf (hKept.subset hOld)
    · obtain rfl := List.mem_singleton.mp hNew
      refine ⟨lt_size_of_home? hHome, fun found hFound => ?_⟩
      obtain rfl : home = found := Option.some.inj (hHome.symm.trans hFound)
      exact ⟨rfl, hWay⟩
  · have hQueued := h.queued other found hFound thread hSender
    rw [hRecycler] at hQueued
    rw [List.lookup_append, roomyRoutes, hLookup other (by rw [hFound]; rfl), hQueued]
    rfl

theorem Linked.pruneRoutes (h : s.Linked) (thread recycler : Nat) :
    (s.setRoutes thread recycler (s.roomyRoutes thread recycler)).Linked := by
  obtain ⟨hKept, hLookup⟩ := s.pruneRoutes_frame
    (s.config recycler).maxDelayedQueuesPerThread (s.routesOf thread recycler)
  refine h.setRoutes ((h.nodup_routesOf ..).sublist (hKept.map _))
    (fun route hMem => h.leads_routesOf (hKept.subset hMem))
    (fun other found hFound hRecycler hSender => ?_)
  have hQueued := h.queued other found hFound thread hSender
  rw [hRecycler] at hQueued
  rw [roomyRoutes, hLookup other (by rw [hFound]; rfl), hQueued]

/-- A thread that has no route to a stack writes no queue towards it. -/
theorem Linked.not_mem_senders (h : s.Linked) (hHome : s.home? id = some home)
    (hRoute : (s.routesOf thread home.recycler).lookup id = none) : thread ∉ home.senders := by
  intro hSender
  rw [h.queued id home hHome thread hSender] at hRoute
  exact absurd hRoute (by simp)

/-- Wherever an item goes, queues and routes still belong together. -/
theorem Linked.offers {kept : Bool} (h : s.Linked) (hOffers : Offers s acc id p kept s') :
    s'.Linked := by
  cases hOffers with
  | stays => exact h
  | here hHome hThread hFree => exact (h.setStack hHome _).setTokens _ _
  | adds hHome hThread hAway hRoute hAdd =>
    obtain ⟨-, hSenders⟩ := Home.entries_addFrom? (h.distinct _ _ hHome) hAdd
    obtain ⟨queue, queue', budget, -, -, rfl⟩ := Home.addFrom?_eq_some hAdd
    exact h.setHome hHome rfl (fun t ht => .inl (hSenders ▸ ht))
      (hSenders ▸ h.distinct _ _ hHome)
  | refuses hHome hThread hAway hRoute hMany => exact h.addRoute hHome hRoute .refusing rfl
  | prunes hHome hThread hAway hRoute hFew hOpen => exact h.pruneRoutes _ _
  | @opens home home' thread hHome hThread hAway hRoute hFew hOpen =>
    -- the route is there before the queue
    have hRouted := h.addRoute hHome hRoute .queued rfl
    have hNew := h.not_mem_senders hHome hRoute
    obtain ⟨-, hSenders⟩ := Home.entries_openFrom? hOpen
    obtain ⟨queue, budget, -, rfl⟩ := Home.openFrom?_eq_some hOpen
    refine hRouted.setHome hHome rfl (fun t ht => ?_) ?_
    · rw [hSenders] at ht
      rcases List.mem_append.mp ht with hOld | hLast
      · exact .inl hOld
      · obtain rfl := List.mem_singleton.mp hLast
        obtain ⟨-, hLookup⟩ := s.pruneRoutes_frame
          (s.config home.recycler).maxDelayedQueuesPerThread (s.routesOf t home.recycler)
        refine .inr ?_
        rw [routesOf_setRoutes, if_pos ⟨rfl, rfl⟩, List.lookup_append, roomyRoutes,
          hLookup id (by rw [hHome]; rfl), hRoute]
        simp
    · rw [hSenders]
      refine List.nodup_append.mpr ⟨h.distinct _ _ hHome, List.nodup_singleton _, ?_⟩
      rintro t ht other hOther rfl
      exact hNew (List.mem_singleton.mp hOther ▸ ht)

-- ---------------------------------------------------------------------------
-- A thread leaves
-- ---------------------------------------------------------------------------

theorem home?_leave (s : Recyclers) (thread id : Nat) : (s.leave thread).home? id =
    (s.home? id).bind fun home =>
      if home.thread = thread then none else some (home.forgetSender thread) := by
  rw [home?, leave, Array.getElem?_map, home?]
  cases s.homes[id]? with
  | none => rfl
  | some home => rfl

theorem home?_leave_eq_some (hHome : (s.leave thread).home? id = some home') :
    ∃ home, s.home? id = some home ∧ home.thread ≠ thread ∧ home' = home.forgetSender thread := by
  rw [home?_leave, Option.bind_eq_some_iff] at hHome
  obtain ⟨home, hBefore, hAfter⟩ := hHome
  split at hAfter
  · exact absurd hAfter (by simp)
  · rename_i hStays
    exact ⟨home, hBefore, hStays, (Option.some.inj hAfter).symm⟩

/-- A route of another thread is stranded if its stack is gone then, and stays as it was if not. -/
theorem routeAfterExit_of_stays (hHome : s.home? id = some home) (hStays : home.thread ≠ thread)
    (sender : Nat) (way : Route) : s.routeAfterExit thread sender (id, way) = (id, way) := by
  unfold routeAfterExit
  rw [hHome]
  cases way with
  | queued => exact if_neg hStays
  | refusing => rfl
  | stranded left => rfl

theorem fst_routeAfterExit (s : Recyclers) (thread sender : Nat) (route : Nat × Route) :
    (s.routeAfterExit thread sender route).1 = route.1 := by
  unfold routeAfterExit
  split
  · split <;> rfl
  · rfl

theorem lookup_map {f : Nat × Route → Nat × Route} (hf : ∀ route, (f route).1 = route.1)
    (routes : List (Nat × Route)) (id : Nat) :
    (routes.map f).lookup id = (routes.lookup id).map fun way => (f (id, way)).2 := by
  induction routes with
  | nil => rfl
  | cons route rest ih =>
    obtain ⟨other, way⟩ := route
    have hKey := hf (other, way)
    rw [List.map_cons, ← Prod.eta (f (other, way)), hKey, List.lookup_cons, List.lookup_cons]
    by_cases hSame : id = other
    · subst hSame
      rw [beq_self_eq_true]
      rfl
    · rw [beq_false_of_ne hSame]
      exact ih

theorem mem_senders_leave (hx : x ∈ (s.leave thread).senders) : ∃ y ∈ s.senders,
    y.thread ≠ thread ∧
      x = { y with routes := y.routes.map (s.routeAfterExit thread y.thread) } := by
  obtain ⟨y, hy, rfl⟩ := List.mem_map.mp hx
  obtain ⟨hMem, hOther⟩ := List.mem_filter.mp hy
  exact ⟨y, hMem, by simpa using hOther, rfl⟩

/-- The routes of the others are those they had, with what became of the ones to the thread that
exits. -/
theorem routesOf_leave {sender : Nat} (hStays : sender ≠ thread) (recycler : Nat) :
    (s.leave thread).routesOf sender recycler =
      (s.routesOf sender recycler).map (s.routeAfterExit thread sender) := by
  -- no entry of another thread goes
  have hOther : ∀ y : Sender, (y.thread == sender && y.recycler == recycler) = true →
      (y.thread == thread) = false := by
    intro y hy
    simp only [Bool.and_eq_true, beq_iff_eq] at hy
    simpa [hy.1] using hStays
  have hAfter : (s.leave thread).senders.find? (fun x =>
      x.thread == sender && x.recycler == recycler) = (s.senders.find? fun x =>
        x.thread == sender && x.recycler == recycler).map fun x =>
          { x with routes := x.routes.map (s.routeAfterExit thread x.thread) } := by
    rw [leave, List.find?_map]
    exact congrArg _ (find?_filter_other hOther s.senders)
  rw [routesOf_eq_getD, routesOf_eq_getD, hAfter]
  cases hFind : s.senders.find? fun y => y.thread == sender && y.recycler == recycler with
  | none => rfl
  | some y =>
    have hKey := List.find?_some hFind
    simp only [Bool.and_eq_true, beq_iff_eq] at hKey
    show y.routes.map (s.routeAfterExit thread y.thread) = _
    rw [hKey.1]
    rfl

/-- A thread exits with its stacks and its queues, and what is left belongs together. -/
theorem Linked.leave (h : s.Linked) (thread : Nat) : (s.leave thread).Linked := by
  refine ⟨?_, fun x hx => ?_, fun x hx route hRoute => ?_, fun id home' hHome t ht => ?_,
    fun id home' hHome => ?_⟩
  · rw [Recyclers.leave, List.map_map]
    exact h.senders.sublist (List.filter_sublist.map _)
  · obtain ⟨y, hy, -, rfl⟩ := mem_senders_leave hx
    rw [List.map_map, show (fun route : Nat × Route => route.1) ∘
      s.routeAfterExit thread y.thread = fun route => route.1 from
        funext fun route => fst_routeAfterExit s thread y.thread route]
    exact h.routes y hy
  · obtain ⟨y, hy, -, rfl⟩ := mem_senders_leave hx
    obtain ⟨⟨id, way⟩, hBefore, rfl⟩ := List.mem_map.mp hRoute
    obtain ⟨hLt, hLive⟩ := h.leads y hy _ hBefore
    rw [fst_routeAfterExit]
    refine ⟨by rw [Recyclers.leave, Array.size_map]; exact hLt, fun home' hHome => ?_⟩
    -- a stack that stays is not of the thread, so the routes to it stay as well
    obtain ⟨home, hAt, hStays, rfl⟩ := home?_leave_eq_some hHome
    rw [routeAfterExit_of_stays hAt hStays]
    exact hLive home hAt
  · obtain ⟨home, hAt, hStays, rfl⟩ := home?_leave_eq_some hHome
    rw [Home.senders_forgetSender, List.mem_filter] at ht
    obtain ⟨hSender, hOther⟩ := ht
    rw [routesOf_leave (by simpa using hOther), lookup_map (fst_routeAfterExit s thread t)]
    show ((s.routesOf t home.recycler).lookup id).map _ = _
    rw [h.queued id home hAt t hSender, Option.map_some, routeAfterExit_of_stays hAt hStays]
  · obtain ⟨home, hAt, -, rfl⟩ := home?_leave_eq_some hHome
    rw [Home.senders_forgetSender]
    exact (h.distinct id home hAt).filter _

-- ---------------------------------------------------------------------------
-- All moves
-- ---------------------------------------------------------------------------

/-- A new stack has no senders yet. -/
theorem Linked.enter (h : s.Linked) (thread recycler : Nat) :
    (s.ensureHome thread recycler).2.2.Linked := by
  obtain ⟨-, -, ⟨-, hSame⟩ | ⟨-, hEmpty, hPushed⟩⟩ := s.ensureHome_cases thread recycler
  · rwa [hSame]
  · rw [hPushed, hEmpty]
    -- the new stack has no queues, and there is no route to its number
    have hAt : ∀ id home, ({ s with homes := s.homes.push (some (Home.empty recycler thread
        (s.config recycler))) } : Recyclers).home? id = some home →
        (id = s.homes.size ∧ home.senders = []) ∨ s.home? id = some home := by
      intro id home hHome
      rw [home?_push] at hHome
      split at hHome
      · rename_i hNew
        obtain rfl := Option.some.inj hHome
        exact .inl ⟨hNew, rfl⟩
      · exact .inr hHome
    refine ⟨h.senders, h.routes, fun x hx route hRoute => ?_, fun id home hHome t ht => ?_,
      fun id home hHome => ?_⟩
    · obtain ⟨hLt, hLive⟩ := h.leads x hx route hRoute
      refine ⟨by rw [Array.size_push]; omega, fun home hHome => ?_⟩
      rcases hAt _ _ hHome with ⟨hNew, -⟩ | hBefore
      · exact absurd hNew (Nat.ne_of_lt hLt)
      · exact hLive home hBefore
    · rcases hAt _ _ hHome with ⟨-, hNone⟩ | hBefore
      · rw [hNone] at ht
        exact absurd ht (by simp)
      · exact h.queued id home hBefore t ht
    · rcases hAt _ _ hHome with ⟨-, hNone⟩ | hBefore
      · rw [hNone]
        exact List.nodup_nil
      · exact h.distinct id home hBefore

theorem Linked.offer (h : s.Linked) (acc : Access) (recycler : Nat) (p : Pooled) :
    (s.offer acc recycler p).2.Linked := by
  rcases s.offer_eq_or_offers acc recycler p with hSame | ⟨away, kept, -, hOffers⟩
  · rwa [hSame]
  · exact (h.setTokens _ s.made).offers hOffers

theorem Linked.look (h : s.Linked) (hHome : s.home? id = some home) : (s.look id home).Linked := by
  have hGathers := home.gathers_scavenge s.tokens
  refine (h.setHome hHome hGathers.recycler (fun t ht => ?_) ?_).setTokens _ _
  · exact .inl (hGathers.senders.mem_iff.mp ht)
  · exact hGathers.senders.nodup_iff.mpr (h.distinct id home hHome)

/-- Routes and queues always fit together. -/
theorem lasting_linked : Lasting Linked where
  enter h := h.enter _ _
  offer h := h.offer _ _ _
  look hHome h := h.look hHome
  leave h := h.leave _
  pop hHome _ h := (h.setStack hHome _).setTokens _ _
  makeFor _ h := h.setTokens _ _
  makeInert h := h.setTokens _ _

end Recyclers

end BlockPool.Recycling
