import BlockPool.Proofs.Recycling.Links
import Mathlib.Data.List.Flatten

/-!
# BlockPool — what waits for a stack

An item that was kept waits for the stack it belongs to: on it, in a queue towards it, or, when the
stack is gone, in what is left of such a queue at the thread that wrote it. Every move takes some of
these items away, or adds the one that is given back; none puts an item in two places.

* `Recyclers.waitingFor` — the items that wait for a stack.
* `Recyclers.Linked.waitingFor_offers`, `Recyclers.waitingFor_look`,
  `Recyclers.Linked.waitingFor_leave` — what moves do with them.
-/

namespace BlockPool.Recycling.Recyclers

variable {s s' : Recyclers} {acc : Access} {p : Pooled} {home home' : Home}
  {id other thread recycler : Nat} {routes : List (Nat × Route)} {x : Sender}

/-- What is stranded on a route, if that led to a given stack. -/
def strandedOn (id : Nat) (route : Nat × Route) : List Pooled :=
  if route.1 = id then strandedIn route.2 else []

/-- The items that are stranded on their way to a stack. -/
def strandedFor (s : Recyclers) (id : Nat) : List Pooled :=
  s.senders.flatMap fun x => x.routes.flatMap (strandedOn id)

/-- The items that wait for a stack. -/
def waitingFor (s : Recyclers) (id : Nat) : List Pooled :=
  ((s.home? id).map Home.entries).getD [] ++ s.strandedFor id

theorem waitingFor_of_home? (h : s.home? id = some home) :
    s.waitingFor id = home.entries ++ s.strandedFor id := by
  rw [waitingFor, h]
  rfl

theorem waitingFor_of_none (h : s.home? id = none) : s.waitingFor id = s.strandedFor id := by
  rw [waitingFor, h]
  rfl

theorem strandedOn_of_ne {route : Nat × Route} (h : route.1 ≠ id) : strandedOn id route = [] :=
  if_neg h

/-- Nothing is stranded on its way to a stack that is there. -/
theorem Linked.strandedFor_eq_nil (h : s.Linked)
    (hLive : s.homes.size ≤ id ∨ (s.home? id).isSome = true) : s.strandedFor id = [] := by
  refine List.flatMap_eq_nil_iff.mpr fun x hx => List.flatMap_eq_nil_iff.mpr fun route hRoute => ?_
  by_cases hSame : route.1 = id
  · obtain ⟨hLt, hLeads⟩ := h.leads x hx route hRoute
    rw [strandedOn, if_pos hSame]
    rcases hLive with hNone | hSome
    · omega
    · obtain ⟨home, hHome⟩ := Option.isSome_iff_exists.mp hSome
      exact (hLeads home (hSame ▸ hHome)).2
  · exact strandedOn_of_ne hSame

-- ---------------------------------------------------------------------------
-- One stack or one set of routes changes
-- ---------------------------------------------------------------------------

theorem waitingFor_setHome (h : s.home? id = some home) (home' : Home) (other : Nat) :
    (s.setHome id home').waitingFor other =
      if other = id then home'.entries ++ s.strandedFor id else s.waitingFor other := by
  rw [waitingFor, home?_setHome (lt_size_of_home? h)]
  split
  · rename_i hSame
    rw [hSame]
    rfl
  · rfl

/-- Other routes of a thread, with nothing stranded on them that was not before. -/
theorem waitingFor_setRoutes (h : ∀ id, (routes.flatMap (strandedOn id)).Sublist
      ((s.routesOf thread recycler).flatMap (strandedOn id))) (id : Nat) :
    ((s.setRoutes thread recycler routes).waitingFor id).Subperm (s.waitingFor id) := by
  have hStranded : ((s.setRoutes thread recycler routes).strandedFor id).Subperm
      (s.strandedFor id) := by
    let own := fun x : Sender => x.thread == thread && x.recycler == recycler
    have hSplit := (List.filter_append_perm own s.senders).flatMap_right
      fun x => x.routes.flatMap (strandedOn id)
    have hOwn : ((s.routesOf thread recycler).flatMap (strandedOn id)).Sublist
        ((s.senders.filter own).flatMap fun x => x.routes.flatMap (strandedOn id)) := by
      rcases s.routesOf_cases thread recycler with hNil | ⟨x, hx, hThread, hRecycler, hSame⟩
      · rw [hNil]
        exact List.nil_sublist _
      · have hMem : x ∈ s.senders.filter own :=
          List.mem_filter.mpr ⟨hx, by simp [own, hThread, hRecycler]⟩
        rw [hSame]
        have hOne := (List.singleton_sublist.mpr hMem).flatMap
          fun x => x.routes.flatMap (strandedOn id)
        rwa [List.flatMap_singleton] at hOne
    refine List.Subperm.trans ?_ hSplit.subperm
    rw [strandedFor, Recyclers.setRoutes, List.flatMap_append, List.flatMap_append,
      List.flatMap_singleton]
    refine List.perm_append_comm.subperm.trans ?_
    exact ((h id).trans hOwn).subperm.append (List.Subperm.refl _)
  exact (List.Subperm.refl _).append hStranded

theorem sublist_strandedOn_roomyRoutes (s : Recyclers) (thread recycler : Nat) (way : Route)
    (hWay : strandedIn way = []) (other id : Nat) :
    ((s.roomyRoutes thread recycler ++ [(other, way)]).flatMap (strandedOn id)).Sublist
      ((s.routesOf thread recycler).flatMap (strandedOn id)) := by
  have hNone : strandedOn id (other, way) = [] := by
    unfold strandedOn
    split
    · exact hWay
    · rfl
  rw [List.flatMap_append, List.flatMap_singleton, hNone, List.append_nil]
  exact (s.pruneRoutes_frame _ _).1.flatMap _

/-- An item on its way to a stack joins those that wait for it, or does not. -/
theorem Linked.waitingFor_offers {kept : Bool} (h : s.Linked)
    (hOffers : Offers s acc id p kept s') (other : Nat) :
    (s'.waitingFor other).Subperm (if other = id then p :: s.waitingFor id
      else s.waitingFor other) := by
  -- what waits besides the item, with the item
  have hJoins : ∀ {r : Recyclers}, (r.waitingFor other).Subperm (s.waitingFor other) →
      (r.waitingFor other).Subperm (if other = id then p :: s.waitingFor id
        else s.waitingFor other) := by
    intro r hLess
    split
    · rename_i hSame
      subst hSame
      exact hLess.trans (List.Subperm.cons_self)
    · exact hLess
  -- a stack changes, and with it only what waits there
  have hSets : ∀ {home home' : Home}, s.home? id = some home →
      home'.entries.Subperm (p :: home.entries) →
      ((s.setHome id home').waitingFor other).Subperm (if other = id then p :: s.waitingFor id
        else s.waitingFor other) := by
    intro home home' hHome hEntries
    rw [waitingFor_setHome hHome]
    split
    · rw [waitingFor_of_home? hHome]
      exact hEntries.append (List.Subperm.refl _)
    · exact List.Subperm.refl _
  cases hOffers with
  | stays => exact hJoins (List.Subperm.refl _)
  | @here home hHome hThread hFree =>
    refine hSets hHome ?_
    obtain ⟨hEntries, -⟩ := home.stack.push_frame s.tokens p
    rw [Home.entries, hEntries]
    split
    · exact List.Subperm.refl _
    · exact List.Subperm.cons_self
  | adds hHome hThread hAway hRoute hAdd =>
    exact hSets hHome (Home.entries_addFrom? (h.distinct _ _ hHome) hAdd).1.subperm
  | @refuses home thread hHome hThread hAway hRoute hMany =>
    have hStranded := sublist_strandedOn_roomyRoutes s thread home.recycler .refusing rfl id
    exact hJoins (waitingFor_setRoutes hStranded other)
  | prunes hHome hThread hAway hRoute hFew hOpen =>
    refine hJoins (waitingFor_setRoutes (fun id => ?_) other)
    exact (s.pruneRoutes_frame _ _).1.flatMap _
  | @opens home home' thread hHome hThread hAway hRoute hFew hOpen =>
    have hStranded := sublist_strandedOn_roomyRoutes s thread home.recycler .queued rfl id
    refine List.Subperm.trans ?_ (hSets hHome (Home.entries_openFrom? hOpen).1.subperm)
    exact waitingFor_setRoutes (s := s.setHome id home') hStranded other

/-- A look at the queues takes items away only. -/
theorem waitingFor_look (h : s.home? id = some home) (other : Nat) :
    ((s.look id home).waitingFor other).Subperm (s.waitingFor other) := by
  show ((s.setHome id _).waitingFor other).Subperm _
  rw [waitingFor_setHome h]
  split
  · rename_i hSame
    subst hSame
    rw [waitingFor_of_home? h]
    have hItems := (home.gathers_scavenge s.tokens).items
    exact ((List.sublist_append_right ..).subperm.trans hItems).append (List.Subperm.refl _)
  · exact List.Subperm.refl _

/-- A new stack has nothing that waits for it. -/
theorem Linked.waitingFor_enter (h : s.Linked) (thread recycler id : Nat) :
    (s.ensureHome thread recycler).2.2.waitingFor id = s.waitingFor id := by
  obtain ⟨-, -, ⟨-, hSame⟩ | ⟨-, hEmpty, hPushed⟩⟩ := s.ensureHome_cases thread recycler
  · rw [hSame]
  · rw [hPushed, hEmpty, waitingFor, home?_push]
    split
    · rename_i hNew
      have hNone : s.strandedFor id = [] := h.strandedFor_eq_nil (.inl (by omega))
      have hGone : s.home? id = none := by
        rw [home?, Array.getElem?_eq_none (by omega)]
        rfl
      rw [waitingFor_of_none hGone, hNone]
      exact hNone
    · rfl

-- ---------------------------------------------------------------------------
-- A thread leaves
-- ---------------------------------------------------------------------------

/-- What several routes have for one stack, the one route to it has. -/
theorem flatMap_of_nodup {f : Nat × Route → List Pooled} (hNodup : (routes.map (·.1)).Nodup)
    (hf : ∀ route, route.1 ≠ id → f route = []) :
    routes.flatMap f = ((routes.lookup id).map fun way => f (id, way)).getD [] := by
  induction routes with
  | nil => rfl
  | cons route rest ih =>
    obtain ⟨other, way⟩ := route
    obtain ⟨hNot, hRest⟩ := List.nodup_cons.mp hNodup
    rw [List.flatMap_cons, List.lookup_cons]
    by_cases hSame : id = other
    · subst hSame
      have hNone : rest.flatMap f = [] := List.flatMap_eq_nil_iff.mpr fun route hRoute =>
        hf route fun hEq => hNot (List.mem_map.mpr ⟨route, hRoute, hEq⟩)
      rw [beq_self_eq_true, hNone, List.append_nil]
      rfl
    · rw [beq_false_of_ne hSame, hf (other, way) (Ne.symm hSame), List.nil_append]
      exact ih hRest

/-- The queue that is left to a thread when the stack is gone that the queue leads to. -/
def queueLeft (home : Home) (id : Nat) (x : Sender) : Option Inbound :=
  match x.routes.lookup id with
  | some .queued => home.inbound.find? fun i => i.sender == some x.thread
  | _ => none

/-- What is stranded at a thread waited in its queue. -/
theorem Linked.sublist_queueLeft (h : s.Linked) (hHome : s.home? id = some home)
    (hx : x ∈ s.senders) : ((x.routes.map (s.routeAfterExit home.thread x.thread)).flatMap
      (strandedOn id)).Sublist ((queueLeft home id x).toList.flatMap (·.queue.waiting)) := by
  -- a thread has one route to the stack at most
  rw [List.flatMap_map, flatMap_of_nodup (h.routes x hx) fun route hNe => strandedOn_of_ne
    ((fst_routeAfterExit s home.thread x.thread route).symm ▸ hNe)]
  unfold queueLeft
  cases hLookup : x.routes.lookup id with
  | none => exact List.nil_sublist _
  | some way =>
    obtain ⟨before, after, hSplit, -⟩ := List.lookup_eq_some_iff.mp hLookup
    have hLeads := (h.leads x hx (id, way) (by simp [hSplit])).2 home hHome
    rw [Option.map_some, Option.getD_some, routeAfterExit, hHome]
    cases way with
    | refusing =>
      rw [strandedOn, if_pos rfl]
      exact List.nil_sublist _
    | stranded left =>
      rw [strandedOn, if_pos rfl, hLeads.2]
      exact List.nil_sublist _
    | queued =>
      show (strandedOn id (if home.thread = home.thread then
        (id, .stranded (home.leftTo x.thread)) else (id, .queued))).Sublist _
      rw [if_pos rfl, strandedOn, if_pos rfl]
      show (home.leftTo x.thread).Sublist _
      rw [Home.leftTo, Home.queueFrom?]
      cases home.inbound.find? fun i => i.sender == some x.thread with
      | none => exact List.nil_sublist _
      | some i =>
        rw [Option.toList_some, List.flatMap_singleton]
        exact i.queue.waiting_back_sublist

/-- No queue is left to two threads. -/
theorem Linked.subperm_queuesLeft (h : s.Linked) (hHome : s.home? id = some home)
    (p : Sender → Bool) : ((s.senders.filter p).filterMap (queueLeft home id)).Subperm
      home.inbound := by
  have hFound : ∀ {x : Sender} {i : Inbound}, queueLeft home id x = some i →
      i ∈ home.inbound ∧ i.sender = some x.thread ∧ x.routes.lookup id = some .queued := by
    intro x i hLeft
    unfold queueLeft at hLeft
    split at hLeft
    · rename_i hLookup
      have hSender := List.find?_some hLeft
      exact ⟨List.mem_of_find?_eq_some hLeft, by simpa using hSender, hLookup⟩
    · exact absurd hLeft (by simp)
  refine List.Nodup.subperm ?_ fun i hi => ?_
  · refine List.pairwise_filterMap.mpr ?_
    have hKeys := (List.pairwise_map.mp h.senders).sublist (List.filter_sublist (p := p))
    refine hKeys.imp_of_mem fun {x y} hx hy hNe i hi j hj => ?_
    -- two threads with one queue would be one, and both write for the recycler of the stack
    rintro rfl
    obtain ⟨-, hxThread, hxLookup⟩ := hFound hi
    obtain ⟨-, hyThread, hyLookup⟩ := hFound hj
    have hRecycler : ∀ z ∈ s.senders.filter p, z.routes.lookup id = some .queued →
        home.recycler = z.recycler := by
      intro z hz hLookup
      obtain ⟨before, after, hSplit, -⟩ := List.lookup_eq_some_iff.mp hLookup
      exact ((h.leads z (List.mem_filter.mp hz).1 (id, .queued) (by simp [hSplit])).2 home hHome).1
    have hThreads := Option.some.inj (hxThread.symm.trans hyThread)
    have hRecyclers := (hRecycler x hx hxLookup).symm.trans (hRecycler y hy hyLookup)
    exact hNe (Prod.ext hThreads hRecyclers)
  · obtain ⟨x, -, hLeft⟩ := List.mem_filterMap.mp hi
    exact (hFound hLeft).1

/-- The items that are stranded when a stack is gone waited in the queues towards it. -/
theorem Linked.strandedFor_leave (h : s.Linked) (hHome : s.home? id = some home) :
    ((s.leave home.thread).strandedFor id).Subperm home.entries := by
  have hSenders : ∀ xs : List Sender, (∀ x ∈ xs, x ∈ s.senders) →
      (xs.flatMap fun x => (x.routes.map (s.routeAfterExit home.thread x.thread)).flatMap
        (strandedOn id)).Sublist
          ((xs.filterMap (queueLeft home id)).flatMap (·.queue.waiting)) := by
    intro xs hIn
    induction xs with
    | nil => exact List.Sublist.refl _
    | cons x rest ih =>
      have hOne := h.sublist_queueLeft hHome (hIn x List.mem_cons_self)
      have hRest := ih fun y hy => hIn y (List.mem_cons_of_mem _ hy)
      rw [List.flatMap_cons, List.filterMap_cons]
      cases hLeft : queueLeft home id x with
      | none =>
        rw [hLeft] at hOne
        exact hOne.append hRest
      | some i =>
        rw [hLeft, Option.toList_some, List.flatMap_singleton] at hOne
        exact hOne.append hRest
  rw [strandedFor, Recyclers.leave, List.flatMap_map]
  refine (hSenders _ fun x hx => (List.mem_filter.mp hx).1).subperm.trans ?_
  obtain ⟨queues, hPerm, hSub⟩ := h.subperm_queuesLeft hHome fun x => !(x.thread == home.thread)
  refine (hPerm.symm.flatMap_right _).subperm.trans ((hSub.flatMap _).trans ?_).subperm
  exact List.sublist_append_right ..

/-- Where a route to a stack stays as it is, so does what is stranded on it. -/
theorem strandedFor_leave_sublist (h : ∀ sender way, s.routeAfterExit thread sender (id, way) =
    (id, way)) : ((s.leave thread).strandedFor id).Sublist (s.strandedFor id) := by
  have hSame : ∀ sender route, strandedOn id (s.routeAfterExit thread sender route) =
      strandedOn id route := by
    intro sender route
    by_cases hId : route.1 = id
    · obtain ⟨other, way⟩ := route
      obtain rfl : other = id := hId
      rw [h]
    · rw [strandedOn_of_ne hId, strandedOn_of_ne]
      rwa [fst_routeAfterExit]
  rw [strandedFor, Recyclers.leave, List.flatMap_map]
  simp only [List.flatMap_map, hSame]
  exact List.filter_sublist.flatMap _

/-- When a thread leaves, items are taken away only: those of its stacks, but for what is stranded
on the way there, and those that were stranded on its own routes. -/
theorem Linked.waitingFor_leave (h : s.Linked) (thread id : Nat) :
    ((s.leave thread).waitingFor id).Subperm (s.waitingFor id) := by
  cases hHome : s.home? id with
  | none =>
    have hGone : (s.leave thread).home? id = none := by rw [home?_leave, hHome]; rfl
    rw [waitingFor_of_none hHome, waitingFor_of_none hGone]
    refine (strandedFor_leave_sublist fun sender way => ?_).subperm
    unfold routeAfterExit
    rw [hHome]
    cases way <;> rfl
  | some home =>
    rw [waitingFor_of_home? hHome]
    by_cases hLeaves : home.thread = thread
    · have hGone : (s.leave thread).home? id = none := by
        rw [home?_leave, hHome, Option.bind_some, if_pos hLeaves]
      subst hLeaves
      rw [waitingFor_of_none hGone]
      exact (h.strandedFor_leave hHome).trans (List.sublist_append_left ..).subperm
    · have hStays : (s.leave thread).home? id = some (home.forgetSender thread) := by
        rw [home?_leave, hHome, Option.bind_some, if_neg hLeaves]
      rw [waitingFor_of_home? hStays, Home.entries_forgetSender]
      refine (List.Subperm.refl _).append (strandedFor_leave_sublist fun sender way => ?_).subperm
      exact routeAfterExit_of_stays hHome hLeaves sender way

end BlockPool.Recycling.Recyclers
