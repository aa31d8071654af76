import BlockPool.Recycling.Basic
import BlockPool.Proofs.Recycling.Home

/-!
# BlockPool — one item that is given back

An item that is given back changes its token, and then one stack, or one queue, or the routes of one
thread. Throwing an item away gives back what it carries, and so on down; what every single item
that is given back keeps, that keeps too.

* `Recyclers.Offers` — all that an item that is given back may change.
* `Recyclers.offer_cases`, `Recyclers.offer_eq_or_offers` — it is refused and changes nothing, or it
  is marked and changes that.
* `Recyclers.discard_keeps` — what throwing items away keeps.
-/

namespace BlockPool.Recycling.Recyclers

variable {s s' : Recyclers} {acc : Access} {p : Pooled} {home home' : Home}
  {id thread recycler : Nat} {routes : List (Nat × Route)}

-- ---------------------------------------------------------------------------
-- Stacks by their numbers
-- ---------------------------------------------------------------------------

theorem lt_size_of_home? (h : s.home? id = some home) : id < s.homes.size := by
  by_contra hLarge
  rw [home?, Array.getElem?_eq_none (Nat.le_of_not_lt hLarge)] at h
  exact absurd h (by simp)

theorem home?_setHome (h : id < s.homes.size) (home : Home) (other : Nat) :
    (s.setHome id home).home? other = if other = id then some home else s.home? other := by
  rw [home?, setHome, Array.getElem?_setIfInBounds]
  by_cases hSame : other = id
  · rw [if_pos hSame.symm, if_pos h, if_pos hSame]
    rfl
  · rw [if_neg (Ne.symm hSame), if_neg hSame]
    rfl

theorem home?_push (s : Recyclers) (home : Home) (other : Nat) :
    ({ s with homes := s.homes.push (some home) } : Recyclers).home? other =
      if other = s.homes.size then some home else s.home? other := by
  rw [home?, Array.getElem?_push]
  split <;> rfl

/-- The stack of a thread is there, or is made and empty. -/
theorem ensureHome_cases (s : Recyclers) (thread recycler : Nat) :
    let found := s.ensureHome thread recycler
    found.2.1.thread = thread ∧ found.2.1.recycler = recycler ∧
      ((s.home? found.1 = some found.2.1 ∧ found.2.2 = s) ∨
        (found.1 = s.homes.size ∧ found.2.1 = Home.empty recycler thread (s.config recycler) ∧
          found.2.2 = { s with homes := s.homes.push (some found.2.1) })) := by
  unfold ensureHome
  dsimp only
  split
  · rename_i id hFound
    obtain ⟨hLt, hIs, -⟩ := Array.findIdx?_eq_some_iff_getElem.mp hFound
    cases hHome : s.homes[id] with
    | none => rw [hHome] at hIs; exact absurd hIs (by simp [isHomeOf])
    | some home =>
      have hAt : s.home? id = some home := by
        rw [home?, Array.getElem?_eq_getElem hLt, hHome]
        rfl
      rw [hHome] at hIs
      simp only [isHomeOf, Bool.and_eq_true, beq_iff_eq] at hIs
      rw [hAt]
      exact ⟨hIs.1, hIs.2, .inl ⟨rfl, rfl⟩⟩
  · exact ⟨rfl, rfl, .inr ⟨rfl, rfl, rfl⟩⟩

theorem home?_ensureHome (s : Recyclers) (thread recycler : Nat) :
    (s.ensureHome thread recycler).2.2.home? (s.ensureHome thread recycler).1 =
      some (s.ensureHome thread recycler).2.1 := by
  obtain ⟨-, -, ⟨hAt, hSame⟩ | ⟨hId, -, hPushed⟩⟩ := s.ensureHome_cases thread recycler
  · rw [hSame]
    exact hAt
  · rw [hPushed, home?_push, if_pos hId]

/-- The stack of a thread is the first one that is its own. -/
theorem isHomeOf_ensureHome_of_lt (s : Recyclers) (thread recycler : Nat) {j : Nat}
    (hLt : j < (s.ensureHome thread recycler).1) :
    isHomeOf (s.home? j) thread recycler = false := by
  unfold ensureHome at hLt
  dsimp only at hLt
  split at hLt
  · rename_i id hFind
    obtain ⟨hId, -, hBefore⟩ := Array.findIdx?_eq_some_iff_getElem.mp hFind
    have hJ : j < s.homes.size := Nat.lt_trans hLt hId
    rw [home?, Array.getElem?_eq_getElem hJ]
    simpa using hBefore j hLt
  · rename_i hFind
    have hJ : j < s.homes.size := hLt
    rw [home?, Array.getElem?_eq_getElem hJ]
    exact Array.findIdx?_eq_none_iff.mp hFind _ (Array.getElem_mem hJ)

theorem ensureHome_of_first {id : Nat} (hAt : s.home? id = some home)
    (hFirst : ∀ j < id, isHomeOf (s.home? j) home.thread home.recycler = false) :
    s.ensureHome home.thread home.recycler = (id, home, s) := by
  have hHomes : ∀ {j : Nat} (hLt : j < s.homes.size), s.homes[j] = s.home? j := by
    intro j hLt
    rw [home?, Array.getElem?_eq_getElem hLt]
    rfl
  have hFind : s.homes.findIdx? (fun h => isHomeOf h home.thread home.recycler) = some id := by
    refine Array.findIdx?_eq_some_iff_getElem.mpr ⟨lt_size_of_home? hAt, ?_, fun j hLt => ?_⟩
    · rw [hHomes, hAt]
      simp [isHomeOf]
    · rw [hHomes, hFirst j hLt]
      simp
  unfold ensureHome
  dsimp only
  rw [hFind]
  dsimp only
  rw [hAt, Option.getD_some]

/-- It is found again in its new state. -/
theorem ensureHome_again (hThread : home'.thread = thread) (hRecycler : home'.recycler = recycler)
    (hSame : s'.homes = ((s.ensureHome thread recycler).2.2.setHome
      (s.ensureHome thread recycler).1 home').homes) :
    s'.ensureHome thread recycler = ((s.ensureHome thread recycler).1, home', s') := by
  have hBefore : ∀ j < (s.ensureHome thread recycler).1,
      isHomeOf (s.home? j) thread recycler = false :=
    fun _ hj => s.isHomeOf_ensureHome_of_lt thread recycler hj
  have hLt := lt_size_of_home? (s.home?_ensureHome thread recycler)
  have hEarlier : ∀ j < (s.ensureHome thread recycler).1,
      (s.ensureHome thread recycler).2.2.home? j = s.home? j := by
    intro j hj
    obtain ⟨-, -, ⟨-, hState⟩ | ⟨hId, -, hPushed⟩⟩ := s.ensureHome_cases thread recycler
    · rw [hState]
    · rw [hPushed, home?_push, if_neg (by omega)]
  generalize s.ensureHome thread recycler = found at *
  subst hThread hRecycler
  have hHome : ∀ j, s'.home? j = if j = found.1 then some home' else found.2.2.home? j := by
    intro j
    rw [← home?_setHome hLt, home?, hSame]
    rfl
  refine ensureHome_of_first ?_ fun j hj => ?_
  · rw [hHome, if_pos rfl]
  · rw [hHome, if_neg (Nat.ne_of_lt hj), hEarlier j hj]
    exact hBefore j hj

-- ---------------------------------------------------------------------------
-- Routes
-- ---------------------------------------------------------------------------

/-- What was filtered out is not found. -/
theorem find?_filter_self {α : Type} (p : α → Bool) (xs : List α) :
    (xs.filter fun x => !p x).find? p = none := by
  refine List.find?_eq_none.mpr fun x hx => ?_
  simpa using (List.mem_filter.mp hx).2

/-- Something else is found as before. -/
theorem find?_filter_other {α : Type} {p q : α → Bool} (h : ∀ x, q x = true → p x = false)
    (xs : List α) : (xs.filter fun x => !p x).find? q = xs.find? q := by
  induction xs with
  | nil => rfl
  | cons x rest ih =>
    cases hq : q x with
    | true =>
      rw [List.filter_cons_of_pos (by simp [h x hq]), List.find?_cons_of_pos hq,
        List.find?_cons_of_pos hq]
    | false =>
      rw [List.find?_cons_of_neg (by simp [hq]), ← ih, List.filter_cons]
      split
      · exact List.find?_cons_of_neg (by simp [hq])
      · rfl

theorem routesOf_setRoutes (s : Recyclers) (thread recycler : Nat) (routes : List (Nat × Route))
    (thread' recycler' : Nat) : (s.setRoutes thread recycler routes).routesOf thread' recycler' =
      if thread' = thread ∧ recycler' = recycler then routes else s.routesOf thread' recycler' := by
  rw [routesOf, setRoutes, List.find?_append]
  by_cases hSame : thread' = thread ∧ recycler' = recycler
  · obtain ⟨rfl, rfl⟩ := hSame
    rw [find?_filter_self, if_pos ⟨rfl, rfl⟩, Option.none_or, List.find?_cons_of_pos (by simp)]
  · have hOther : ∀ x : Sender, (x.thread == thread' && x.recycler == recycler') = true →
        (x.thread == thread && x.recycler == recycler) = false := by
      intro x hx
      simp only [Bool.and_eq_true, beq_iff_eq] at hx
      simp only [Bool.and_eq_false_imp, beq_iff_eq, beq_eq_false_iff_ne]
      rintro rfl rfl
      exact hSame ⟨hx.1.symm, hx.2.symm⟩
    rw [find?_filter_other hOther, if_neg hSame, List.find?_cons_of_neg, List.find?_nil,
      Option.or_none, routesOf]
    simp only [Bool.and_eq_true, beq_iff_eq]
    exact fun hBoth => hSame ⟨hBoth.1.symm, hBoth.2.symm⟩

theorem lookup_filter {p : Nat × Route → Bool} {id : Nat} (h : ∀ route, p (id, route) = true)
    (routes : List (Nat × Route)) : (routes.filter p).lookup id = routes.lookup id := by
  induction routes with
  | nil => rfl
  | cons route rest ih =>
    obtain ⟨other, way⟩ := route
    by_cases hSame : id = other
    · subst hSame
      rw [List.filter_cons_of_pos (h way), List.lookup_cons_self, List.lookup_cons_self]
    · rw [List.lookup_cons, beq_false_of_ne hSame, ← ih, List.filter_cons]
      split
      · rw [List.lookup_cons, beq_false_of_ne hSame]
      · rfl

/-- Only routes to stacks that are gone are given up. -/
theorem pruneRoutes_frame (s : Recyclers) (limit : Nat) (routes : List (Nat × Route)) :
    (s.pruneRoutes limit routes).1.Sublist routes ∧ ∀ id, (s.home? id).isSome = true →
      (s.pruneRoutes limit routes).1.lookup id = routes.lookup id := by
  unfold pruneRoutes
  split
  · exact ⟨List.filter_sublist, fun id hSome => lookup_filter (fun _ => hSome) routes⟩
  · exact ⟨.refl _, fun _ _ => rfl⟩

-- ---------------------------------------------------------------------------
-- Giving one item back
-- ---------------------------------------------------------------------------

/-- The routes of a thread for a recycler that are left when there must be room for one more. -/
def roomyRoutes (s : Recyclers) (thread recycler : Nat) : List (Nat × Route) :=
  (s.pruneRoutes (s.config recycler).maxDelayedQueuesPerThread (s.routesOf thread recycler)).1

/-- All that an item may change that is on its way to a stack, and whether it is kept. -/
inductive Offers (s : Recyclers) (acc : Access) (id : Nat) (p : Pooled) :
    Bool → Recyclers → Prop where
  /-- It gets nowhere. -/
  | stays : Offers s acc id p false s
  /-- The stack is of the thread itself. -/
  | here {home : Home} (hHome : s.home? id = some home) (hThread : acc.thread = some home.thread)
      (hFree : home.recycler ∉ acc.busyStacks) :
      Offers s acc id p (home.stack.push s.tokens p).1
        { s.setHome id { home with stack := (home.stack.push s.tokens p).2.1 } with
          tokens := (home.stack.push s.tokens p).2.2 }
  /-- The thread has a queue towards the stack. -/
  | adds {home home' : Home} {thread : Nat} (hHome : s.home? id = some home)
      (hThread : acc.thread = some thread) (hAway : home.thread ≠ thread)
      (hRoute : (s.routesOf thread home.recycler).lookup id = some .queued)
      (hAdd : home.addFrom? thread p = some home') : Offers s acc id p true (s.setHome id home')
  /-- The thread has as many routes as it may. -/
  | refuses {home : Home} {thread : Nat} (hHome : s.home? id = some home)
      (hThread : acc.thread = some thread) (hAway : home.thread ≠ thread)
      (hRoute : (s.routesOf thread home.recycler).lookup id = none)
      (hMany : (s.config home.recycler).maxDelayedQueuesPerThread ≤
        (s.roomyRoutes thread home.recycler).length) :
      Offers s acc id p false (s.setRoutes thread home.recycler
        (s.roomyRoutes thread home.recycler ++ [(id, .refusing)]))
  /-- The budget of the stack has no room for another queue. -/
  | prunes {home : Home} {thread : Nat} (hHome : s.home? id = some home)
      (hThread : acc.thread = some thread) (hAway : home.thread ≠ thread)
      (hRoute : (s.routesOf thread home.recycler).lookup id = none)
      (hFew : (s.roomyRoutes thread home.recycler).length <
        (s.config home.recycler).maxDelayedQueuesPerThread)
      (hOpen : home.openFrom? thread (s.config home.recycler).linkCapacity p = none) :
      Offers s acc id p false
        (s.setRoutes thread home.recycler (s.roomyRoutes thread home.recycler))
  /-- The thread opens a queue towards the stack. -/
  | opens {home home' : Home} {thread : Nat} (hHome : s.home? id = some home)
      (hThread : acc.thread = some thread) (hAway : home.thread ≠ thread)
      (hRoute : (s.routesOf thread home.recycler).lookup id = none)
      (hFew : (s.roomyRoutes thread home.recycler).length <
        (s.config home.recycler).maxDelayedQueuesPerThread)
      (hOpen : home.openFrom? thread (s.config home.recycler).linkCapacity p = some home') :
      Offers s acc id p true ((s.setHome id home').setRoutes thread home.recycler
        (s.roomyRoutes thread home.recycler ++ [(id, .queued)]))

theorem offers_offerHere (hHome : s.home? id = some home) (hThread : acc.thread = some home.thread)
    (p : Pooled) : ∃ kept, (s.offerHere acc id home p).1.answer = .ok kept ∧
      Offers s acc id p kept (s.offerHere acc id home p).2 := by
  unfold offerHere
  split
  · exact ⟨false, rfl, .stays⟩
  · rename_i hBusy
    exact ⟨_, rfl, .here hHome hThread (by simpa using hBusy)⟩

/-- An item for the stack of another thread goes by the route to it, old or new, or is dropped. -/
theorem offers_offerAway (hHome : s.home? id = some home) (hThread : acc.thread = some thread)
    (hAway : home.thread ≠ thread) (p : Pooled) :
    ∃ kept, (s.offerAway acc thread id home p).1.answer = .ok kept ∧
      Offers s acc id p kept (s.offerAway acc thread id home p).2 := by
  unfold offerAway
  split
  · exact ⟨false, rfl, .stays⟩
  · dsimp only
    split
    · rename_i hRoute
      unfold offerOnNewRoute
      dsimp only
      split
      · rename_i hMany
        exact ⟨false, rfl, .refuses hHome hThread hAway hRoute hMany⟩
      · rename_i hFew
        split
        · rename_i hOpen
          exact ⟨false, rfl, .prunes hHome hThread hAway hRoute (Nat.lt_of_not_le hFew) hOpen⟩
        · rename_i home' hOpen
          have hSame : home'.recycler = home.recycler := by
            obtain ⟨queue, budget, -, rfl⟩ := Home.openFrom?_eq_some hOpen
            rfl
          rw [hSame]
          exact ⟨true, rfl, .opens hHome hThread hAway hRoute (Nat.lt_of_not_le hFew) hOpen⟩
    · rename_i hRoute
      split
      · rename_i hAdd
        exact ⟨true, rfl, .adds hHome hThread hAway hRoute hAdd⟩
      · exact ⟨false, rfl, .stays⟩
    · exact ⟨false, rfl, .stays⟩

/-- An item that is given back brings its token to nothing, is refused, or is marked and on its way.
-/
theorem offer_cases (s : Recyclers) (acc : Access) (recycler : Nat) (p : Pooled) :
    (s.tokens.state? p.token = none ∧ (s.offer acc recycler p).1.answer = .ok false ∧
        (s.offer acc recycler p).2 = s) ∨
      ∃ state, s.tokens.state? p.token = some state ∧
        ((state.recycler ≠ recycler ∧
            (s.offer acc recycler p).1.answer = .error .foreignToken ∧
            (s.offer acc recycler p).2 = s) ∨
          (state.recycler = recycler ∧ state.recycled = true ∧
            (s.offer acc recycler p).1.answer = .error .recycledAlready ∧
            (s.offer acc recycler p).2 = s) ∨
          (state.recycler = recycler ∧ state.recycled = false ∧
            ∃ kept, (s.offer acc recycler p).1.answer = .ok kept ∧
              Offers { s with tokens := s.tokens.markRecycled p.token } acc state.home p kept
                (s.offer acc recycler p).2)) := by
  unfold offer
  split
  · rename_i hState
    exact .inl ⟨hState, rfl, rfl⟩
  · rename_i state hState
    refine .inr ⟨state, hState, ?_⟩
    split
    · rename_i hForeign
      exact .inl ⟨hForeign, rfl, rfl⟩
    · rename_i hOwn
      have hRecycler : state.recycler = recycler := Decidable.not_not.mp hOwn
      split
      · rename_i hBack
        exact .inr (.inl ⟨hRecycler, hBack, rfl, rfl⟩)
      -- the token is marked, and the item goes to its own thread's stack or away
      · rename_i hOut
        refine .inr (.inr ⟨hRecycler, by simpa using hOut, ?_⟩)
        dsimp only
        split
        · rename_i home thread hHome hThread
          split
          · rename_i hHere
            exact offers_offerHere hHome (hHere ▸ hThread) p
          · rename_i hAway
            exact offers_offerAway hHome hThread hAway p
        · exact ⟨false, rfl, .stays⟩

/-- An item that is given back changes nothing, or was out and is on its way. -/
theorem offer_eq_or_offers (s : Recyclers) (acc : Access) (recycler : Nat) (p : Pooled) :
    (s.offer acc recycler p).2 = s ∨ ∃ home kept, s.tokens.Tells p.token recycler home false ∧
      Offers { s with tokens := s.tokens.markRecycled p.token } acc home p kept
        (s.offer acc recycler p).2 := by
  obtain ⟨-, -, hSame⟩ | ⟨state, hState, ⟨-, -, hSame⟩ | ⟨-, -, -, hSame⟩ |
    ⟨hOwn, hOut, kept, -, hOffers⟩⟩ := s.offer_cases acc recycler p
  · exact .inl hSame
  · exact .inl hSame
  · exact .inl hSame
  · have hTells := Tokens.tells_of_state? hState
    rw [hOwn, hOut] at hTells
    exact .inr ⟨state.home, kept, hTells, hOffers⟩

/-- An item that is out is on its way to the stack of another thread. -/
theorem offer_eq_offerAway (hOut : s.tokens.Tells p.token recycler id false)
    (hHome : s.home? id = some home) (hThread : acc.thread = some thread)
    (hAway : home.thread ≠ thread) : s.offer acc recycler p =
      offerAway { s with tokens := s.tokens.markRecycled p.token } acc thread id home p := by
  obtain ⟨keptBefore, hState⟩ := hOut
  have hMarked : ({ s with tokens := s.tokens.markRecycled p.token } : Recyclers).home? id =
      some home := hHome
  unfold offer
  rw [hState]
  dsimp only
  rw [if_neg (by simp), if_neg (by simp), hMarked, hThread]
  exact if_neg hAway

-- ---------------------------------------------------------------------------
-- Throwing items away
-- ---------------------------------------------------------------------------

/-- A property of the place of a call that giving an item back does not take from it. -/
def Stable (Q : Access → Prop) : Prop :=
  ∀ s acc recycler p, Q acc → Q (offer s acc recycler p).1.access

variable {Q : Access → Prop} {P : Recyclers → Prop}

theorem discardWith_keeps {evict : Recyclers → Access → List Pooled → Recyclers} (hQ : Stable Q)
    (hOffer : ∀ s acc recycler p, Q acc → P s → P (s.offer acc recycler p).2)
    (hEvict : ∀ s acc evicted, Q acc → P s → P (evict s acc evicted)) (item : Item)
    (hAcc : Q acc) (h : P s) : P (discardWith evict item s acc) := by
  induction item generalizing s acc with
  | plain id => exact h
  | carrying id inner token ih =>
    have hNext := hQ s acc (s.recyclerOf token) ⟨inner, token⟩ hAcc
    have hOffered := hOffer s acc (s.recyclerOf token) ⟨inner, token⟩ hAcc h
    have hEvicted := hEvict _ _ (s.offer acc (s.recyclerOf token) ⟨inner, token⟩).1.evicted
      hNext hOffered
    simp only [discardWith]
    split
    · exact hEvicted
    · exact ih hNext hEvicted

theorem discardWithin_keeps (hQ : Stable Q)
    (hOffer : ∀ s acc recycler p, Q acc → P s → P (s.offer acc recycler p).2) (depth : Nat)
    (item : Item) (hAcc : Q acc) (h : P s) : P (discardWithin depth item s acc) := by
  induction depth generalizing s acc item with
  | zero => exact discardWith_keeps hQ hOffer (fun _ _ _ _ h => h) item hAcc h
  | succ depth ih =>
    refine discardWith_keeps hQ hOffer (fun s acc evicted hAcc h => ?_) item hAcc h
    -- what is evicted is thrown away one item after the other
    induction evicted generalizing s with
    | nil => exact h
    | cons p rest ihRest => exact ihRest _ (ih p.item hAcc h)

/-- What giving a single item back keeps, throwing any away keeps. -/
theorem discard_keeps (hQ : Stable Q)
    (hOffer : ∀ s acc recycler p, Q acc → P s → P (s.offer acc recycler p).2) (item : Item)
    (hAcc : Q acc) (h : P s) : P (s.discard acc item) :=
  discardWithin_keeps hQ hOffer _ item hAcc h

theorem discardAll_keeps (hQ : Stable Q)
    (hOffer : ∀ s acc recycler p, Q acc → P s → P (s.offer acc recycler p).2)
    (items : List Pooled) (hAcc : Q acc) (h : P s) : P (s.discardAll acc items) := by
  induction items generalizing s with
  | nil => exact h
  | cons p rest ih => exact ih (discard_keeps hQ hOffer p.item hAcc h)

-- ---------------------------------------------------------------------------
-- A stack that is in use
-- ---------------------------------------------------------------------------

/-- A call of a thread that uses its stack for a recycler. -/
def UsesStack (thread recycler : Nat) (acc : Access) : Prop :=
  acc.thread = some thread ∧ recycler ∈ acc.busyStacks

/-- What a call uses it goes on using. -/
theorem stable_usesStack (thread recycler : Nat) : Stable (UsesStack thread recycler) := by
  -- along every path a call only adds to what is in use
  intro s acc other p hUses
  have hStack : ∀ r, UsesStack thread recycler (acc.usingStack r) := fun r =>
    ⟨hUses.1, List.mem_cons_of_mem _ hUses.2⟩
  have hRoutes : ∀ r, UsesStack thread recycler (acc.usingRoutes r) := fun _ => hUses
  unfold offer
  split
  · exact hUses
  · split
    · exact hUses
    · split
      · exact hUses
      · dsimp only
        split
        · split
          · unfold offerHere
            split
            · exact hUses
            · exact hStack _
          · unfold offerAway
            split
            · exact hUses
            · dsimp only
              split
              · unfold offerOnNewRoute
                dsimp only
                split
                · exact hRoutes _
                · split
                  · exact hRoutes _
                  · exact hRoutes _
              · split <;> exact hRoutes _
              · exact hRoutes _
        · exact hUses

theorem stable_true : Stable fun _ => True := fun _ _ _ _ h => h

/-- The stack that a call uses stays as it is, whatever is given back from within. -/
theorem home?_offer_of_usesStack (hUses : UsesStack home.thread home.recycler acc)
    (hHome : s.home? id = some home) (recycler : Nat) (p : Pooled) :
    (s.offer acc recycler p).2.home? id = some home := by
  rcases s.offer_eq_or_offers acc recycler p with hSame | ⟨target, kept, -, hOffers⟩
  · rwa [hSame]
  · -- another stack changes, as this one is busy and its own thread does not write to it from afar
    have hOther : ∀ {other : Home}, s.home? target = some other →
        (other.thread = home.thread → other.recycler = home.recycler → False) →
        ∀ changed, (s.setHome target changed).home? id = some home := by
      intro other hAt hNot changed
      rw [home?_setHome (lt_size_of_home? hAt), if_neg, hHome]
      rintro rfl
      obtain rfl : home = other := Option.some.inj (hHome.symm.trans hAt)
      exact hNot rfl rfl
    generalize (s.offer acc recycler p).2 = after at hOffers
    cases hOffers with
    | stays => exact hHome
    | here hAt hThread hFree =>
      refine hOther hAt (fun _ hRecycler => hFree ?_) _
      exact hRecycler ▸ hUses.2
    | adds hAt hThread hAway hRoute hAdd =>
      refine hOther hAt (fun hSame _ => hAway ?_) _
      exact hSame.trans (Option.some.inj (hUses.1.symm.trans hThread))
    | refuses => exact hHome
    | prunes => exact hHome
    | opens hAt hThread hAway hRoute hFew hOpen =>
      refine hOther hAt (fun hSame _ => hAway ?_) _
      exact hSame.trans (Option.some.inj (hUses.1.symm.trans hThread))

/-- So it does when items are thrown away from within. -/
theorem home?_discardAll_of_usesStack (hUses : UsesStack home.thread home.recycler acc)
    (hHome : s.home? id = some home) (items : List Pooled) :
    (s.discardAll acc items).home? id = some home :=
  discardAll_keeps (P := fun s => s.home? id = some home)
    (stable_usesStack home.thread home.recycler)
    (fun _ _ recycler p hUses hHome => home?_offer_of_usesStack hUses hHome recycler p) items
    hUses hHome

end BlockPool.Recycling.Recyclers
