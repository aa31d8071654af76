import BlockPool.Proofs.Recycling.Links

/-!
# BlockPool — every single stack

Much of what holds of a stack concerns nothing but the stack and the queues towards it. Such a
property holds of all stacks in every state if a new stack has it and no change of a stack takes it
away.

* `Recyclers.HomeKept` — what every change of a stack keeps.
* `Recyclers.HomeKept.lasting` — then all stacks have it, always.
-/

namespace BlockPool.Recycling.Recyclers

variable {s s' : Recyclers} {p : Pooled} {home home' : Home} {id : Nat} {acc : Access}
  {config : Nat → RecyclerConfig} {R : Home → Prop}

/-- A property that a new stack has and that every change of a stack keeps. -/
structure HomeKept (config : Nat → RecyclerConfig) (R : Home → Prop) : Prop where
  empty : ∀ recycler thread, R (Home.empty recycler thread (config recycler))
  push : ∀ {home tokens p}, R home →
    R { home with stack := (Stack.push home.stack tokens p).2.1 }
  add : ∀ {home home' sender p}, home.senders.Nodup → home.addFrom? sender p = some home' →
    R home → R home'
  opens : ∀ {home home' sender p}, sender ∉ home.senders →
    home.openFrom? sender (config home.recycler).linkCapacity p = some home' → R home → R home'
  scavenge : ∀ {home tokens}, R home → R (Home.scavenge home tokens).home
  pop : ∀ {home p entries}, home.stack.entries = p :: entries → R home →
    R { home with stack := { home.stack with entries } }
  forget : ∀ {home thread}, R home → R (Home.forgetSender home thread)

/-- All stacks have a property, for the given limits. -/
structure Homes (config : Nat → RecyclerConfig) (R : Home → Prop) (s : Recyclers) : Prop where
  linked : s.Linked
  config : s.config = config
  all : ∀ id home, s.home? id = some home → R home

theorem homes_create (configs : Array RecyclerConfig) (R : Home → Prop) :
    (create configs).Homes (create configs).config R where
  linked := linked_create configs
  config := rfl
  all id home hHome := absurd hHome (by simp [create, home?])

/-- Another state of a stack that has the property too. -/
theorem Homes.of_setHome (h : s.Homes config R) (hHome : s.home? id = some home) (hR : R home')
    (hLinked : s'.Linked) (hConfig : s'.config = s.config)
    (hSame : s'.home? = (s.setHome id home').home?) : s'.Homes config R where
  linked := hLinked
  config := hConfig.trans h.config
  all other found hFound := by
    rw [hSame, home?_setHome (lt_size_of_home? hHome)] at hFound
    split at hFound
    · obtain rfl := Option.some.inj hFound
      exact hR
    · exact h.all other found hFound

namespace HomeKept

theorem enter (hKept : HomeKept config R) (h : s.Homes config R) (thread recycler : Nat) :
    (s.ensureHome thread recycler).2.2.Homes config R := by
  have hLinked := h.linked.enter thread recycler
  obtain ⟨-, -, ⟨-, hSame⟩ | ⟨-, hEmpty, hPushed⟩⟩ := s.ensureHome_cases thread recycler
  · rwa [hSame]
  · rw [hPushed, hEmpty] at hLinked ⊢
    refine ⟨hLinked, h.config, fun id home hHome => ?_⟩
    rw [home?_push] at hHome
    split at hHome
    · obtain rfl := Option.some.inj hHome
      rw [h.config]
      exact hKept.empty recycler thread
    · exact h.all id home hHome

theorem offers (hKept : HomeKept config R) (h : s.Homes config R) {kept : Bool}
    (hOffers : Offers s acc id p kept s') : s'.Homes config R := by
  have hLinked := h.linked.offers hOffers
  cases hOffers with
  | stays => exact h
  | here hHome hThread hFree =>
    exact h.of_setHome hHome (hKept.push (h.all _ _ hHome)) hLinked rfl rfl
  | adds hHome hThread hAway hRoute hAdd =>
    have hDistinct := h.linked.distinct _ _ hHome
    exact h.of_setHome hHome (hKept.add hDistinct hAdd (h.all _ _ hHome)) hLinked rfl rfl
  | refuses hHome hThread hAway hRoute hMany => exact ⟨hLinked, h.config, h.all⟩
  | prunes hHome hThread hAway hRoute hFew hOpen => exact ⟨hLinked, h.config, h.all⟩
  | opens hHome hThread hAway hRoute hFew hOpen =>
    have hNew := h.linked.not_mem_senders hHome hRoute
    rw [h.config] at hOpen
    exact h.of_setHome hHome (hKept.opens hNew hOpen (h.all _ _ hHome)) hLinked rfl rfl

theorem offer (hKept : HomeKept config R) (h : s.Homes config R) (acc : Access) (recycler : Nat)
    (p : Pooled) : (s.offer acc recycler p).2.Homes config R := by
  rcases s.offer_eq_or_offers acc recycler p with hSame | ⟨away, kept, -, hOffers⟩
  · rwa [hSame]
  · have hMarked : Homes config R { s with tokens := s.tokens.markRecycled p.token } :=
      ⟨h.linked.setTokens _ _, h.config, h.all⟩
    exact hKept.offers hMarked hOffers

theorem leave (hKept : HomeKept config R) (h : s.Homes config R) (thread : Nat) :
    (s.leave thread).Homes config R := by
  refine ⟨h.linked.leave thread, h.config, fun id home' hHome => ?_⟩
  obtain ⟨home, hAt, -, rfl⟩ := home?_leave_eq_some hHome
  exact hKept.forget (h.all id home hAt)

/-- What every change of a stack keeps, all stacks have, always. -/
theorem lasting (hKept : HomeKept config R) : Lasting (Homes config R) where
  enter h := hKept.enter h _ _
  offer h := hKept.offer h _ _ _
  look hHome h :=
    h.of_setHome hHome (hKept.scavenge (h.all _ _ hHome)) (h.linked.look hHome) rfl rfl
  leave h := hKept.leave h _
  pop hHome hEntries h := h.of_setHome hHome (hKept.pop hEntries (h.all _ _ hHome))
    ((h.linked.setStack hHome _).setTokens _ _) rfl rfl
  makeFor _ h := ⟨h.linked.setTokens _ _, h.config, h.all⟩
  makeInert h := ⟨h.linked.setTokens _ _, h.config, h.all⟩

end HomeKept

end BlockPool.Recycling.Recyclers
