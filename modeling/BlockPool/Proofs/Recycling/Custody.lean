import BlockPool.Proofs.Recycling.Waiting
import BlockPool.Proofs.Recycling.Run

/-!
# BlockPool — items in custody

A token says where its item is: out with a caller, or back. An item that waits for a stack is back,
it waits for the stack that its token names, and no other item waits anywhere in the company of the
same token.

An item that is given back changes what its own token says, from out to back, and nothing else; a
note that a filter makes is no change. Only the lending of an item sends it out.

* `Recyclers.InCustody` — what waits, and what tokens say about it.
* `Recyclers.kept_tells` — what is back stays back until it is lent.
* `Recyclers.inCustody_run` — what waits is in custody, whatever threads do.
-/

namespace BlockPool.Recycling.Recyclers

variable {s s' : Recyclers} {acc : Access} {p q : Pooled} {home : Home} {token : Token}
  {id other recycler : Nat} {entries : List Pooled}

/-- Items that wait are back. Each waits for the stack that its token names, and no two of them have
the same token. -/
structure InCustody (s : Recyclers) : Prop where
  linked : s.Linked
  once : ∀ id, ((s.waitingFor id).map (·.token)).Nodup
  back : ∀ id, ∀ p ∈ s.waitingFor id, ∃ recycler, s.tokens.Tells p.token recycler id true

theorem inCustody_create (configs : Array RecyclerConfig) : (create configs).InCustody where
  linked := linked_create configs
  once _ := List.nodup_nil
  back _ _ hp := absurd hp (by simp [create, waitingFor, home?, strandedFor])

/-- Some of what waited goes on waiting. -/
theorem nodup_tokens_of_subperm {some all : List Pooled} (hLess : some.Subperm all)
    (hAll : (all.map (·.token)).Nodup) : (some.map (·.token)).Nodup := by
  obtain ⟨part, hPerm, hSub⟩ := hLess
  exact (hPerm.map _).nodup_iff.mp (hAll.sublist (hSub.map _))

/-- The same items or fewer wait, and tokens say what they said. -/
theorem InCustody.of_subperm (h : s.InCustody) (hLinked : s'.Linked)
    (hLess : ∀ id, (s'.waitingFor id).Subperm (s.waitingFor id))
    (hAgree : s.tokens.Agree s'.tokens) : s'.InCustody where
  linked := hLinked
  once id := nodup_tokens_of_subperm (hLess id) (h.once id)
  back id p hp := by
    obtain ⟨recycler, hTells⟩ := h.back id p ((hLess id).subset hp)
    exact ⟨recycler, hAgree.tells hTells⟩

/-- No item waits that is out. -/
theorem InCustody.token_ne (h : s.InCustody) {away : Nat}
    (hOut : s.tokens.Tells token recycler away false) (hp : p ∈ s.waitingFor id) :
    p.token ≠ token := by
  rintro rfl
  obtain ⟨other, hBack⟩ := h.back id p hp
  exact absurd (hOut.unique hBack).2.2 (by simp)

-- ---------------------------------------------------------------------------
-- Tokens of items that are given back
-- ---------------------------------------------------------------------------

theorem Offers.agree {kept : Bool} (hOffers : Offers s acc id p kept s') :
    s.tokens.Agree s'.tokens := by
  cases hOffers with
  | @here home hHome hThread hFree => exact (home.stack.push_frame s.tokens p).2.2.2
  | _ => exact .refl _

/-- An item that is given back has no effect on what tokens say, or it is back now. -/
theorem agree_offer (s : Recyclers) (acc : Access) (recycler : Nat) (p : Pooled) :
    s.tokens.Agree (s.offer acc recycler p).2.tokens ∨
      (s.tokens.markRecycled p.token).Agree (s.offer acc recycler p).2.tokens := by
  rcases s.offer_eq_or_offers acc recycler p with hSame | ⟨away, kept, -, hOffers⟩
  · rw [hSame]
    exact .inl (.refl _)
  · exact .inr hOffers.agree

theorem tokens_ensureHome (s : Recyclers) (thread recycler : Nat) :
    (s.ensureHome thread recycler).2.2.tokens = s.tokens := by
  obtain ⟨-, -, ⟨-, hSame⟩ | ⟨-, -, hPushed⟩⟩ := s.ensureHome_cases thread recycler
  · rw [hSame]
  · rw [hPushed]

/-- What is back stays back until it is lent. -/
theorem kept_tells (token : Token) (recycler away : Nat) :
    Kept fun s => s.tokens.Tells token recycler away true where
  enter h := by rwa [tokens_ensureHome]
  offer {s acc recycler p} h := by
    rcases s.agree_offer acc recycler p with hAgree | hAgree
    · exact hAgree.tells h
    · exact hAgree.tells (h.markRecycled_other p.token)
  look {s id home} _ h := (home.gathers_scavenge s.tokens).tokens.tells h
  leave h := h

/-- A token that was issued belongs to the same stack from then on. -/
theorem kept_issued (token : Token) (recycler away : Nat) :
    Kept fun s => ∃ recycled, s.tokens.Tells token recycler away recycled where
  enter h := by rwa [tokens_ensureHome]
  offer {s acc recycler p} h := by
    obtain ⟨recycled, hTells⟩ := h
    rcases s.agree_offer acc recycler p with hAgree | hAgree
    · exact ⟨recycled, hAgree.tells hTells⟩
    · by_cases hSame : p.token = token
      · exact ⟨true, hAgree.tells (hSame ▸ hTells.markRecycled)⟩
      · exact ⟨recycled, hAgree.tells (hTells.markRecycled_of_ne (Ne.symm hSame))⟩
  look {s id home} _ h := h.imp fun _ hTells => (home.gathers_scavenge s.tokens).tokens.tells hTells
  leave h := h

/-- Only the lending of an item makes one. -/
theorem kept_made (count : Nat) : Kept fun s => s.made = count where
  enter {s thread recycler} h := by
    obtain ⟨-, -, ⟨-, hSame⟩ | ⟨-, -, hPushed⟩⟩ := s.ensureHome_cases thread recycler
    · rwa [hSame]
    · rwa [hPushed]
  offer {s acc recycler p} h := by
    rcases s.offer_eq_or_offers acc recycler p with hSame | ⟨away, kept, -, hOffers⟩
    · rwa [hSame]
    · generalize (s.offer acc recycler p).2 = after at hOffers
      cases hOffers <;> exact h
  look _ h := h
  leave h := h

-- ---------------------------------------------------------------------------
-- Moves
-- ---------------------------------------------------------------------------

/-- An item is given back that is out. -/
theorem InCustody.offers (h : s.InCustody) {kept : Bool}
    (hOut : s.tokens.Tells p.token recycler id false)
    (hOffers : Offers { s with tokens := s.tokens.markRecycled p.token } acc id p kept s') :
    s'.InCustody := by
  have hLinked := h.linked.setTokens (s.tokens.markRecycled p.token) s.made
  have hWaits := fun other => hLinked.waitingFor_offers hOffers other
  refine ⟨hLinked.offers hOffers, fun other => ?_, fun other q hq => ?_⟩
  · have hLess := hWaits other
    split at hLess
    · refine nodup_tokens_of_subperm hLess (List.nodup_cons.mpr ⟨fun hMem => ?_, h.once id⟩)
      obtain ⟨q, hq, hSame⟩ := List.mem_map.mp hMem
      exact h.token_ne hOut hq hSame
    · exact nodup_tokens_of_subperm hLess (h.once other)
  · have hStays : ∀ {there}, q ∈ s.waitingFor there →
        ∃ recycler, s'.tokens.Tells q.token recycler there true := by
      intro there hq
      obtain ⟨recycler, hTells⟩ := h.back there q hq
      exact ⟨recycler, hOffers.agree.tells (hTells.markRecycled_other p.token)⟩
    have hIn := (hWaits other).subset hq
    split at hIn
    · rename_i hSame
      subst hSame
      rcases List.mem_cons.mp hIn with rfl | hIn
      · exact ⟨recycler, hOffers.agree.tells hOut.markRecycled⟩
      · exact hStays hIn
    · exact hStays hIn

theorem InCustody.offer (h : s.InCustody) (acc : Access) (recycler : Nat) (p : Pooled) :
    (s.offer acc recycler p).2.InCustody := by
  rcases s.offer_eq_or_offers acc recycler p with hSame | ⟨away, kept, hOut, hOffers⟩
  · rwa [hSame]
  · exact h.offers hOut hOffers

/-- The item on top of a stack is out from then on, and no one else waits with its token. -/
theorem InCustody.pop (h : s.InCustody) (hHome : s.home? id = some home)
    (hEntries : home.stack.entries = p :: entries) :
    ({ s.setHome id { home with stack := { home.stack with entries } } with
      tokens := s.tokens.markInUse p.token } : Recyclers).InCustody := by
  have hTop : s.waitingFor id =
      p :: (({ home with stack := { home.stack with entries } } : Home).entries ++
        s.strandedFor id) := by
    rw [waitingFor_of_home? hHome, Home.entries, hEntries]
    rfl
  have hOnce := h.once id
  rw [hTop, List.map_cons, List.nodup_cons] at hOnce
  have hBack : ∃ recycler, s.tokens.Tells p.token recycler id true :=
    h.back id p (hTop ▸ List.mem_cons_self)
  have hWaits := waitingFor_setHome hHome
    ({ home with stack := { home.stack with entries } } : Home)
  have hRest : ∀ {other q}, q ∈ (s.setHome id
      { home with stack := { home.stack with entries } }).waitingFor other →
        q ∈ s.waitingFor other ∧ q.token ≠ p.token := by
    intro other q hq
    rw [hWaits] at hq
    split at hq
    · rename_i hSame
      rw [hSame, hTop]
      exact ⟨List.mem_cons_of_mem _ hq, fun hToken => hOnce.1 (List.mem_map.mpr ⟨q, hq, hToken⟩)⟩
    · rename_i hOther
      refine ⟨hq, fun hToken => hOther ?_⟩
      -- a token names one stack
      obtain ⟨recycler, hTells⟩ := hBack
      obtain ⟨recycler', hTells'⟩ := h.back other q hq
      exact ((hToken ▸ hTells').unique hTells).2.1
  refine ⟨(h.linked.setStack hHome _).setTokens _ _, fun other => ?_, fun other q hq => ?_⟩
  · show (((s.setHome id _).waitingFor other).map _).Nodup
    rw [hWaits]
    split
    · exact hOnce.2
    · exact h.once other
  · obtain ⟨hIn, hNe⟩ := hRest hq
    obtain ⟨recycler, hTells⟩ := h.back other q hIn
    exact ⟨recycler, hTells.markInUse_of_ne hNe⟩

/-- What waits is in custody, whatever threads do. -/
theorem lasting_inCustody : Lasting InCustody where
  enter {s thread recycler} h := by
    refine h.of_subperm (h.linked.enter ..) (fun id => ?_) ?_
    · rw [h.linked.waitingFor_enter]
    · rw [tokens_ensureHome]
      exact .refl _
  offer h := h.offer _ _ _
  look {s id home} hHome h := h.of_subperm (h.linked.look hHome) (waitingFor_look hHome)
    (home.gathers_scavenge s.tokens).tokens
  leave h := h.of_subperm (h.linked.leave _) (h.linked.waitingFor_leave _) (.refl _)
  pop hHome hEntries h := h.pop hHome hEntries
  makeFor _ h := h.of_subperm (h.linked.setTokens _ _) (fun _ => .refl _)
    (Tokens.agree_issue _ _ _)
  makeInert h := h.of_subperm (h.linked.setTokens _ _) (fun _ => .refl _) (.refl _)

theorem inCustody_run (configs : Array RecyclerConfig) (ops : List Op) :
    ((create configs).run ops).InCustody :=
  lasting_inCustody.run ops (inCustody_create configs)

end BlockPool.Recycling.Recyclers
