import BlockPool.Proofs.Recycling.Custody

/-!
# BlockPool — no item is lent twice

An item that is lent was on the stack of the thread that asks for it, or in a queue towards that
stack, or it is new. Then it is out, and nothing waits in the company of its token. The first who
gives it back brings it home; whoever comes later is refused, until it is lent again.

* `Recyclers.get_origin` — where an item comes from that is lent.
* `Recyclers.recycle_cases` — the answer to an item that is given back.
* `Recyclers.tells_run` — what is back stays back over a run in which it is not lent.
* `Recyclers.run_lent_once` — no item is lent twice.
-/

namespace BlockPool.Recycling.Recyclers

variable {s s' : Recyclers} {p q : Pooled} {home : Home} {token : Token} {id recycler : Nat}

-- ---------------------------------------------------------------------------
-- Items that are lent
-- ---------------------------------------------------------------------------

/-- An object that was not lent before, in the company of a token that was not issued before. -/
def IsNew (s : Recyclers) (p : Pooled) : Prop :=
  p.item = .plain s.made ∧ s.tokens.state? p.token = none

/-- An item that waits at the stack of a thread for a recycler. -/
def WaitsAt (s : Recyclers) (thread recycler : Nat) (p : Pooled) : Prop :=
  ∃ id home, s.home? id = some home ∧ home.thread = thread ∧ home.recycler = recycler ∧
    p ∈ home.entries

/-- What is on the stack of a thread that wants an item waited there before. -/
theorem mem_entries_of_refill {thread : Nat} (hRefill : s.refill thread recycler = (id, s'))
    (hHome : s'.home? id = some home) (hp : p ∈ home.stack.entries) :
    p ∈ (s.ensureHome thread recycler).2.1.entries := by
  obtain ⟨hId, hAt⟩ := s.home?_refill thread recycler
  rw [hRefill] at hId hAt
  obtain rfl : id = (s.ensureHome thread recycler).1 := hId
  rw [show s'.home? _ = _ from hAt, Option.some.injEq] at hHome
  rw [← hHome] at hp
  split at hp
  · have hGathers := (s.ensureHome thread recycler).2.1.gathers_scavenge
      (s.ensureHome thread recycler).2.2.tokens
    exact hGathers.items.subset (List.mem_append_right _ (List.mem_append_left _ hp))
  · exact List.mem_append_left _ hp

theorem waitsAt_of_refill {thread : Nat} (hRefill : s.refill thread recycler = (id, s'))
    (hHome : s'.home? id = some home) (hp : p ∈ home.stack.entries) :
    s.WaitsAt thread recycler p := by
  have hEntries := mem_entries_of_refill hRefill hHome hp
  obtain ⟨hThread, hRecycler, ⟨hBefore, -⟩ | ⟨-, hEmpty, -⟩⟩ := s.ensureHome_cases thread recycler
  · exact ⟨_, _, hBefore, hThread, hRecycler, hEntries⟩
  · rw [hEmpty, Home.entries_empty] at hEntries
    exact absurd hEntries (by simp)

/-- A token that was not issued after the look was not issued before it. -/
theorem state?_of_refill {thread : Nat} (hRefill : s.refill thread recycler = (id, s'))
    (hNone : s'.tokens.state? token = none) : s.tokens.state? token = none := by
  cases hState : s.tokens.state? token with
  | none => rfl
  | some state =>
    have hIssued := (kept_issued token state.recycler state.home).refill thread recycler
      ⟨state.recycled, Tokens.tells_of_state? hState⟩
    rw [hRefill] at hIssued
    obtain ⟨recycled, kept, hSome⟩ := hIssued
    rw [hNone] at hSome
    exact absurd hSome (by simp)

/-- An item that is lent waited at the stack of the thread that gets it, or is new. -/
theorem get_origin (s : Recyclers) (caller : Caller) (recycler : Nat) :
    (s.IsNew (s.get caller recycler).1 ∧ (s.get caller recycler).2.made = s.made + 1) ∨
      ∃ thread, caller = .thread thread ∧
        s.WaitsAt thread recycler (s.get caller recycler).1 := by
  rcases s.get_cases caller recycler with hInert |
    ⟨thread, id, s', rfl, hRefill, home, hHome, -, -, hLent⟩
  · rw [hInert]
    exact .inl ⟨⟨rfl, rfl⟩, rfl⟩
  · rcases hLent with ⟨p, entries, hEntries, hGet⟩ | ⟨-, hGet⟩
    · rw [hGet]
      exact .inr ⟨thread, rfl, waitsAt_of_refill hRefill hHome (hEntries ▸ List.mem_cons_self)⟩
    · have hMade := (kept_made s.made).refill thread recycler rfl
      rw [hRefill] at hMade
      rw [hGet]
      have hFresh := (s'.tokens.tells_issue recycler id).1
      exact .inl ⟨⟨congrArg Item.plain hMade, state?_of_refill hRefill hFresh⟩,
        congrArg (· + 1) hMade⟩

/-- An item that is lent is inert or out. -/
theorem InCustody.get_out (h : s.InCustody) (caller : Caller) (recycler : Nat) :
    (s.get caller recycler).1.token = .inert ∨ ∃ issuer away,
      (s.get caller recycler).2.tokens.Tells (s.get caller recycler).1.token issuer away false := by
  rcases s.get_cases caller recycler with hInert |
    ⟨thread, id, s', -, hRefill, home, hHome, -, -, hLent⟩
  · rw [hInert]
    exact .inl rfl
  · rcases hLent with ⟨p, entries, hEntries, hGet⟩ | ⟨-, hGet⟩
    · have hRefilled := lasting_inCustody.toKept.refill thread recycler h
      rw [hRefill] at hRefilled
      have hTop : p ∈ s'.waitingFor id := by
        rw [waitingFor_of_home? hHome, Home.entries, hEntries]
        exact List.mem_cons_self
      obtain ⟨issuer, hTells⟩ := hRefilled.back id p hTop
      rw [hGet]
      exact .inr ⟨issuer, id, hTells.markInUse⟩
    · rw [hGet]
      exact .inr ⟨recycler, id, (s'.tokens.tells_issue recycler id).2⟩

/-- An item that is lent is not back, and nothing waits with its token. -/
theorem InCustody.get_alone (h : s.InCustody) (caller : Caller) (recycler : Nat) :
    (s.get caller recycler).2.tokens.isRecycled (s.get caller recycler).1.token = false ∧
      ∀ id, ∀ q ∈ (s.get caller recycler).2.waitingFor id,
        q.token ≠ (s.get caller recycler).1.token := by
  have hAfter := lasting_inCustody.get caller recycler h
  rcases h.get_out caller recycler with hInert | ⟨issuer, away, hOut⟩
  · refine ⟨by rw [hInert]; rfl, fun id q hq => ?_⟩
    obtain ⟨issuer, hTells⟩ := hAfter.back id q hq
    exact hInert ▸ hTells.ne_inert
  · exact ⟨hOut.isRecycled, fun id q hq => hAfter.token_ne hOut hq⟩

-- ---------------------------------------------------------------------------
-- Items that are given back
-- ---------------------------------------------------------------------------

/-- The token of the item that is lent, if a thread gets one. -/
def lentBy (s : Recyclers) : Op → Option Token
  | .get caller recycler => some (s.get caller recycler).1.token
  | _ => none

/-- The tokens of the items that are lent in a run. -/
def lent : Recyclers → List Op → List Token
  | _, [] => []
  | s, op :: rest => (s.lentBy op).toList ++ lent (s.step op) rest

/-- An item is given back through the recycler of its token, once it was lent. -/
theorem recycle_cases {issuer : Nat} {recycled : Bool}
    (hTells : s.tokens.Tells p.token issuer id recycled) (caller : Caller) (recycler : Nat) :
    (recycler ≠ issuer ∧ (s.recycle caller recycler p).1 = .error .foreignToken) ∨
      (recycler = issuer ∧ recycled = true ∧
        (s.recycle caller recycler p).1 = .error .recycledAlready) ∨
      (recycler = issuer ∧ recycled = false ∧
        (∃ kept, (s.recycle caller recycler p).1 = .ok kept) ∧
          (s.recycle caller recycler p).2.tokens.Tells p.token issuer id true) := by
  obtain ⟨before, hState⟩ := hTells
  have hCases := s.offer_cases (Access.ofCaller caller) recycler p
  rw [hState] at hCases
  obtain ⟨hNone, -⟩ | ⟨state, hSome, hCases⟩ := hCases
  · exact absurd hNone (by simp)
  · obtain rfl := Option.some.inj hSome
    obtain ⟨hForeign, hAnswer, -⟩ | ⟨rfl, hBack, hAnswer, -⟩ |
      ⟨rfl, hOut, kept, hAnswer, hOffers⟩ := hCases
    · exact .inl ⟨Ne.symm hForeign, hAnswer⟩
    · exact .inr (.inl ⟨rfl, hBack, hAnswer⟩)
    · refine .inr (.inr ⟨rfl, hOut, ⟨kept, hAnswer⟩, ?_⟩)
      have hMarked := hOffers.agree.tells (Tokens.Tells.markRecycled ⟨before, hState⟩)
      have hKept := kept_tells p.token issuer id
      unfold recycle
      dsimp only
      split
      · exact hKept.discardAll _ _ hMarked
      · exact hKept.discard _ _ (hKept.discardAll _ _ hMarked)

/-- An item that is back is refused. -/
theorem recycle_of_back {issuer : Nat} (hBack : s.tokens.Tells p.token issuer id true)
    (caller : Caller) (recycler : Nat) : (s.recycle caller recycler p).1 =
      .error (if recycler = issuer then .recycledAlready else .foreignToken) := by
  obtain ⟨hForeign, hAnswer⟩ | ⟨hOwn, -, hAnswer⟩ | ⟨-, hOut, -⟩ :=
    recycle_cases hBack caller recycler
  · rw [if_neg hForeign, hAnswer]
  · rw [if_pos hOwn, hAnswer]
  · exact absurd hOut (by simp)

/-- What is back stays back while something else is lent. -/
theorem tells_step (hBack : s.tokens.Tells token recycler id true) (op : Op)
    (hNot : s.lentBy op ≠ some token) : (s.step op).tokens.Tells token recycler id true := by
  refine (kept_tells token recycler id).step op hBack fun caller through hOp => ?_
  subst hOp
  rcases s.get_cases caller through with hInert |
    ⟨thread, away, s', -, hRefill, home, -, -, -, hLent⟩
  · rw [hInert]
    exact hBack
  · have hRefilled := (kept_tells token recycler id).refill thread through hBack
    rw [hRefill] at hRefilled
    rcases hLent with ⟨p, entries, -, hGet⟩ | ⟨-, hGet⟩
    · have hOther : token ≠ p.token := by
        rintro rfl
        exact hNot (congrArg some (congrArg (fun lent => lent.1.token) hGet))
      show ((s.get caller through).2.tokens).Tells _ _ _ _
      rw [hGet]
      exact hRefilled.markInUse_of_ne hOther
    · rw [hGet]
      exact (Tokens.agree_issue ..).tells hRefilled

theorem tells_run (ops : List Op) (hBack : s.tokens.Tells token recycler id true)
    (hNot : token ∉ s.lent ops) : (s.run ops).tokens.Tells token recycler id true := by
  induction ops generalizing s with
  | nil => exact hBack
  | cons op rest ih =>
    obtain ⟨hFirst, hRest⟩ := not_or.mp fun h => hNot (List.mem_append.mpr h)
    refine ih (tells_step hBack op fun hLent => hFirst ?_) hRest
    rw [hLent]
    exact List.mem_singleton_self token

-- ---------------------------------------------------------------------------
-- No item is lent twice
-- ---------------------------------------------------------------------------

/-- Where two items wait with one token, they are the same one. -/
theorem InCustody.same_place (h : s.InCustody) {there i j : Nat}
    (hp : (s.waitingFor id)[i]? = some p) (hq : (s.waitingFor there)[j]? = some q)
    (hToken : p.token = q.token) : id = there ∧ i = j := by
  obtain ⟨issuer, hTells⟩ := h.back id p (List.mem_of_getElem? hp)
  obtain ⟨issuer', hTells'⟩ := h.back there q (List.mem_of_getElem? hq)
  obtain rfl : id = there := ((hToken ▸ hTells).unique hTells').2.1
  have hLt : i < ((s.waitingFor id).map (·.token)).length := by
    rw [List.length_map]
    exact (List.getElem?_eq_some_iff.mp hp).1
  refine ⟨rfl, (List.getElem?_inj hLt (h.once id)).mp ?_⟩
  rw [List.getElem?_map, List.getElem?_map, hp, hq, Option.map_some, hToken, Option.map_some]

/-- A token of an item that is back was issued. -/
theorem tells_of_isRecycled (h : s.tokens.isRecycled token = true) :
    ∃ away, s.tokens.Tells token (s.recyclerOf token) away true := by
  cases hState : s.tokens.state? token with
  | none => exact absurd h (by simp [Tokens.isRecycled, hState])
  | some state =>
    have hTells := Tokens.tells_of_state? hState
    have hBack : state.recycled = true := hTells.isRecycled.symm.trans h
    have hIssuer : s.recyclerOf token = state.recycler := by
      rw [recyclerOf, hState]
      rfl
    exact ⟨state.home, hIssuer ▸ hBack ▸ hTells⟩

/-- An item that could be given back is back. -/
theorem isRecycled_of_recycle {caller : Caller} {kept : Bool}
    (hIssued : (s.tokens.state? p.token).isSome = true)
    (hAnswer : (s.recycle caller recycler p).1 = .ok kept) :
    (s.recycle caller recycler p).2.tokens.isRecycled p.token = true := by
  obtain ⟨state, hState⟩ := Option.isSome_iff_exists.mp hIssued
  obtain ⟨-, hError⟩ | ⟨-, -, hError⟩ | ⟨-, -, -, hBack⟩ :=
    recycle_cases (Tokens.tells_of_state? hState) caller recycler
  · exact absurd (hError.symm.trans hAnswer) (by simp)
  · exact absurd (hError.symm.trans hAnswer) (by simp)
  · exact hBack.isRecycled

/-- No item is lent twice. Whatever threads did in turn, no two items wait with one token; an item
that waits is back, and waits for the stack that its token names. An item that a thread gets is new
or waited at its own stack; then it is out, and nothing waits with its token. One that could be
given back is back, and as long as its token is not lent again it stays so, and whoever gives it
back is refused. -/
theorem run_lent_once (configs : Array RecyclerConfig) (ops : List Op) :
    let s := (create configs).run ops
    (∀ (id there i j : Nat) (p q : Pooled), (s.waitingFor id)[i]? = some p →
      (s.waitingFor there)[j]? = some q → p.token = q.token → id = there ∧ i = j) ∧
    (∀ id, ∀ p ∈ s.waitingFor id, ∃ state, s.tokens.state? p.token = some state ∧
      state.home = id ∧ state.recycled = true) ∧
    (∀ caller recycler, (s.get caller recycler).2.tokens.isRecycled
        (s.get caller recycler).1.token = false ∧
      (∀ id, ∀ q ∈ (s.get caller recycler).2.waitingFor id,
        q.token ≠ (s.get caller recycler).1.token) ∧
      ((s.IsNew (s.get caller recycler).1 ∧ (s.get caller recycler).2.made = s.made + 1) ∨
        ∃ thread, caller = .thread thread ∧
          s.WaitsAt thread recycler (s.get caller recycler).1)) ∧
    (∀ caller recycler p kept, (s.tokens.state? p.token).isSome = true →
      (s.recycle caller recycler p).1 = .ok kept →
        (s.recycle caller recycler p).2.tokens.isRecycled p.token = true) ∧
    (∀ token rest, s.tokens.isRecycled token = true → token ∉ s.lent rest →
      (s.run rest).tokens.isRecycled token = true ∧
        ∀ caller recycler p, p.token = token → ((s.run rest).recycle caller recycler p).1 =
          .error (if recycler = s.recyclerOf token then .recycledAlready else .foreignToken)) := by
  intro s
  have h : s.InCustody := inCustody_run configs ops
  refine ⟨fun id there i j p q hp hq => h.same_place hp hq, fun id p hp => ?_,
    fun caller recycler => ?_, fun caller recycler p kept => isRecycled_of_recycle,
    fun token rest hBack hNot => ?_⟩
  · obtain ⟨issuer, before, hState⟩ := h.back id p hp
    exact ⟨_, hState, rfl, rfl⟩
  -- whoever gets the item is the only one who has it
  · obtain ⟨hOut, hAlone⟩ := h.get_alone caller recycler
    exact ⟨hOut, hAlone, s.get_origin caller recycler⟩
  · obtain ⟨away, hTells⟩ := tells_of_isRecycled hBack
    -- only to be lent makes it no longer back
    have hAfter := tells_run rest hTells hNot
    refine ⟨hAfter.isRecycled, fun caller recycler p hToken => ?_⟩
    subst hToken
    exact recycle_of_back hAfter caller recycler

end BlockPool.Recycling.Recyclers
