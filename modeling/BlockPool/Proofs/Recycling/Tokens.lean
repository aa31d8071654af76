import BlockPool.Recycling.Item

/-!
# BlockPool — what tokens say

The state of a token says which recycler issued it, which stack its item belongs to, and whether the
item is back or out. Neither of the first two ever changes. A filter that lets an item through notes
that at its token, which changes nothing of the three.

* `Tokens.Tells` — what a token says, the note of a filter aside.
* `Tokens.Agree` — all that was said still is.
-/

namespace BlockPool.Recycling.Tokens

variable {tokens tokens' tokens'' : Tokens} {token other : Token} {recycler home : Nat}
  {recycled : Bool} {state : TokenState} {f : TokenState → TokenState}

theorem state?_modifyState (tokens : Tokens) (token other : Token)
    (f : TokenState → TokenState) : (tokens.modifyState token f).state? other =
      if other = token then (tokens.state? other).map f else tokens.state? other := by
  cases token with
  | inert =>
    cases other with
    | inert => rfl
    | live id => rw [if_neg (by simp)]; rfl
  | live index =>
    cases other with
    | inert => rw [if_neg (by simp)]; rfl
    | live id =>
      show (tokens.modify index f)[id]? = _
      rw [Array.getElem?_modify]
      by_cases hSame : index = id
      · rw [if_pos hSame, if_pos (by rw [hSame])]
        rfl
      · rw [if_neg hSame, if_neg (fun h => hSame (Token.live.inj h).symm)]
        rfl

/-- What a token says, the note of a filter aside. -/
def Tells (tokens : Tokens) (token : Token) (recycler home : Nat) (recycled : Bool) : Prop :=
  ∃ keptBefore, tokens.state? token = some ⟨recycler, home, recycled, keptBefore⟩

theorem tells_of_state? (h : tokens.state? token = some state) :
    tokens.Tells token state.recycler state.home state.recycled :=
  ⟨state.keptBefore, h⟩

theorem Tells.isRecycled (h : tokens.Tells token recycler home recycled) :
    tokens.isRecycled token = recycled := by
  obtain ⟨kept, hState⟩ := h
  rw [Tokens.isRecycled, hState]
  rfl

theorem Tells.ne_inert (h : tokens.Tells token recycler home recycled) : token ≠ .inert := by
  rintro rfl
  obtain ⟨kept, hState⟩ := h
  exact absurd hState (by simp [state?])

/-- A token says one thing at a time. -/
theorem Tells.unique {recycler' home' : Nat} {recycled' : Bool}
    (h : tokens.Tells token recycler home recycled)
    (h' : tokens.Tells token recycler' home' recycled') :
    recycler = recycler' ∧ home = home' ∧ recycled = recycled' := by
  obtain ⟨kept, hState⟩ := h
  obtain ⟨kept', hState'⟩ := h'
  rw [hState, Option.some.injEq, TokenState.mk.injEq] at hState'
  exact ⟨hState'.1, hState'.2.1, hState'.2.2.1⟩

-- ---------------------------------------------------------------------------
-- Notes of a filter, and new tokens
-- ---------------------------------------------------------------------------

/-- All that was said still is. -/
structure Agree (tokens tokens' : Tokens) : Prop where
  tells : ∀ {token recycler home recycled}, tokens.Tells token recycler home recycled →
    tokens'.Tells token recycler home recycled

theorem Agree.refl (tokens : Tokens) : tokens.Agree tokens := ⟨fun h => h⟩

theorem Agree.trans (h : tokens.Agree tokens') (h' : tokens'.Agree tokens'') :
    tokens.Agree tokens'' := ⟨fun hTells => h'.tells (h.tells hTells)⟩

theorem agree_markKept (tokens : Tokens) (token : Token) :
    tokens.Agree (tokens.markKept token) := by
  refine ⟨?_⟩
  rintro other recycler home recycled ⟨kept, hState⟩
  rw [Tells, markKept, state?_modifyState]
  split
  · exact ⟨true, by rw [hState]; rfl⟩
  · exact ⟨kept, hState⟩

theorem state?_issue_of_some (h : tokens.state? token = some state) (recycler home : Nat) :
    (tokens.issue recycler home).2.state? token = some state := by
  cases token with
  | inert => exact h
  | live id =>
    have hLt : id < tokens.size := (Array.getElem?_eq_some_iff.mp h).1
    show (tokens.push _)[id]? = some state
    rw [Array.getElem?_push, if_neg (Nat.ne_of_lt hLt)]
    exact h

theorem agree_issue (tokens : Tokens) (recycler home : Nat) :
    tokens.Agree (tokens.issue recycler home).2 := by
  refine ⟨?_⟩
  rintro other recycler' home' recycled ⟨kept, hState⟩
  exact ⟨kept, state?_issue_of_some hState recycler home⟩

/-- A new token was not issued before, and its item is out. -/
theorem tells_issue (tokens : Tokens) (recycler home : Nat) :
    tokens.state? (tokens.issue recycler home).1 = none ∧
      (tokens.issue recycler home).2.Tells (tokens.issue recycler home).1 recycler home false := by
  refine ⟨Array.getElem?_eq_none (Nat.le_refl _), false, ?_⟩
  show (tokens.push _)[tokens.size]? = _
  rw [Array.getElem?_push, if_pos rfl]

-- ---------------------------------------------------------------------------
-- Items that come back and go out
-- ---------------------------------------------------------------------------

theorem Tells.markRecycled (h : tokens.Tells token recycler home recycled) :
    (tokens.markRecycled token).Tells token recycler home true := by
  obtain ⟨kept, hState⟩ := h
  refine ⟨kept, ?_⟩
  rw [Tokens.markRecycled, state?_modifyState, if_pos rfl, hState]
  rfl

theorem Tells.markRecycled_of_ne (h : tokens.Tells token recycler home recycled)
    (hNe : token ≠ other) : (tokens.markRecycled other).Tells token recycler home recycled := by
  obtain ⟨kept, hState⟩ := h
  refine ⟨kept, ?_⟩
  rw [Tokens.markRecycled, state?_modifyState, if_neg hNe]
  exact hState

/-- What is back stays so when another item comes back. -/
theorem Tells.markRecycled_other (h : tokens.Tells token recycler home true) (other : Token) :
    (tokens.markRecycled other).Tells token recycler home true := by
  by_cases hSame : token = other
  · exact hSame ▸ h.markRecycled
  · exact h.markRecycled_of_ne hSame

theorem Tells.markInUse (h : tokens.Tells token recycler home recycled) :
    (tokens.markInUse token).Tells token recycler home false := by
  obtain ⟨kept, hState⟩ := h
  refine ⟨kept, ?_⟩
  rw [Tokens.markInUse, state?_modifyState, if_pos rfl, hState]
  rfl

theorem Tells.markInUse_of_ne (h : tokens.Tells token recycler home recycled)
    (hNe : token ≠ other) : (tokens.markInUse other).Tells token recycler home recycled := by
  obtain ⟨kept, hState⟩ := h
  refine ⟨kept, ?_⟩
  rw [Tokens.markInUse, state?_modifyState, if_neg hNe]
  exact hState

end BlockPool.Recycling.Tokens
