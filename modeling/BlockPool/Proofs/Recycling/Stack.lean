import BlockPool.Recycling.Stack
import BlockPool.Proofs.Recycling.Tokens

/-!
# BlockPool — what a stack takes in

An item that is offered to a stack is kept or turned away, and nothing else happens to the items.
Growing changes only the capacity.

* `Stack.Sound` — the bounds of a stack.
* `Stack.receiveAll_perm` — of several items, each is kept or turned away.
* `Stack.receiveAll_of_room` — without a filter, all are kept for which there is room.
-/

namespace BlockPool.Recycling.Stack

variable {s : Stack} {tokens : Tokens} {p : Pooled} {ps : List Pooled}

/-- What every reachable stack satisfies. -/
structure Sound (s : Stack) : Prop where
  size_le : s.size ≤ s.capacity
  capacity_le : s.capacity ≤ s.maxCapacity
  capacity_pos : 0 < s.maxCapacity → 0 < s.capacity

theorem sound_empty (c : RecyclerConfig) : (empty c).Sound where
  size_le := Nat.zero_le _
  capacity_le := Nat.min_le_left ..
  capacity_pos hPos := Nat.lt_min.mpr ⟨hPos, by decide⟩

-- ---------------------------------------------------------------------------
-- The filter
-- ---------------------------------------------------------------------------

/-- The filter counts an item, and notes at its token that it was let through. -/
theorem filter_frame (s : Stack) (tokens : Tokens) (p : Pooled) :
    (s.filter tokens p).2.1 = { s with offers := (s.filter tokens p).2.1.offers } ∧
      tokens.Agree (s.filter tokens p).2.2 := by
  unfold filter
  split
  · exact ⟨rfl, .refl _⟩
  · dsimp only
    split
    · exact ⟨rfl, Tokens.agree_markKept ..⟩
    · exact ⟨rfl, .refl _⟩

/-- A filter that lets one of one through lets everything through. -/
theorem filter_of_ratio_one (h : s.ratio = 1) (tokens : Tokens) (p : Pooled) :
    (s.filter tokens p).1 = true := by
  unfold filter
  split
  · rfl
  · simp only [h, Nat.mod_one, if_true]

-- ---------------------------------------------------------------------------
-- Items of the stack's own thread
-- ---------------------------------------------------------------------------

/-- An item that is given back is kept on top, or nothing comes of it. -/
theorem push_frame (s : Stack) (tokens : Tokens) (p : Pooled) :
    (s.push tokens p).2.1.entries =
        (if (s.push tokens p).1 then p :: s.entries else s.entries) ∧
      (s.push tokens p).2.1.maxCapacity = s.maxCapacity ∧
      (s.push tokens p).2.1.ratio = s.ratio ∧ tokens.Agree (s.push tokens p).2.2 := by
  obtain ⟨hSame, hAgree⟩ := s.filter_frame tokens p
  unfold push
  split
  · exact ⟨rfl, rfl, rfl, .refl _⟩
  · split
    · rename_i s' tokens' hFilter
      rw [hFilter] at hSame hAgree
      dsimp only at hSame
      rw [hSame]
      exact ⟨rfl, rfl, rfl, hAgree⟩
    · rename_i s' tokens' hFilter
      rw [hFilter] at hSame hAgree
      dsimp only at hSame
      rw [hSame]
      exact ⟨rfl, rfl, rfl, hAgree⟩

/-- A push goes no further than the capacity, which doubles up to its limit. -/
theorem Sound.push (h : s.Sound) (tokens : Tokens) (p : Pooled) : (s.push tokens p).2.1.Sound := by
  obtain ⟨hSame, -⟩ := s.filter_frame tokens p
  unfold Stack.push
  split
  · exact h
  · rename_i hRoom
    have hPos := h.capacity_pos
    have hSize := h.size_le
    have hBound := h.capacity_le
    split
    · rename_i s' tokens' hFilter
      rw [hFilter] at hSame
      dsimp only at hSame
      rw [hSame]
      exact ⟨hSize, hBound, hPos⟩
    · rename_i s' tokens' hFilter
      rw [hFilter] at hSame
      dsimp only at hSame
      rw [hSame]
      show (⟨p :: s.entries, if s.size = s.capacity then min (2 * s.size) s.maxCapacity
        else s.capacity, s.maxCapacity, s.ratio, s'.offers⟩ : Stack).Sound
      by_cases hFull : s.size = s.capacity
      · -- a full stack doubles, which makes room for one more as its capacity is not zero
        rw [if_pos hFull]
        refine ⟨?_, Nat.min_le_right .., fun _ => ?_⟩
        · show s.size + 1 ≤ min (2 * s.size) s.maxCapacity
          omega
        · show 0 < min (2 * s.size) s.maxCapacity
          omega
      · rw [if_neg hFull]
        refine ⟨?_, hBound, hPos⟩
        show s.size + 1 ≤ s.capacity
        omega

-- ---------------------------------------------------------------------------
-- Items from other threads
-- ---------------------------------------------------------------------------

/-- An item that came from another thread is kept on top, or nothing comes of it. -/
theorem receive_frame (s : Stack) (tokens : Tokens) (p : Pooled) :
    (s.receive tokens p).2.1 =
        { s with entries := if (s.receive tokens p).1 then p :: s.entries else s.entries,
                 offers := (s.receive tokens p).2.1.offers } ∧
      tokens.Agree (s.receive tokens p).2.2 := by
  obtain ⟨hSame, hAgree⟩ := s.filter_frame tokens p
  unfold receive
  split
  · exact ⟨rfl, .refl _⟩
  · split
    · rename_i s' tokens' hFilter
      rw [hFilter] at hSame hAgree
      dsimp only at hSame
      rw [hSame]
      exact ⟨rfl, hAgree⟩
    · rename_i s' tokens' hFilter
      rw [hFilter] at hSame hAgree
      dsimp only at hSame
      rw [hSame]
      exact ⟨rfl, hAgree⟩

theorem receive_of_room (hRatio : s.ratio = 1) (hRoom : s.size < s.capacity) (tokens : Tokens)
    (p : Pooled) : (s.receive tokens p).1 = true := by
  have hThrough := filter_of_ratio_one hRatio tokens p
  unfold receive
  rw [if_neg (Nat.not_le.mpr hRoom)]
  split
  · rename_i hFilter
    rw [hFilter] at hThrough
    exact absurd hThrough (by simp)
  · rfl

/-- Items that are received change what a stack holds and what its filter has counted. -/
theorem receiveAll_frame (s : Stack) (tokens : Tokens) (ps : List Pooled) :
    (s.receiveAll tokens ps).2.1 =
        { s with entries := (s.receiveAll tokens ps).2.1.entries,
                 offers := (s.receiveAll tokens ps).2.1.offers } ∧
      tokens.Agree (s.receiveAll tokens ps).2.2 := by
  induction ps generalizing s tokens with
  | nil => exact ⟨rfl, .refl _⟩
  | cons p rest ih =>
    obtain ⟨hSame, hAgree⟩ := s.receive_frame tokens p
    obtain ⟨hRest, hAgreeRest⟩ := ih (s.receive tokens p).2.1 (s.receive tokens p).2.2
    simp only [receiveAll]
    refine ⟨?_, hAgree.trans hAgreeRest⟩
    rw [hRest, hSame]

/-- Each of several items is kept or turned away. -/
theorem receiveAll_perm (s : Stack) (tokens : Tokens) (ps : List Pooled) :
    ((s.receiveAll tokens ps).1 ++ (s.receiveAll tokens ps).2.1.entries).Perm
      (ps ++ s.entries) := by
  induction ps generalizing s tokens with
  | nil => exact .refl _
  | cons p rest ih =>
    obtain ⟨hSame, -⟩ := s.receive_frame tokens p
    have hRest := ih (s.receive tokens p).2.1 (s.receive tokens p).2.2
    have hEntries := congrArg entries hSame
    simp only [receiveAll]
    cases hKept : (s.receive tokens p).1 with
    | true =>
      rw [hKept] at hEntries
      rw [hEntries] at hRest
      exact hRest.trans List.perm_middle
    | false =>
      rw [hKept] at hEntries
      rw [hEntries] at hRest
      exact hRest.cons p

/-- Without a filter every item is kept for which there is room. -/
theorem receiveAll_of_room (hRatio : s.ratio = 1) (hRoom : s.size + ps.length ≤ s.capacity)
    (tokens : Tokens) : (s.receiveAll tokens ps).1 = [] := by
  induction ps generalizing s tokens with
  | nil => rfl
  | cons p rest ih =>
    rw [List.length_cons] at hRoom
    have hKept := receive_of_room hRatio (show s.size < s.capacity by omega) tokens p
    obtain ⟨hSame, -⟩ := s.receive_frame tokens p
    rw [hKept] at hSame
    simp only [receiveAll, hKept, if_true]
    refine ih ?_ ?_ _
    · rw [hSame]
      exact hRatio
    · rw [hSame]
      show s.entries.length + 1 + rest.length ≤ s.capacity
      rw [size] at hRoom
      omega

theorem Sound.receiveAll (h : s.Sound) (hRoom : s.size + ps.length ≤ s.capacity)
    (tokens : Tokens) : (s.receiveAll tokens ps).2.1.Sound := by
  obtain ⟨hSame, -⟩ := s.receiveAll_frame tokens ps
  have hLength := (s.receiveAll_perm tokens ps).length_eq
  rw [List.length_append, List.length_append] at hLength
  rw [hSame]
  refine ⟨?_, h.capacity_le, h.capacity_pos⟩
  show (s.receiveAll tokens ps).2.1.entries.length ≤ s.capacity
  rw [size] at hRoom
  omega

-- ---------------------------------------------------------------------------
-- Growing
-- ---------------------------------------------------------------------------

theorem le_doubled (goal steps capacity : Nat) : capacity ≤ doubled goal steps capacity := by
  induction steps generalizing capacity with
  | zero => exact Nat.le_refl _
  | succ steps ih =>
    rw [doubled]
    split
    · omega
    · exact Nat.le_trans (show capacity ≤ 2 * capacity by omega) (ih _)

theorem capacity_le_grow (h : s.Sound) (need : Nat) : s.capacity ≤ (s.grow need).capacity :=
  Nat.le_min.mpr ⟨Nat.le_trans (Nat.le_max_left ..) (le_doubled ..), h.capacity_le⟩

/-- A stack that may hold more has room for one more once it has grown. -/
theorem size_lt_grow (h : s.Sound) (hRoom : s.size < s.maxCapacity) (need : Nat) :
    s.size < (s.grow need).capacity := by
  have hSize := h.size_le
  have hTwice : 2 * max s.capacity 1 ≤
      doubled (min need s.maxCapacity) (min need s.maxCapacity + 1) (max s.capacity 1) := by
    rw [doubled]
    split
    · exact Nat.le_refl _
    · exact le_doubled ..
  show s.size < min (doubled _ _ _) s.maxCapacity
  omega

theorem Sound.grow (h : s.Sound) (need : Nat) : (s.grow need).Sound where
  size_le := Nat.le_trans h.size_le (capacity_le_grow h need)
  capacity_le := Nat.min_le_right ..
  capacity_pos hPos := Nat.lt_of_lt_of_le (h.capacity_pos hPos) (capacity_le_grow h need)

end BlockPool.Recycling.Stack
