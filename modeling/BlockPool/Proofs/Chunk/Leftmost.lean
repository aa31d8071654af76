import BlockPool.Proofs.Chunk.Buddy

/-!
# BlockPool — the way down finds the leftmost node

Taking goes down from the root and looks at two entries in each step. That it neither gets stuck
nor passes a free node by is a fact about all entries at once: every node above an open one
promises a run of its depth, so the half on the left is refused only where nothing in it is open.

* `Buddy.Open` — nothing is taken at a node, below it or above it.
* `Buddy.Descends` — the way down without a bound on its steps, with the entries it reads in the
  tree.
* `Buddy.Sound.exists_descends` — the way down ends after as many steps as the depth says.
* `Buddy.Sound.le_of_open`, `Buddy.Sound.take?_eq_none_iff` — the node taken is the leftmost open
  one of its depth, and none is taken only where none is open.
-/

namespace BlockPool.Buddy

variable {t t' : Buddy} {id d k n m : Nat}

-- ---------------------------------------------------------------------------
-- Open nodes
-- ---------------------------------------------------------------------------

/-- Nothing is taken at the node, below it or above it. -/
def Open (t : Buddy) (id : Nat) : Prop :=
  ∀ m, t.isTaken m = true → ¬ Under id m ∧ ¬ Under m id

theorem Open.below (h : t.Open id) (hUnder : Under id m) : t.isTaken m = false := by
  by_contra hTaken
  exact (h m (by simpa using hTaken)).1 hUnder

theorem Open.above (h : t.Open id) (hUnder : Under m id) : t.isTaken m = false := by
  by_contra hTaken
  exact (h m (by simpa using hTaken)).2 hUnder

/-- A node that is taken was open before. -/
theorem Takes.open (h : t.Takes id t') : t.Open id := by
  intro m hTaken
  constructor
  · intro hUnder
    rw [h.below m hUnder] at hTaken
    exact absurd hTaken (by simp)
  · intro hUnder
    rw [h.above m hUnder] at hTaken
    exact absurd hTaken (by simp)

/-- A node promises every run that one of its halves promises. -/
theorem Sound.roomAt_half_le (h : t.Sound) (hPos : 0 < id) (hInner : id < 2 ^ t.order)
    (hFree : t.isTaken id = false) {half : Nat} (hHalf : half / 2 = id) :
    t.roomAt id ≤ max (depthOf id) (t.roomAt half) := by
  have hLt : id < 2 ^ (t.order + 1) := hInner.trans (Nat.pow_lt_pow_right (by decide) (by omega))
  rw [h.settled id hPos hLt, expectedRoom_of_inner hFree hPos hInner]
  have hSide : half = 2 * id ∨ half = 2 * id + 1 := by omega
  rcases hSide with rfl | rfl <;> split <;> omega

/-- Every node above an open one promises a run of its depth. -/
theorem Sound.roomAt_le_of_open (h : t.Sound) (hPos : 0 < id) (hLt : id < 2 ^ (t.order + 1))
    (hOpen : t.Open id) (hUnder : Under m id) (hm : 0 < m) : t.roomAt m ≤ depthOf id := by
  obtain ⟨k, rfl⟩ := hUnder
  induction k with
  | zero =>
    simp only [pow_zero, Nat.div_one]
    exact Nat.le_of_eq ((h.room_eq_depthOf_iff id hPos hLt).mpr fun m => hOpen.below)
  | succ k ih =>
    have hHalf : id / 2 ^ k / 2 = id / 2 ^ (k + 1) := by rw [Nat.div_div_eq_div_mul, pow_succ]
    have hHalfPos : 0 < id / 2 ^ k := by omega
    have hHalfLt : id / 2 ^ k < 2 ^ (t.order + 1) := (Nat.div_le_self ..).trans_lt hLt
    have hDepth := depthOf_div_pow hm
    have hInner : id / 2 ^ (k + 1) < 2 ^ t.order := by
      rw [pow_succ] at hHalfLt
      omega
    have hStep := h.roomAt_half_le hm hInner (hOpen.above ⟨k + 1, rfl⟩) hHalf
    have hHalfRoom := ih hHalfPos
    omega

-- ---------------------------------------------------------------------------
-- The way down
-- ---------------------------------------------------------------------------

/-- Whether the way down to a depth goes on below a node. -/
def GoesOn (t : Buddy) (d id : Nat) : Prop := t.roomAt id < d ∨ id < 1 <<< d

/-- The half of a node that the way down goes on to. -/
def lower (t : Buddy) (d id : Nat) : Nat :=
  if t.roomAt (2 * id) > d then 2 * id + 1 else 2 * id

/-- The way down to a depth leads from one node to another in so many steps, and both halves of
every node on it have an entry. Nothing bounds the steps from outside. -/
inductive Descends (t : Buddy) (d : Nat) : Nat → Nat → Nat → Prop
  | stop {id : Nat} (hDone : ¬ t.GoesOn d id) : Descends t d 0 id id
  | step {k id n : Nat} (hGoes : t.GoesOn d id) (hInside : 2 * id + 1 < t.numNodes)
      (hRest : Descends t d k (t.lower d id) n) : Descends t d (k + 1) id n

theorem lower_div_two (t : Buddy) (d id : Nat) : t.lower d id / 2 = id := by
  unfold lower
  split <;> omega

theorem Descends.under (h : t.Descends d k id n) : Under id n := by
  induction h with
  | stop => exact .refl _
  | @step _ id _ _ _ _ ih =>
    have hLower : Under id (t.lower d id) := ⟨1, by simpa using t.lower_div_two d id⟩
    exact hLower.trans ih

/-- With as many steps to spend as the way down has, the bounded search finds its end. -/
theorem Descends.descend_eq (h : t.Descends d k id n) {steps : Nat} (hSteps : k ≤ steps) :
    t.descend d steps id = some n := by
  induction h generalizing steps with
  | stop hDone =>
    rw [GoesOn] at hDone
    cases steps <;> rw [descend, if_neg hDone]
  | step hGoes _ _ ih =>
    cases steps with
    | zero => omega
    | succ steps =>
      rw [GoesOn] at hGoes
      rw [descend, if_pos hGoes]
      exact ih (by omega)

/-- A node that promises a run of the depth is passed until the depth is reached. -/
theorem Sound.goesOn_iff (h : t.Sound) (hPos : 0 < id) (hRoom : t.roomAt id ≤ d)
    (hDepth : depthOf id ≤ d) (hd : d ≤ t.order) : t.GoesOn d id ↔ depthOf id < d := by
  have hLt : id < 2 ^ (t.order + 1) := (depthOf_lt_iff hPos).mp (by omega)
  have hLeast := (h.bounds hPos hLt).1
  rw [GoesOn, Nat.one_shiftLeft, ← depthOf_lt_iff hPos]
  omega

/-- From a node that promises a run of a depth, the way down ends at that depth after one step for
each level, without reading past the entries of the tree, and no open node of the depth below the
first one stands to the left of where it ends. -/
theorem Sound.exists_descends (h : t.Sound) (hd : d ≤ t.order) :
    ∀ (k id : Nat), 0 < id → t.roomAt id ≤ d → depthOf id + k = d →
      ∃ n, t.Descends d k id n ∧ depthOf n = d ∧
        ∀ m, Under id m → depthOf m = d → t.Open m → n ≤ m := by
  intro k
  induction k with
  | zero =>
    intro id hPos hRoom hDepth
    refine ⟨id, .stop ?_, hDepth, fun m hUnder _ _ => hUnder.le⟩
    rw [h.goesOn_iff hPos hRoom (by omega) hd]
    omega
  | succ k ih =>
    intro id hPos hRoom hDepth
    have hInner : id < 2 ^ t.order := (depthOf_lt_iff hPos).mp (by omega)
    have hDouble : 2 ^ (t.order + 1) = 2 * 2 ^ t.order := by rw [pow_succ, mul_comm]
    -- one of the halves promises the run, and the way down goes there
    obtain ⟨next, hNext, hHalf, hNextRoom⟩ := h.exists_next hPos hInner hRoom (by omega) hd
    have hLower : next = t.lower d id := hNext
    have hNextDepth := depthOf_half hPos hHalf
    obtain ⟨n, hRest, hn, hFirst⟩ := ih next (by omega) hNextRoom (by omega)
    refine ⟨n, .step ((h.goesOn_iff hPos hRoom (by omega) hd).mpr (by omega)) ?_
      (hLower ▸ hRest), hn, fun m hUnder hm hOpen => ?_⟩
    · rw [numNodes, h.size]
      omega
    · have hNe : id ≠ m := by
        rintro rfl
        omega
      have hPosM : 0 < m := hPos.trans_le hUnder.le
      have hLtM : m < 2 ^ (t.order + 1) := (depthOf_lt_iff hPosM).mp (by omega)
      by_cases hLeft : Under (2 * id) m
      · -- the half on the left promises the run of the open node, so the way down goes there
        have hPromise := h.roomAt_le_of_open hPosM hLtM hOpen hLeft (by omega)
        rw [if_neg (by omega)] at hNext
        exact hFirst m (hNext ▸ hLeft) hm hOpen
      · have hRight : Under (2 * id + 1) m := (hUnder.half hNe).resolve_left hLeft
        by_cases hTurn : t.roomAt (2 * id) > d
        · rw [if_pos hTurn] at hNext
          exact hFirst m (hNext ▸ hRight) hm hOpen
        · -- nodes of one depth stand in the order of the nodes above them
          rw [if_neg hTurn] at hNext
          have hRest' := hRest.under.div_eq (by omega)
          have hRight' := hRight.div_eq (by omega)
          rw [hn, hNextDepth] at hRest'
          rw [hm, depthOf_right hPos] at hRight'
          by_contra hLess
          have := Nat.div_le_div_right (c := 2 ^ (d - (depthOf id + 1))) (Nat.le_of_not_le hLess)
          omega

-- ---------------------------------------------------------------------------
-- Taking
-- ---------------------------------------------------------------------------

/-- The root promises a run of a depth exactly where a node of the depth is open. -/
theorem Sound.roomAt_root_le_iff (h : t.Sound) (hd : d ≤ t.order) :
    t.roomAt 1 ≤ d ↔ ∃ m, 0 < m ∧ depthOf m = d ∧ t.Open m := by
  constructor
  · intro hRoom
    obtain ⟨m, t', -, hDepth, hTakes⟩ := h.exists_take hd hRoom
    exact ⟨m, hTakes.pos, hDepth, hTakes.open⟩
  · rintro ⟨m, hPos, rfl, hOpen⟩
    have hLt : m < 2 ^ (t.order + 1) := (depthOf_lt_iff hPos).mp (by omega)
    exact h.roomAt_le_of_open hPos hLt hOpen (under_root hPos) (by decide)

/-- No node of a depth is taken only where none is open. -/
theorem Sound.take?_eq_none_iff (h : t.Sound) (hd : d ≤ t.order) :
    t.take? d = none ↔ ∀ m, 0 < m → depthOf m = d → ¬ t.Open m := by
  constructor
  · intro hNone m hPos hDepth hOpen
    obtain ⟨m, t', hTake, -⟩ :=
      h.exists_take hd ((h.roomAt_root_le_iff hd).mpr ⟨m, hPos, hDepth, hOpen⟩)
    rw [hNone] at hTake
    exact absurd hTake (by simp)
  · intro hFull
    rw [take?, if_pos]
    by_contra hRoom
    obtain ⟨m, hPos, hDepth, hOpen⟩ := (h.roomAt_root_le_iff hd).mp (Nat.le_of_not_lt hRoom)
    exact hFull m hPos hDepth hOpen

/-- The node that is taken is where the way down ends, and no open node of its depth stands to the
left of it. -/
theorem Sound.le_of_open (h : t.Sound) (hd : d ≤ t.order) (hTake : t.take? d = some (n, t')) :
    t.Descends d d 1 n ∧ ∀ m, 0 < m → depthOf m = d → t.Open m → n ≤ m := by
  have hRoom : t.roomAt 1 ≤ d := by
    by_contra hFull
    rw [take?, if_pos (by omega)] at hTake
    exact absurd hTake (by simp)
  obtain ⟨n', hDescends, -, hFirst⟩ := h.exists_descends hd d 1 (by decide) hRoom
    (by rw [depthOf_one, Nat.zero_add])
  have hFound := hDescends.descend_eq hd
  rw [take?, if_neg (by omega), hFound] at hTake
  obtain rfl : n' = n := by
    dsimp only at hTake
    split at hTake
    · exact absurd hTake (by simp)
    · exact (Prod.mk.inj (Option.some.inj hTake)).1
  exact ⟨hDescends, fun m hPos => hFirst m (under_root hPos)⟩

end BlockPool.Buddy
