import BlockPool.Proofs.Chunk.Tree
import BlockPool.Proofs.Store.Bitmap

/-!
# BlockPool — buddy trees stay settled

A buddy tree is settled when every entry is what its halves ask for. Taking and giving back change
one entry and then walk up to the root; on the way only the nodes strictly above the current one
may be unsettled, and each step settles one of them. That is one argument for two different loops.

* `Buddy.Sound` — the entries are settled, and no taken node lies under another.
* `Buddy.Sound.room_eq_depthOf_iff` — an entry names the node's own depth exactly when nothing is
  taken at or below it.
* `Buddy.Sound.exists_take`, `Buddy.Sound.exists_give` — what the two operations do.
* `Buddy.Sound.room_eq` — the entries are a function of the taken nodes alone.
-/

namespace BlockPool.Buddy

variable {t t' : Buddy} {id d : Nat}

-- ---------------------------------------------------------------------------
-- Entries
-- ---------------------------------------------------------------------------

theorem numPages_eq (t : Buddy) : t.numPages = 2 ^ t.order := Nat.one_shiftLeft t.order

theorem roomAt_setRoom (t : Buddy) (x value id : Nat) :
    (t.setRoom x value).roomAt id = if x = id ∧ x < t.room.size then value else t.roomAt id := by
  rw [roomAt, roomAt, setRoom, Array.getD_eq_getD_getElem?, Array.getD_eq_getD_getElem?,
    Array.getElem?_setIfInBounds]
  by_cases hx : x = id
  · subst hx
    by_cases hLt : x < t.room.size <;> simp [hLt]
  · simp [hx]

theorem isTaken_eq (t : Buddy) (id : Nat) :
    t.isTaken id = (decide (id < t.taken.bits) && t.taken.holds id) := by
  unfold isTaken Bitmap.get
  by_cases hLt : id < t.taken.bits
  · simp [hLt, Nat.not_le.mpr hLt]
  · simp [hLt, Nat.le_of_not_lt hLt]

@[simp] theorem isTaken_setRoom (t : Buddy) (x value id : Nat) :
    (t.setRoom x value).isTaken id = t.isTaken id := rfl

/-- A taken node is marked as having no room. -/
theorem expectedRoom_of_taken (h : t.isTaken id = true) : t.expectedRoom id = t.order + 1 := by
  simp [expectedRoom, h, unusable]

theorem expectedRoom_of_page (h : t.isTaken id = false) (hPage : 2 ^ t.order ≤ id) :
    t.expectedRoom id = depthOf id := by
  simp [expectedRoom, h, numPages_eq, hPage]

theorem expectedRoom_of_inner (h : t.isTaken id = false) (hPos : 0 < id)
    (hInner : id < 2 ^ t.order) :
    t.expectedRoom id =
      if t.roomAt (2 * id) = depthOf id + 1 ∧ t.roomAt (2 * id + 1) = depthOf id + 1
      then depthOf id else min (t.roomAt (2 * id)) (t.roomAt (2 * id + 1)) := by
  simp [expectedRoom, h, numPages_eq, Nat.not_le.mpr hInner, depthOf_left hPos, depthOf_right hPos]

/-- What a node must hold depends on its own mark and on its halves. -/
theorem expectedRoom_setRoom (t : Buddy) (x value : Nat) (hLeft : x ≠ 2 * id)
    (hRight : x ≠ 2 * id + 1) : (t.setRoom x value).expectedRoom id = t.expectedRoom id := by
  unfold expectedRoom
  simp only [roomAt_setRoom, isTaken_setRoom]
  simp [hLeft, hRight, setRoom, numPages, unusable]

-- ---------------------------------------------------------------------------
-- Soundness
-- ---------------------------------------------------------------------------

/-- The arrays of the tree have the lengths that its order asks for. -/
structure Shaped (t : Buddy) : Prop where
  size : t.room.size = 2 ^ (t.order + 1)
  /-- The entry in front of the root is never used. -/
  unused : t.roomAt 0 = 0
  bitmap : t.taken.Sound
  bits : t.taken.bits = 2 ^ (t.order + 1)
  words : t.taken.store.size = (Bitmap.empty (2 ^ (t.order + 1))).store.size

/-- Every entry is right, except perhaps those strictly above `n`. -/
def SettledBeside (t : Buddy) (n : Nat) : Prop :=
  ∀ id, 0 < id → id < 2 ^ (t.order + 1) → ¬ (Under id n ∧ id ≠ n) →
    t.roomAt id = t.expectedRoom id

/-- What every reachable tree satisfies. -/
structure Sound (t : Buddy) : Prop extends Shaped t where
  settled : ∀ id, 0 < id → id < 2 ^ (t.order + 1) → t.roomAt id = t.expectedRoom id
  root : t.isTaken 0 = false
  /-- No taken node lies under another. -/
  apart : ∀ a b, t.isTaken a = true → t.isTaken b = true → Under a b → a = b

/-- Pages first, then upwards: what holds of the halves of a node carries over to it. -/
theorem upward_induction {order : Nat} {P : Nat → Prop}
    (page : ∀ id, 2 ^ order ≤ id → id < 2 ^ (order + 1) → P id)
    (inner : ∀ id, 0 < id → id < 2 ^ order → P (2 * id) → P (2 * id + 1) → P id) :
    ∀ id, 0 < id → id < 2 ^ (order + 1) → P id := by
  intro id
  induction hRest : 2 ^ (order + 1) - id using Nat.strong_induction_on generalizing id with
  | _ rest ih =>
    intro hPos hLt
    by_cases hPage : 2 ^ order ≤ id
    · exact page id hPage hLt
    · have hDouble : 2 ^ (order + 1) = 2 * 2 ^ order := by rw [pow_succ, mul_comm]
      exact inner id hPos (by omega)
        (ih _ (by omega) (2 * id) rfl (by omega) (by omega))
        (ih _ (by omega) (2 * id + 1) rfl (by omega) (by omega))

theorem depthOf_le_order {order : Nat} (hPos : 0 < id) (hLt : id < 2 ^ (order + 1)) :
    depthOf id ≤ order := by
  have := (depthOf_lt_iff hPos).mpr hLt
  omega

/-- The halves of a node that is not strictly above `n` are not either. -/
private theorem not_above_of_half {n half : Nat} (hPos : 0 < id) (hHalf : half / 2 = id)
    (h : ¬ (Under id n ∧ id ≠ n)) : ¬ (Under half n ∧ half ≠ n) := by
  rintro ⟨hUnder, -⟩
  have hLe := hUnder.le
  exact h ⟨Under.trans ⟨1, by simpa using hHalf⟩ hUnder, by omega⟩

/-- A settled entry names a depth at or below the node, or that nothing is free. -/
theorem SettledBeside.bounds {n : Nat} (h : t.SettledBeside n) :
    ∀ id, 0 < id → id < 2 ^ (t.order + 1) → ¬ (Under id n ∧ id ≠ n) →
      depthOf id ≤ t.roomAt id ∧ t.roomAt id ≤ t.order + 1 := by
  refine upward_induction ?_ ?_
  -- a page first, then a node whose halves are known
  · intro id hPage hLt hNot
    have hPos : 0 < id := (Nat.two_pow_pos _).trans_le hPage
    have hDepth := depthOf_le_order hPos hLt
    rw [h id hPos hLt hNot]
    cases hTaken : t.isTaken id with
    | true =>
      rw [expectedRoom_of_taken hTaken]
      omega
    | false =>
      rw [expectedRoom_of_page hTaken hPage]
      omega
  · intro id hPos hInner ihLeft ihRight hNot
    have hLt : id < 2 ^ (t.order + 1) := hInner.trans (Nat.pow_lt_pow_right (by decide) (by omega))
    have hDepth := depthOf_le_order hPos hLt
    have hLeft := ihLeft (not_above_of_half hPos (by omega) hNot)
    have hRight := ihRight (not_above_of_half hPos (by omega) hNot)
    rw [depthOf_left hPos] at hLeft
    rw [depthOf_right hPos] at hRight
    rw [h id hPos hLt hNot]
    cases hTaken : t.isTaken id with
    | true =>
      rw [expectedRoom_of_taken hTaken]
      omega
    | false =>
      rw [expectedRoom_of_inner hTaken hPos hInner]
      split <;> omega

theorem Sound.settledBeside (h : t.Sound) (n : Nat) : t.SettledBeside n :=
  fun id hPos hLt _ => h.settled id hPos hLt

theorem Sound.bounds (h : t.Sound) (hPos : 0 < id) (hLt : id < 2 ^ (t.order + 1)) :
    depthOf id ≤ t.roomAt id ∧ t.roomAt id ≤ t.order + 1 :=
  (h.settledBeside id).bounds id hPos hLt (by simp)

/-- Nothing lies strictly above the root, so a tree that is settled beside it is settled. -/
theorem SettledBeside.settled (h : t.SettledBeside 1) :
    ∀ id, 0 < id → id < 2 ^ (t.order + 1) → t.roomAt id = t.expectedRoom id := by
  intro id hPos hLt
  apply h id hPos hLt
  rintro ⟨hUnder, hNe⟩
  have := hUnder.le
  omega

theorem Shaped.lt_of_isTaken (h : t.Shaped) (hTaken : t.isTaken id = true) :
    id < 2 ^ (t.order + 1) := by
  rw [isTaken_eq, Bool.and_eq_true, decide_eq_true_eq] at hTaken
  rw [← h.bits]
  exact hTaken.1

theorem Sound.pos_of_isTaken (h : t.Sound) (hTaken : t.isTaken id = true) : 0 < id := by
  by_contra hZero
  rw [show id = 0 by omega, h.root] at hTaken
  exact absurd hTaken (by simp)

/-- An entry names the node's own depth exactly when nothing is taken at or below the node. -/
theorem Sound.room_eq_depthOf_iff (h : t.Sound) :
    ∀ id, 0 < id → id < 2 ^ (t.order + 1) →
      (t.roomAt id = depthOf id ↔ ∀ m, Under id m → t.isTaken m = false) := by
  refine upward_induction ?_ ?_
  · intro id hPage hLt
    have hPos : 0 < id := (Nat.two_pow_pos _).trans_le hPage
    have hDepth := depthOf_le_order hPos hLt
    -- below a page there are no nodes of the tree
    have hOnly : ∀ m, Under id m → m ≠ id → t.isTaken m = false := by
      intro m hUnder hNe
      by_contra hTaken
      have hm := h.lt_of_isTaken (by simpa using hTaken)
      rw [pow_succ] at hm
      rcases hUnder.half (Ne.symm hNe) with hLeft | hRight
      · have := hLeft.le
        omega
      · have := hRight.le
        omega
    rw [h.settled id hPos hLt]
    constructor
    · intro hEq m hUnder
      by_cases hm : m = id
      · subst hm
        by_contra hTaken
        rw [expectedRoom_of_taken (by simpa using hTaken)] at hEq
        omega
      · exact hOnly m hUnder hm
    · intro hFree
      exact expectedRoom_of_page (hFree id (Under.refl id)) hPage
  · intro id hPos hInner ihLeft ihRight
    have hLt : id < 2 ^ (t.order + 1) := hInner.trans (Nat.pow_lt_pow_right (by decide) (by omega))
    have hDouble : 2 ^ (t.order + 1) = 2 * 2 ^ t.order := by rw [pow_succ, mul_comm]
    have hDepth := depthOf_le_order hPos hLt
    have hLeftLow := (h.bounds (show 0 < 2 * id by omega) (by omega)).1
    have hRightLow := (h.bounds (show 0 < 2 * id + 1 by omega) (by omega)).1
    rw [depthOf_left hPos] at ihLeft hLeftLow
    rw [depthOf_right hPos] at ihRight hRightLow
    rw [h.settled id hPos hLt]
    constructor
    · intro hEq m hUnder
      have hFree : t.isTaken id = false := by
        by_contra hTaken
        rw [expectedRoom_of_taken (by simpa using hTaken)] at hEq
        omega
      rw [expectedRoom_of_inner hFree hPos hInner] at hEq
      split at hEq
      · rename_i hWhole
        by_cases hm : id = m
        · exact hm ▸ hFree
        · rcases hUnder.half hm with hLeft | hRight
          · exact ihLeft.mp hWhole.1 m hLeft
          · exact ihRight.mp hWhole.2 m hRight
      · omega
    · intro hFree
      rw [expectedRoom_of_inner (hFree id (Under.refl id)) hPos hInner, if_pos]
      exact ⟨ihLeft.mpr fun m hm => hFree m ((under_left id).trans hm),
        ihRight.mpr fun m hm => hFree m ((under_right id).trans hm)⟩

-- ---------------------------------------------------------------------------
-- The tree with every page free
-- ---------------------------------------------------------------------------

theorem roomAt_fresh {order : Nat} (hLt : id < 2 ^ (order + 1)) :
    (fresh order).roomAt id = depthOf id := by
  rw [roomAt, fresh, Array.getD_eq_getD_getElem?, Array.getElem?_ofFn]
  simp [Nat.one_shiftLeft, hLt]

theorem isTaken_fresh (order id : Nat) : (fresh order).isTaken id = false := by
  rw [isTaken_eq, fresh, Bitmap.empty, Bitmap.holds_withCapacity, Bool.and_false]

/-- In a fresh tree nothing is taken, and every entry names the depth of its own node. -/
theorem sound_fresh (order : Nat) : (fresh order).Sound where
  size := by simp [fresh, Nat.one_shiftLeft]
  unused := by
    rw [roomAt_fresh (Nat.two_pow_pos _)]
    rfl
  bitmap := Bitmap.sound_withCapacity ..
  bits := Nat.one_shiftLeft _
  words := by simp [fresh, Nat.one_shiftLeft]
  root := isTaken_fresh ..
  apart a b ha := by
    rw [isTaken_fresh] at ha
    exact absurd ha (by simp)
  settled id hPos hLt := by
    have hLt : id < 2 ^ (order + 1) := hLt
    rw [roomAt_fresh hLt]
    by_cases hPage : 2 ^ order ≤ id
    · rw [expectedRoom_of_page (isTaken_fresh ..) hPage]
    · have hDouble : 2 ^ (order + 1) = 2 * 2 ^ order := by rw [pow_succ, mul_comm]
      rw [expectedRoom_of_inner (isTaken_fresh ..) hPos (by simpa [fresh] using hPage),
        roomAt_fresh (by omega), roomAt_fresh (by omega), depthOf_left hPos, depthOf_right hPos,
        if_pos ⟨rfl, rfl⟩]

-- ---------------------------------------------------------------------------
-- Walking up
-- ---------------------------------------------------------------------------

theorem Shaped.setRoom (h : t.Shaped) {x : Nat} (hx : 0 < x) (value : Nat) :
    (t.setRoom x value).Shaped where
  size := by
    rw [Buddy.setRoom, Array.size_setIfInBounds]
    exact h.size
  unused := by
    rw [roomAt_setRoom, if_neg (by omega)]
    exact h.unused
  bitmap := h.bitmap
  bits := h.bits
  words := h.words

/-- One step up: where all but the nodes strictly above `id` are settled, putting the entry above
`id` right leaves one node fewer to settle. -/
theorem SettledBeside.step (h : t.SettledBeside id) (hShape : t.Shaped) (hId : 1 < id)
    (hLt : id < 2 ^ (t.order + 1)) {value : Nat} (hValue : value = t.expectedRoom (id / 2)) :
    (t.setRoom (id / 2) value).SettledBeside (id / 2) := by
  intro m hPos hm hNot
  have hSize : id / 2 < t.room.size := by
    rw [hShape.size]
    omega
  -- the entry that changes is read by the node above it only
  have hLeft : id / 2 ≠ 2 * m := by
    intro hEq
    exact hNot ⟨hEq ▸ under_left m, by omega⟩
  have hRight : id / 2 ≠ 2 * m + 1 := by
    intro hEq
    exact hNot ⟨hEq ▸ under_right m, by omega⟩
  rw [expectedRoom_setRoom t _ value hLeft hRight, roomAt_setRoom]
  by_cases hmId : id / 2 = m
  · rw [if_pos ⟨hmId, hSize⟩, hValue, hmId]
  · rw [if_neg (by tauto)]
    apply h m hPos hm
    rintro ⟨hUnder, hNe⟩
    exact hNot ⟨hUnder.above hNe, fun hEq => hmId hEq.symm⟩

/-- The entry above a node, from the node's own entry and its sibling's. -/
theorem expectedRoom_above (hId : 1 < id) (hLt : id < 2 ^ (t.order + 1))
    (hFree : t.isTaken (id / 2) = false) :
    t.expectedRoom (id / 2) =
      if t.roomAt id = depthOf id ∧ t.roomAt (sibling id) = depthOf id
      then depthOf id - 1 else min (t.roomAt id) (t.roomAt (sibling id)) := by
  have hInner : id / 2 < 2 ^ t.order := by
    rw [pow_succ] at hLt
    omega
  rw [expectedRoom_of_inner hFree (by omega) hInner, depthOf_above hId]
  rcases sibling_cases id with ⟨hSelf, hSibling⟩ | ⟨hSelf, hSibling⟩
  · rw [hSibling, ← hSelf]
    simp
  · rw [hSibling, ← hSelf, min_comm]
    simp [and_comm]

/-- What the way up from a node keeps and what it reaches. -/
structure SettlesTo (t r : Buddy) : Prop extends Shaped r where
  settled : r.SettledBeside 1
  order : r.order = t.order
  taken : r.taken = t.taken

/-- Giving back: the way up settles everything, if no node strictly above is taken. -/
theorem settlesTo_settleFreed :
    ∀ (levels : Nat) (t : Buddy) (id : Nat), t.Shaped → t.SettledBeside id → 0 < id →
      id < 2 ^ (t.order + 1) → depthOf id = levels →
      (∀ a, Under a id → a ≠ id → t.isTaken a = false) →
      SettlesTo t (t.settleFreed levels id) := by
  intro levels
  induction levels with
  | zero =>
    intro t id hShape hSettled hPos _ hDepth _
    have hRoot : id = 1 := (depthOf_eq_zero_iff hPos).mp hDepth
    exact ⟨hShape, hRoot ▸ hSettled, rfl, rfl⟩
  | succ levels ih =>
    intro t id hShape hSettled hPos hLt hDepth hAbove
    have hId : 1 < id := by
      by_contra hRoot
      rw [show id = 1 by omega] at hDepth
      exact absurd hDepth (by simp [depthOf_one])
    have hUp : depthOf (id / 2) = levels := by
      have := depthOf_above hId
      omega
    have hFree : t.isTaken (id / 2) = false := hAbove _ (under_half id) (by omega)
    -- the entry above is what its halves make of it
    have hValue := expectedRoom_above hId hLt hFree
    rw [hDepth, Nat.add_sub_cancel] at hValue
    have hNext := ih _ (id / 2) (hShape.setRoom (by omega) _)
      (hSettled.step hShape hId hLt hValue.symm) (by omega) (by
        show id / 2 < 2 ^ (t.order + 1)
        omega) hUp
      (fun a hUnder hNe => hAbove a (hUnder.trans (under_half id)) (by
        have := hUnder.le
        omega))
    exact ⟨hNext.toShaped, hNext.settled, hNext.order, hNext.taken⟩

/-- Taking: the way up settles everything, if the node is not whole any more and no node strictly
above is taken. The larger run of the halves is then what each entry above must be. -/
theorem settlesTo_settleTaken :
    ∀ (levels : Nat) (t : Buddy) (id : Nat), t.Shaped → t.SettledBeside id → 0 < id →
      id < 2 ^ (t.order + 1) → depthOf id = levels → depthOf id < t.roomAt id →
      (∀ a, Under a id → a ≠ id → t.isTaken a = false) →
      SettlesTo t (t.settleTaken levels id) := by
  intro levels
  induction levels with
  | zero =>
    intro t id hShape hSettled hPos _ hDepth _ _
    have hRoot : id = 1 := (depthOf_eq_zero_iff hPos).mp hDepth
    exact ⟨hShape, hRoot ▸ hSettled, rfl, rfl⟩
  | succ levels ih =>
    intro t id hShape hSettled hPos hLt hDepth hPart hAbove
    have hId : 1 < id := by
      by_contra hRoot
      rw [show id = 1 by omega] at hDepth
      exact absurd hDepth (by simp [depthOf_one])
    have hUp : depthOf (id / 2) = levels := by
      have := depthOf_above hId
      omega
    have hFree : t.isTaken (id / 2) = false := hAbove _ (under_half id) (by omega)
    have hValue := expectedRoom_above hId hLt hFree
    rw [if_neg (by omega)] at hValue
    -- the sibling's entry names a depth no higher than its own
    have hSibling : depthOf id ≤ t.roomAt (sibling id) := by
      rw [← depthOf_sibling hId]
      exact (hSettled.bounds (sibling id) (sibling_pos hId) (sibling_lt hLt)
        (fun h => not_under_sibling hId h.1)).1
    have hRoom : (t.setRoom (id / 2) (min (t.roomAt id) (t.roomAt (sibling id)))).roomAt (id / 2) =
        min (t.roomAt id) (t.roomAt (sibling id)) := by
      rw [roomAt_setRoom, if_pos ⟨rfl, by rw [hShape.size]; omega⟩]
    have hNext := ih _ (id / 2) (hShape.setRoom (by omega) _)
      (hSettled.step hShape hId hLt hValue.symm) (by omega) (by
        show id / 2 < 2 ^ (t.order + 1)
        omega) hUp (by
        rw [hRoom]
        omega)
      (fun a hUnder hNe => hAbove a (hUnder.trans (under_half id)) (by
        have := hUnder.le
        omega))
    exact ⟨hNext.toShaped, hNext.settled, hNext.order, hNext.taken⟩

-- ---------------------------------------------------------------------------
-- The way down
-- ---------------------------------------------------------------------------

/-- Where the way down ends, the node is whole and of the depth. -/
theorem exists_descend_of_stop (steps : Nat) {id : Nat} (hPos : 0 < id) (hRoom : t.roomAt id ≤ d)
    (hDepth : depthOf id ≤ d) (hDone : ¬ (t.roomAt id < d ∨ id < 1 <<< d)) :
    ∃ n, t.descend d steps id = some n ∧ Under id n ∧ depthOf n = d ∧ t.roomAt n = d ∧
      ∀ a, Under id a → Under a n → t.roomAt a ≤ d := by
  have hDescend : t.descend d steps id = some id := by
    cases steps with
    | zero => rw [descend, if_neg hDone]
    | succ steps => rw [descend, if_neg hDone]
  rw [Nat.one_shiftLeft, not_or] at hDone
  have hDeep := (le_depthOf_iff hPos (d := d)).mpr (by omega)
  refine ⟨id, hDescend, .refl id, by omega, by omega, fun a hIdA hAId => ?_⟩
  rw [hAId.antisymm hIdA]
  exact hRoom

/-- If a node promises a run further down, so does the half that the way down goes on to. -/
theorem Sound.exists_next (h : t.Sound) (hPos : 0 < id) (hInner : id < 2 ^ t.order)
    (hRoom : t.roomAt id ≤ d) (hDepth : depthOf id < d) (hd : d ≤ t.order) :
    ∃ next, next = (if t.roomAt (2 * id) > d then 2 * id + 1 else 2 * id) ∧ next / 2 = id ∧
      t.roomAt next ≤ d := by
  have hLt : id < 2 ^ (t.order + 1) := by
    rw [Nat.pow_succ]
    omega
  have hFree : t.isTaken id = false := by
    by_contra hTaken
    rw [h.settled id hPos hLt, expectedRoom_of_taken (by simpa using hTaken)] at hRoom
    omega
  have hHalves := h.settled id hPos hLt
  rw [expectedRoom_of_inner hFree hPos hInner] at hHalves
  refine ⟨_, rfl, ?_, ?_⟩
  · split <;> omega
  · split at hHalves <;> split <;> omega

/-- The way down finds a whole free node of the depth, through entries that promise one. -/
theorem Sound.exists_descend (h : t.Sound) (hd : d ≤ t.order) :
    ∀ (steps id : Nat), 0 < id → t.roomAt id ≤ d → depthOf id ≤ d → d ≤ depthOf id + steps →
      ∃ n, t.descend d steps id = some n ∧ Under id n ∧ depthOf n = d ∧ t.roomAt n = d ∧
        ∀ a, Under id a → Under a n → t.roomAt a ≤ d := by
  intro steps
  induction steps with
  | zero =>
    intro id hPos hRoom hDepth hSteps
    refine exists_descend_of_stop 0 hPos hRoom hDepth ?_
    have hLow : 2 ^ d ≤ id := (le_depthOf_iff hPos).mp (by omega)
    have hLt : id < 2 ^ (t.order + 1) := (depthOf_lt_iff hPos).mp (by omega)
    have hLeast := (h.bounds hPos hLt).1
    rw [Nat.one_shiftLeft]
    omega
  | succ steps ih =>
    intro id hPos hRoom hDepth hSteps
    by_cases hDone : t.roomAt id < d ∨ id < 1 <<< d
    · have hLt : id < 2 ^ (t.order + 1) := (depthOf_lt_iff hPos).mp (by omega)
      have hBounds := h.bounds hPos hLt
      have hShallow : depthOf id < d := by
        rw [Nat.one_shiftLeft] at hDone
        rcases hDone with hLess | hHigh
        · omega
        · exact (depthOf_lt_iff hPos).mpr hHigh
      have hInner : id < 2 ^ t.order := (depthOf_lt_iff hPos).mp (by omega)
      obtain ⟨next, hNextEq, hHalf, hNextRoom⟩ := h.exists_next hPos hInner hRoom hShallow hd
      have hNextDepth := depthOf_half hPos hHalf
      obtain ⟨n, hDescend, hnUnder, hnDepth, hnRoom, hWay⟩ :=
        ih next (by omega) hNextRoom (by omega) (by omega)
      have hIdNext : Under id next := hHalf ▸ under_half next
      refine ⟨n, ?_, hIdNext.trans hnUnder, hnDepth, hnRoom, fun a hIdA hAn => ?_⟩
      · rw [descend, if_pos hDone, ← hDescend, hNextEq]
      · by_cases hEq : a = id
        · exact hEq ▸ hRoom
        -- between the node and its half there is nothing
        · rcases Under.total hnUnder hAn with hDown | hUp
          · exact hWay a hDown hAn
          · by_cases hNext : a = next
            · exact hNext ▸ hNextRoom
            · exact absurd ((hHalf ▸ hUp.above hNext).antisymm hIdA) hEq
    · exact exists_descend_of_stop (steps + 1) hPos hRoom hDepth hDone

-- ---------------------------------------------------------------------------
-- Another mark on one node
-- ---------------------------------------------------------------------------

/-- The tree with other marks, and another entry for the node whose mark changed. -/
def remark (t : Buddy) (taken : Bitmap) (id value : Nat) : Buddy :=
  { t with taken }.setRoom id value

/-- The new marks differ from the old ones at one node of the tree only. -/
structure Remarks (t : Buddy) (id : Nat) (mark : Bool) (taken : Bitmap) : Prop where
  sound : taken.Sound
  bits : taken.bits = t.taken.bits
  words : taken.store.size = t.taken.store.size
  lt : id < t.taken.bits
  holds : ∀ m, taken.holds m = if m = id then mark else t.taken.holds m

theorem Shaped.remarks_set (h : t.Shaped) {taken : Bitmap} (hSet : t.taken.set id = .ok taken) :
    t.Remarks id true taken := by
  obtain ⟨hLt, -, hEq⟩ := Bitmap.set_eq_ok hSet
  exact ⟨h.bitmap.set hSet, by rw [hEq], by rw [hEq, Array.size_setIfInBounds], hLt,
    h.bitmap.holds_set hSet⟩

theorem Shaped.remarks_clear (h : t.Shaped) {taken : Bitmap}
    (hClear : t.taken.clear id = .ok taken) : t.Remarks id false taken := by
  obtain ⟨hLt, -, hEq⟩ := Bitmap.clear_eq_ok hClear
  exact ⟨h.bitmap.clear hClear, by rw [hEq], by rw [hEq, Array.size_setIfInBounds], hLt,
    h.bitmap.holds_clear hClear⟩

theorem Remarks.isTaken {mark : Bool} {taken : Bitmap} (h : t.Remarks id mark taken)
    (value m : Nat) :
    (t.remark taken id value).isTaken m = if m = id then mark else t.isTaken m := by
  rw [remark, isTaken_setRoom, isTaken_eq, isTaken_eq, h.bits, h.holds]
  by_cases hm : m = id
  · simp [hm, h.lt]
  · simp [hm]

theorem roomAt_remark (h : t.Shaped) (hLt : id < 2 ^ (t.order + 1)) (taken : Bitmap)
    (value m : Nat) :
    (t.remark taken id value).roomAt m = if m = id then value else t.roomAt m := by
  have hSize : id < t.room.size := by
    rw [h.size]
    exact hLt
  rw [remark, roomAt_setRoom]
  by_cases hm : m = id
  · simp [hm, hSize]
  · rw [if_neg (by simp [Ne.symm hm]), if_neg hm]
    rfl

/-- After one mark and its entry changed together, all but the nodes above are settled. -/
theorem Sound.remark (h : t.Sound) {mark : Bool} {taken : Bitmap} (hMarks : t.Remarks id mark taken)
    (hPos : 0 < id) (hLt : id < 2 ^ (t.order + 1)) {value : Nat}
    (hValue : (t.remark taken id value).expectedRoom id = value) :
    (t.remark taken id value).Shaped ∧ (t.remark taken id value).SettledBeside id := by
  constructor
  · have hShape : ({ t with taken } : Buddy).Shaped :=
      ⟨h.size, h.unused, hMarks.sound, hMarks.bits.trans h.bits, hMarks.words.trans h.words⟩
    exact hShape.setRoom hPos value
  · intro m hm hmLt hNot
    rw [roomAt_remark h.toShaped hLt]
    by_cases hmId : m = id
    · rw [if_pos hmId, hmId, hValue]
    · have hLeft : id ≠ 2 * m := fun hEq => hNot ⟨hEq ▸ under_left m, hmId⟩
      have hRight : id ≠ 2 * m + 1 := fun hEq => hNot ⟨hEq ▸ under_right m, hmId⟩
      have hSame := hMarks.isTaken value m
      rw [if_neg hmId] at hSame ⊢
      rw [h.settled m hm hmLt]
      rw [Buddy.remark, isTaken_setRoom] at hSame
      rw [Buddy.remark, expectedRoom_setRoom _ _ _ hLeft hRight]
      unfold expectedRoom
      rw [hSame]
      rfl

-- ---------------------------------------------------------------------------
-- Taking a node
-- ---------------------------------------------------------------------------

/-- The tree after a node was taken. -/
structure Takes (t : Buddy) (id : Nat) (t' : Buddy) : Prop where
  sound : t'.Sound
  order : t'.order = t.order
  pos : 0 < id
  /-- Nothing was taken at or below the node, nor above it. -/
  below : ∀ m, Under id m → t.isTaken m = false
  above : ∀ a, Under a id → t.isTaken a = false
  isTaken : ∀ m, t'.isTaken m = if m = id then true else t.isTaken m

/-- Marking a node as taken and walking up settles the tree, if the node is whole and free. -/
theorem Sound.take (h : t.Sound) {taken : Bitmap} (hPos : 0 < id) (hLt : id < 2 ^ (t.order + 1))
    (hWhole : t.roomAt id = depthOf id) (hAbove : ∀ a, Under a id → t.isTaken a = false)
    (hSet : t.taken.set id = .ok taken) :
    t.Takes id ((t.remark taken id t.unusable).settleTaken (depthOf id) id) := by
  have hBelow := (h.room_eq_depthOf_iff id hPos hLt).mp hWhole
  have hDepth := depthOf_le_order hPos hLt
  have hMarks := h.remarks_set hSet
  have hTaken := hMarks.isTaken t.unusable
  have hMark : (t.remark taken id t.unusable).expectedRoom id = t.unusable :=
    expectedRoom_of_taken (by simp [hTaken])
  obtain ⟨hShape, hSettled⟩ := h.remark hMarks hPos hLt hMark
  have hNext := settlesTo_settleTaken (depthOf id) _ id hShape hSettled hPos hLt rfl
    (by
      rw [roomAt_remark h.toShaped hLt, if_pos rfl, unusable]
      omega)
    (fun a hUnder hNe => by simp [hTaken, hNe, hAbove a hUnder])
  set r := (t.remark taken id t.unusable).settleTaken (depthOf id) id with hr
  -- the way up changes entries only
  have hFinal : ∀ m, r.isTaken m = if m = id then true else t.isTaken m := by
    intro m
    rw [← hTaken m, isTaken_eq, isTaken_eq, hNext.taken]
  refine ⟨⟨hNext.toShaped, hNext.settled.settled, ?_, ?_⟩, hNext.order, hPos, hBelow, hAbove,
    hFinal⟩
  · rw [hFinal, if_neg (by omega), h.root]
  · -- nothing else was taken above or below
    intro a b ha hb hUnder
    rw [hFinal] at ha hb
    by_cases haId : a = id
    · by_cases hbId : b = id
      · rw [haId, hbId]
      · rw [if_neg hbId, hBelow b (haId ▸ hUnder)] at hb
        exact absurd hb (by simp)
    · rw [if_neg haId] at ha
      by_cases hbId : b = id
      · rw [hAbove a (hbId ▸ hUnder)] at ha
        exact absurd ha (by simp)
      · rw [if_neg hbId] at hb
        exact h.apart a b ha hb hUnder

/-- Taking succeeds whenever the root promises a run of the depth, and takes a node of it. -/
theorem Sound.exists_take (h : t.Sound) (hd : d ≤ t.order) (hRoom : t.roomAt 1 ≤ d) :
    ∃ id t', t.take? d = some (id, t') ∧ depthOf id = d ∧ t.Takes id t' := by
  obtain ⟨id, hDescend, hUnder, hDepth, hWhole, hWay⟩ :=
    h.exists_descend hd t.order 1 (by decide) hRoom (by simp [depthOf_one])
      (by simpa [depthOf_one] using hd)
  have hPos : 0 < id := hUnder.le
  have hLt : id < 2 ^ (t.order + 1) := (depthOf_lt_iff hPos).mp (by omega)
  have hAbove : ∀ a, Under a id → t.isTaken a = false := by
    intro a ha
    by_contra hTaken
    have hTaken : t.isTaken a = true := by simpa using hTaken
    have hPosA := h.pos_of_isTaken hTaken
    have hLe := hWay a (under_root hPosA) ha
    rw [h.settled a hPosA (h.lt_of_isTaken hTaken), expectedRoom_of_taken hTaken] at hLe
    omega
  have hFree : t.taken.holds id = false := by
    have := hAbove id (.refl id)
    rw [isTaken_eq, h.bits] at this
    simpa [hLt] using this
  obtain ⟨taken, hSet⟩ := Bitmap.exists_set (by rw [h.bits]; exact hLt) hFree
  refine ⟨id, _, ?_, hDepth, h.take hPos hLt (by omega) hAbove hSet⟩
  rw [take?, if_neg (by omega), hDescend]
  simp only [hSet, Buddy.remark]

/-- What taking took was a whole free node of the depth. -/
theorem Sound.takes_of_take? (h : t.Sound) (hd : d ≤ t.order) (hTake : t.take? d = some (id, t')) :
    depthOf id = d ∧ t.Takes id t' := by
  have hRoom : t.roomAt 1 ≤ d := by
    by_contra hNone
    rw [take?, if_pos (by omega)] at hTake
    exact absurd hTake (by simp)
  obtain ⟨id₀, t₀, hEq, hDepth, hTakes⟩ := h.exists_take hd hRoom
  rw [hEq, Option.some.injEq, Prod.mk.injEq] at hTake
  obtain ⟨rfl, rfl⟩ := hTake
  exact ⟨hDepth, hTakes⟩

-- ---------------------------------------------------------------------------
-- Giving a node back
-- ---------------------------------------------------------------------------

/-- The tree after a node was given back. -/
structure Gives (t : Buddy) (id : Nat) (t' : Buddy) : Prop where
  sound : t'.Sound
  order : t'.order = t.order
  isTaken : ∀ m, t'.isTaken m = if m = id then false else t.isTaken m

/-- A node that was taken is whole once it is free again. -/
theorem Sound.expectedRoom_given (h : t.Sound) (hTaken : t.isTaken id = true) {taken : Bitmap}
    (hMarks : t.Remarks id false taken) :
    (t.remark taken id (depthOf id)).expectedRoom id = depthOf id := by
  have hPos := h.pos_of_isTaken hTaken
  have hLt := h.lt_of_isTaken hTaken
  have hFree : (t.remark taken id (depthOf id)).isTaken id = false := by
    rw [hMarks.isTaken, if_pos rfl]
  -- what lies strictly below a taken node is whole
  have hWhole : ∀ half, half / 2 = id → half < 2 ^ (t.order + 1) →
      (t.remark taken id (depthOf id)).roomAt half = depthOf id + 1 := by
    intro half hHalf hHalfLt
    rw [roomAt_remark h.toShaped hLt, if_neg (by omega), ← depthOf_half hPos hHalf]
    refine (h.room_eq_depthOf_iff half (by omega) hHalfLt).mpr fun m hUnder => ?_
    by_contra hm
    have hLe := hUnder.le
    have hEq := h.apart id m hTaken (by simpa using hm)
      (Under.trans (hHalf ▸ under_half half) hUnder)
    omega
  by_cases hPage : 2 ^ t.order ≤ id
  · exact expectedRoom_of_page hFree hPage
  · have hDouble : 2 ^ (t.order + 1) = 2 * 2 ^ t.order := by rw [pow_succ, mul_comm]
    have hInner : id < 2 ^ (t.remark taken id (depthOf id)).order := Nat.lt_of_not_le hPage
    rw [expectedRoom_of_inner hFree hPos hInner, if_pos]
    exact ⟨hWhole _ (by omega) (by omega), hWhole _ (by omega) (by omega)⟩

/-- A taken node can be given back. -/
theorem Sound.exists_give (h : t.Sound) (hTaken : t.isTaken id = true) :
    ∃ t', t.give id = .ok t' ∧ t.Gives id t' := by
  have hPos := h.pos_of_isTaken hTaken
  have hLt := h.lt_of_isTaken hTaken
  have hHeld : id < t.taken.bits ∧ t.taken.holds id = true := by
    rw [isTaken_eq] at hTaken
    simpa using hTaken
  obtain ⟨taken, hClear⟩ := Bitmap.exists_clear hHeld.1 hHeld.2
  have hMarks := h.remarks_clear hClear
  have hTakenAfter := hMarks.isTaken (depthOf id)
  obtain ⟨hShape, hSettled⟩ := h.remark hMarks hPos hLt (h.expectedRoom_given hTaken hMarks)
  have hNext := settlesTo_settleFreed (depthOf id) _ id hShape hSettled hPos hLt rfl
    -- taken nodes lie apart, so none is above the one that is given back
    (fun a hUnder hNe => by
      rw [hTakenAfter, if_neg hNe]
      by_contra ha
      exact hNe (h.apart a id (by simpa using ha) hTaken hUnder))
  set r := (t.remark taken id (depthOf id)).settleFreed (depthOf id) id with hr
  have hFinal : ∀ m, r.isTaken m = if m = id then false else t.isTaken m := by
    intro m
    rw [← hTakenAfter m, isTaken_eq, isTaken_eq, hNext.taken]
  -- fewer nodes are taken than before
  have hOnly : ∀ m, r.isTaken m = true → t.isTaken m = true := by
    intro m hm
    rw [hFinal] at hm
    split at hm
    · exact absurd hm (by simp)
    · exact hm
  refine ⟨r, by simp only [give, hClear, hr, Buddy.remark],
    ⟨hNext.toShaped, hNext.settled.settled, ?_, ?_⟩, hNext.order, hFinal⟩
  · rw [hFinal, h.root, ite_self]
  · intro a b ha hb hUnder
    exact h.apart a b (hOnly a ha) (hOnly b hb) hUnder

/-- A node that is not taken cannot be given back. -/
theorem exists_give_error (hFree : t.isTaken id = false) : ∃ e, t.give id = .error e := by
  cases hClear : t.taken.clear id with
  | error e => exact ⟨e, by simp only [give, hClear]⟩
  | ok taken =>
    obtain ⟨hLt, hHeld, -⟩ := Bitmap.clear_eq_ok hClear
    rw [isTaken_eq] at hFree
    simp [hLt, hHeld] at hFree

/-- What was given back had been taken. -/
theorem Sound.gives_of_give (h : t.Sound) (hGive : t.give id = .ok t') :
    t.isTaken id = true ∧ t.Gives id t' := by
  cases hTaken : t.isTaken id with
  | false =>
    obtain ⟨e, hError⟩ := exists_give_error hTaken
    rw [hError] at hGive
    exact absurd hGive (by simp)
  | true =>
    obtain ⟨t₀, hEq, hGives⟩ := h.exists_give hTaken
    rw [hEq, Except.ok.injEq] at hGive
    exact ⟨rfl, hGive ▸ hGives⟩

-- ---------------------------------------------------------------------------
-- The memory of the taken nodes
-- ---------------------------------------------------------------------------

theorem mem_taken : id ∈ t.taken.members ↔ t.isTaken id = true := by
  rw [Bitmap.mem_members, isTaken_eq]
  simp

theorem Shaped.mem_takenNodes (h : t.Shaped) : id ∈ t.takenNodes ↔ t.isTaken id = true := by
  rw [takenNodes, List.mem_filter, List.mem_range, numNodes, h.size]
  exact ⟨fun hMem => hMem.2, fun hTaken => ⟨h.lt_of_isTaken hTaken, hTaken⟩⟩

theorem Takes.members (h : t.Takes id t') : t'.taken.members = insert id t.taken.members := by
  ext m
  rw [mem_taken, Finset.mem_insert, mem_taken, h.isTaken]
  by_cases hm : m = id <;> simp [hm]

theorem Takes.notMem (h : t.Takes id t') : id ∉ t.taken.members := by
  rw [mem_taken, h.below id (.refl id)]
  simp

theorem Gives.members (h : t.Gives id t') : t'.taken.members = t.taken.members.erase id := by
  ext m
  rw [mem_taken, Finset.mem_erase, mem_taken, h.isTaken]
  by_cases hm : m = id <;> simp [hm]

/-- Two taken nodes span disjoint memory. -/
theorem Sound.spans_apart (h : t.Sound) {scale a b : Nat} (hScale : t.order ≤ scale)
    (ha : t.isTaken a = true) (hb : t.isTaken b = true) (hNe : a ≠ b) :
    spanStart scale a + spanLength scale a ≤ spanStart scale b ∨
      spanStart scale b + spanLength scale b ≤ spanStart scale a := by
  have hPosA := h.pos_of_isTaken ha
  have hPosB := h.pos_of_isTaken hb
  have hDepthA := depthOf_le_order hPosA (h.lt_of_isTaken ha)
  have hDepthB := depthOf_le_order hPosB (h.lt_of_isTaken hb)
  exact Buddy.spans_apart hPosA hPosB (by omega) (by omega)
    (fun hUnder => hNe (h.apart a b ha hb hUnder))
    (fun hUnder => hNe (h.apart b a hb ha hUnder).symm)

theorem Sound.span_le (h : t.Sound) {scale : Nat} (hScale : t.order ≤ scale)
    (hTaken : t.isTaken id = true) : spanStart scale id + spanLength scale id ≤ 2 ^ scale := by
  have hPos := h.pos_of_isTaken hTaken
  have hDepth := depthOf_le_order hPos (h.lt_of_isTaken hTaken)
  exact Buddy.span_le hPos (by omega)

/-- The taken nodes together span no more than the whole memory. -/
theorem Sound.sum_spanLength_le (h : t.Sound) {scale : Nat} (hScale : t.order ≤ scale) :
    ∑ id ∈ t.taken.members, spanLength scale id ≤ 2 ^ scale := by
  set span : Nat → Finset Nat := fun id =>
    Finset.Ico (spanStart scale id) (spanStart scale id + spanLength scale id) with hSpan
  have hDisjoint : (t.taken.members : Set Nat).PairwiseDisjoint span := by
    intro a ha b hb hNe
    have hApart := h.spans_apart hScale (mem_taken.mp ha) (mem_taken.mp hb) hNe
    refine Finset.disjoint_left.mpr fun x hxa hxb => ?_
    rw [hSpan, Finset.mem_Ico] at hxa hxb
    omega
  have hInside : t.taken.members.biUnion span ⊆ Finset.range (2 ^ scale) := by
    intro x hx
    obtain ⟨id, hId, hxId⟩ := Finset.mem_biUnion.mp hx
    have hEnd := h.span_le hScale (mem_taken.mp hId)
    rw [hSpan, Finset.mem_Ico] at hxId
    rw [Finset.mem_range]
    omega
  calc ∑ id ∈ t.taken.members, spanLength scale id
      = ∑ id ∈ t.taken.members, (span id).card := by simp [hSpan]
    _ = (t.taken.members.biUnion span).card := (Finset.card_biUnion hDisjoint).symm
    _ ≤ (Finset.range (2 ^ scale)).card := Finset.card_le_card hInside
    _ = 2 ^ scale := Finset.card_range _

-- ---------------------------------------------------------------------------
-- The entries follow from the taken nodes
-- ---------------------------------------------------------------------------

/-- The entry of a node so many levels above the pages, from the marks alone. -/
def entryOf (order : Nat) (isTaken : Nat → Bool) : Nat → Nat → Nat
  | 0, id => if isTaken id then order + 1 else depthOf id
  | levels + 1, id =>
    if isTaken id then order + 1
    else
      let left := entryOf order isTaken levels (2 * id)
      let right := entryOf order isTaken levels (2 * id + 1)
      if left = depthOf id + 1 ∧ right = depthOf id + 1 then depthOf id else min left right

/-- All entries of a tree, from the marks alone. -/
def entriesOf (order : Nat) (isTaken : Nat → Bool) : Array Nat :=
  Array.ofFn fun id : Fin (2 ^ (order + 1)) =>
    if id.val = 0 then 0 else entryOf order isTaken (order - depthOf id) id

/-- The taken nodes decide every entry: from the pages up, each is what the two below it say. -/
theorem Sound.roomAt_eq_entryOf (h : t.Sound) :
    ∀ id, 0 < id → id < 2 ^ (t.order + 1) →
      t.roomAt id = entryOf t.order t.isTaken (t.order - depthOf id) id := by
  refine upward_induction ?_ ?_
  · intro id hPage hLt
    have hPos : 0 < id := (Nat.two_pow_pos _).trans_le hPage
    have hDepth : depthOf id = t.order := (depthOf_eq_iff hPos).mpr ⟨hPage, hLt⟩
    rw [hDepth, Nat.sub_self, h.settled id hPos hLt, entryOf]
    cases hTaken : t.isTaken id with
    | true => rw [expectedRoom_of_taken hTaken, if_pos rfl]
    | false => rw [expectedRoom_of_page hTaken hPage, if_neg (by simp)]
  · intro id hPos hInner ihLeft ihRight
    have hLt : id < 2 ^ (t.order + 1) := hInner.trans (Nat.pow_lt_pow_right (by decide) (by omega))
    have hDepth := (depthOf_lt_iff hPos).mpr hInner
    rw [depthOf_left hPos] at ihLeft
    rw [depthOf_right hPos] at ihRight
    rw [show t.order - depthOf id = (t.order - (depthOf id + 1)) + 1 by omega, entryOf,
      h.settled id hPos hLt]
    cases hTaken : t.isTaken id with
    | true => rw [expectedRoom_of_taken hTaken, if_pos rfl]
    | false =>
      rw [expectedRoom_of_inner hTaken hPos hInner, ihLeft, ihRight]
      simp only [Bool.false_eq_true, if_false]

/-- The entries of a sound tree are a function of its taken nodes. -/
theorem Sound.room_eq (h : t.Sound) : t.room = entriesOf t.order t.isTaken := by
  apply Array.ext
  · rw [h.size, entriesOf, Array.size_ofFn]
  · intro id hLt _
    have hRoom : t.room[id] = t.roomAt id := by
      simp [roomAt, Array.getD_eq_getD_getElem?, hLt]
    rw [h.size] at hLt
    simp only [hRoom, entriesOf, Array.getElem_ofFn]
    by_cases hZero : id = 0
    · rw [if_pos hZero, hZero, h.unused]
    · rw [if_neg hZero, h.roomAt_eq_entryOf id (by omega) hLt]

/-- Sound trees of one order with the same taken nodes are the same tree. -/
theorem Sound.ext {u : Buddy} (h : t.Sound) (hu : u.Sound) (hOrder : t.order = u.order)
    (hTaken : ∀ id, t.isTaken id = u.isTaken id) : t = u := by
  have hRoom : t.room = u.room := by
    rw [h.room_eq, hu.room_eq, hOrder, funext hTaken]
  have hBits : t.taken.bits = u.taken.bits := by rw [h.bits, hu.bits, hOrder]
  have hMarks : t.taken = u.taken := by
    refine h.bitmap.ext hu.bitmap hBits (by rw [h.words, hu.words, hOrder]) fun i hi => ?_
    have hSame := hTaken i
    rw [isTaken_eq, isTaken_eq, ← hBits] at hSame
    simpa [hi] using hSame
  cases t
  cases u
  simp_all

/-- A sound tree passes its check. -/
theorem Sound.mismatch?_eq_none (h : t.Sound) : t.mismatch? = none := by
  rw [mismatch?, List.find?_eq_none]
  intro id hMem
  rw [numNodes, h.size, List.mem_drop_iff_getElem] at hMem
  obtain ⟨i, hi, rfl⟩ := hMem
  rw [List.length_range] at hi
  rw [List.getElem_range, h.settled (1 + i) (by omega) (by omega)]
  simp

end BlockPool.Buddy
