import BlockPool.Chunk.Buddy
import Mathlib

/-!
# BlockPool — numbered trees

The nodes of a buddy tree are numbers: the root is 1 and the halves of `id` are `2 * id` and
`2 * id + 1`. Going up is halving, so a node lies under another exactly when some halvings lead to
it, and the memory that a node spans can be computed from its number.

* `Buddy.Under` — a node lies at or below another.
* `Buddy.spans_apart` — nodes of which none lies under the other span disjoint memory.
* `Buddy.span_le` — every node spans memory inside the root's.
-/

namespace BlockPool.Buddy

-- ---------------------------------------------------------------------------
-- Depths
-- ---------------------------------------------------------------------------

theorem depthOf_one : depthOf 1 = 0 := rfl

theorem depthOf_eq_iff {id d : Nat} (h : 0 < id) :
    depthOf id = d ↔ 2 ^ d ≤ id ∧ id < 2 ^ (d + 1) :=
  Nat.log2_eq_iff (by omega)

theorem two_pow_depthOf_le {id : Nat} (h : 0 < id) : 2 ^ depthOf id ≤ id :=
  ((depthOf_eq_iff h).mp rfl).1

theorem lt_two_pow_depthOf {id : Nat} (h : 0 < id) : id < 2 ^ (depthOf id + 1) :=
  ((depthOf_eq_iff h).mp rfl).2

theorem depthOf_lt_iff {id d : Nat} (h : 0 < id) : depthOf id < d ↔ id < 2 ^ d :=
  Nat.log2_lt (by omega)

theorem le_depthOf_iff {id d : Nat} (h : 0 < id) : d ≤ depthOf id ↔ 2 ^ d ≤ id :=
  Nat.le_log2 (by omega)

/-- The halves of a node lie one level deeper. -/
theorem depthOf_half {id half : Nat} (h : 0 < id) (hHalf : half / 2 = id) :
    depthOf half = depthOf id + 1 := by
  have hLow := two_pow_depthOf_le h
  have hHigh := lt_two_pow_depthOf h
  rw [depthOf_eq_iff (by omega), pow_succ, pow_succ]
  rw [pow_succ] at hHigh
  omega

theorem depthOf_left {id : Nat} (h : 0 < id) : depthOf (2 * id) = depthOf id + 1 :=
  depthOf_half h (by omega)

theorem depthOf_right {id : Nat} (h : 0 < id) : depthOf (2 * id + 1) = depthOf id + 1 :=
  depthOf_half h (by omega)

/-- The node above lies one level higher. -/
theorem depthOf_above {id : Nat} (h : 1 < id) : depthOf id = depthOf (id / 2) + 1 :=
  depthOf_half (by omega) rfl

theorem depthOf_eq_zero_iff {id : Nat} (h : 0 < id) : depthOf id = 0 ↔ id = 1 := by
  rw [depthOf_eq_iff h]
  omega

theorem depthOf_div_pow {id k : Nat} (h : 0 < id / 2 ^ k) :
    depthOf id = depthOf (id / 2 ^ k) + k := by
  induction k with
  | zero => simp
  | succ k ih =>
    rw [pow_succ, ← Nat.div_div_eq_div_mul] at h ⊢
    rw [ih (by omega), depthOf_above (show 1 < id / 2 ^ k by omega)]
    omega

-- ---------------------------------------------------------------------------
-- Siblings
-- ---------------------------------------------------------------------------

/-- A node and its sibling are the two halves of the node above. -/
theorem sibling_cases (id : Nat) :
    (id = 2 * (id / 2) ∧ sibling id = 2 * (id / 2) + 1) ∨
      (id = 2 * (id / 2) + 1 ∧ sibling id = 2 * (id / 2)) := by
  unfold sibling
  split <;> omega

theorem sibling_div_two (id : Nat) : sibling id / 2 = id / 2 := by
  have := sibling_cases id
  omega

theorem sibling_pos {id : Nat} (h : 1 < id) : 0 < sibling id := by
  have := sibling_cases id
  omega

theorem sibling_lt {id order : Nat} (h : id < 2 ^ (order + 1)) : sibling id < 2 ^ (order + 1) := by
  have := sibling_cases id
  rw [pow_succ] at h ⊢
  omega

theorem depthOf_sibling {id : Nat} (h : 1 < id) : depthOf (sibling id) = depthOf id := by
  rw [depthOf_half (show 0 < id / 2 by omega) (sibling_div_two id), ← depthOf_above h]

-- ---------------------------------------------------------------------------
-- Lying under
-- ---------------------------------------------------------------------------

/-- `b` lies at or below `a`: some steps up from `b` lead to `a`. -/
def Under (a b : Nat) : Prop := ∃ k, b / 2 ^ k = a

theorem Under.refl (a : Nat) : Under a a := ⟨0, by simp⟩

theorem Under.trans {a b c : Nat} (hab : Under a b) (hbc : Under b c) : Under a c := by
  obtain ⟨j, rfl⟩ := hab
  obtain ⟨k, rfl⟩ := hbc
  exact ⟨k + j, by rw [pow_add, Nat.div_div_eq_div_mul]⟩

theorem under_half (id : Nat) : Under (id / 2) id := ⟨1, by simp⟩

theorem under_left (id : Nat) : Under id (2 * id) := ⟨1, by simp⟩

theorem under_right (id : Nat) : Under id (2 * id + 1) := ⟨1, by omega⟩

/-- Every node lies under the root. -/
theorem under_root {id : Nat} (h : 0 < id) : Under 1 id := by
  refine ⟨depthOf id, ?_⟩
  have hLow := two_pow_depthOf_le h
  have hHigh := lt_two_pow_depthOf h
  rw [pow_succ, mul_comm] at hHigh
  exact Nat.div_eq_of_lt_le (by omega) (by omega)

/-- A node below another one lies under the node above it too. -/
theorem Under.above {a b : Nat} (h : Under a b) (hNe : a ≠ b) : Under a (b / 2) := by
  obtain ⟨k, rfl⟩ := h
  cases k with
  | zero => exact absurd (by simp) hNe
  | succ k => exact ⟨k, by rw [Nat.div_div_eq_div_mul, pow_succ, mul_comm]⟩

/-- A node below another one lies under one of its halves. -/
theorem Under.half {a b : Nat} (h : Under a b) (hNe : a ≠ b) :
    Under (2 * a) b ∨ Under (2 * a + 1) b := by
  obtain ⟨k, rfl⟩ := h
  cases k with
  | zero => exact absurd (by simp) hNe
  | succ k =>
    have hParity : b / 2 ^ k = 2 * (b / 2 ^ (k + 1)) ∨ b / 2 ^ k = 2 * (b / 2 ^ (k + 1)) + 1 := by
      rw [pow_succ, ← Nat.div_div_eq_div_mul]
      omega
    rcases hParity with hLeft | hRight
    · exact .inl ⟨k, hLeft⟩
    · exact .inr ⟨k, hRight⟩

theorem Under.le {a b : Nat} (h : Under a b) : a ≤ b := by
  obtain ⟨k, rfl⟩ := h
  exact Nat.div_le_self ..

/-- A node under another one is as many steps below it as its depth says. -/
theorem Under.div_eq {a b : Nat} (h : Under a b) (ha : 0 < a) :
    b / 2 ^ (depthOf b - depthOf a) = a := by
  obtain ⟨k, rfl⟩ := h
  have := depthOf_div_pow ha
  rw [show depthOf b - depthOf (b / 2 ^ k) = k by omega]

theorem Under.antisymm {a b : Nat} (h : Under a b) (h' : Under b a) : a = b :=
  Nat.le_antisymm h.le h'.le

/-- Of two nodes above a third, one lies under the other. -/
theorem Under.total {a b c : Nat} (ha : Under a c) (hb : Under b c) : Under a b ∨ Under b a := by
  obtain ⟨j, rfl⟩ := ha
  obtain ⟨k, rfl⟩ := hb
  rcases Nat.le_total j k with hjk | hkj
  · exact .inr ⟨k - j, by rw [Nat.div_div_eq_div_mul, ← pow_add, Nat.add_sub_cancel' hjk]⟩
  · exact .inl ⟨j - k, by rw [Nat.div_div_eq_div_mul, ← pow_add, Nat.add_sub_cancel' hkj]⟩

/-- A node does not lie under its sibling. -/
theorem not_under_sibling {id : Nat} (h : 1 < id) : ¬ Under (sibling id) id := by
  intro hUnder
  have hEq := hUnder.div_eq (sibling_pos h)
  rw [depthOf_sibling h, Nat.sub_self, pow_zero, Nat.div_one] at hEq
  have := sibling_cases id
  omega

-- ---------------------------------------------------------------------------
-- Spans of memory
-- ---------------------------------------------------------------------------

/-- The length of what a node spans, in a memory of `2 ^ scale` units. -/
def spanLength (scale id : Nat) : Nat := 2 ^ (scale - depthOf id)

/-- Where the span of a node starts. -/
def spanStart (scale id : Nat) : Nat := (id - 2 ^ depthOf id) * spanLength scale id

theorem spanLength_pos (scale id : Nat) : 0 < spanLength scale id := Nat.two_pow_pos _

/-- The span of a node, seen from a higher level: it lies inside the span of the node there. -/
theorem span_inside {scale b k : Nat} (hb : 0 < b / 2 ^ k) (hScale : depthOf b ≤ scale) :
    spanStart scale (b / 2 ^ k) ≤ spanStart scale b ∧
      spanStart scale b + spanLength scale b ≤
        spanStart scale (b / 2 ^ k) + spanLength scale (b / 2 ^ k) := by
  have hDepth := depthOf_div_pow hb
  set q := b / 2 ^ k with hq
  have hLow := two_pow_depthOf_le hb
  have hLength : spanLength scale q = 2 ^ k * spanLength scale b := by
    rw [spanLength, spanLength, ← pow_add]
    congr 1
    omega
  have hSplit : b = 2 ^ k * q + b % 2 ^ k := (Nat.div_add_mod b (2 ^ k)).symm
  have hRest : b % 2 ^ k < 2 ^ k := Nat.mod_lt _ (Nat.two_pow_pos k)
  have hStart : b - 2 ^ depthOf b = 2 ^ k * (q - 2 ^ depthOf q) + b % 2 ^ k := by
    rw [hDepth, pow_add, mul_comm (2 ^ depthOf q), Nat.mul_sub]
    have := Nat.mul_le_mul_left (2 ^ k) hLow
    omega
  have hEq : spanStart scale b = spanStart scale q + b % 2 ^ k * spanLength scale b := by
    rw [spanStart, spanStart, hStart, hLength]
    ring
  refine ⟨by omega, ?_⟩
  calc spanStart scale b + spanLength scale b
      = spanStart scale q + (b % 2 ^ k + 1) * spanLength scale b := by rw [hEq]; ring
    _ ≤ spanStart scale q + 2 ^ k * spanLength scale b :=
        Nat.add_le_add_left (Nat.mul_le_mul_right _ hRest) _
    _ = spanStart scale q + spanLength scale q := by rw [hLength]

/-- Every node spans memory inside the whole. -/
theorem span_le {scale id : Nat} (h : 0 < id) (hScale : depthOf id ≤ scale) :
    spanStart scale id + spanLength scale id ≤ 2 ^ scale := by
  obtain ⟨k, hk⟩ := under_root h
  have hInside := (span_inside (by omega) hScale (k := k)).2
  rw [hk] at hInside
  simpa [spanStart, spanLength, depthOf_one] using hInside

/-- Two nodes of one depth span memory side by side. -/
theorem spans_apart_of_depthOf_eq (scale : Nat) {a b : Nat} (ha : 0 < a)
    (hDepth : depthOf a = depthOf b)
    (hLt : a < b) : spanStart scale a + spanLength scale a ≤ spanStart scale b := by
  have hLow := two_pow_depthOf_le ha
  have hStep : a - 2 ^ depthOf a + 1 ≤ b - 2 ^ depthOf a := by omega
  calc spanStart scale a + spanLength scale a
      = (a - 2 ^ depthOf a + 1) * spanLength scale a := by rw [spanStart]; ring
    _ ≤ (b - 2 ^ depthOf a) * spanLength scale a := Nat.mul_le_mul_right _ hStep
    _ = spanStart scale b := by rw [spanStart, spanLength, spanLength, hDepth]

/-- A node and one no deeper that it does not lie under span disjoint memory. -/
private theorem spans_apart_of_depthOf_le {scale a b : Nat} (ha : 0 < a) (hb : 0 < b)
    (hDepth : depthOf a ≤ depthOf b) (hScale : depthOf b ≤ scale) (hNot : ¬ Under a b) :
    spanStart scale a + spanLength scale a ≤ spanStart scale b ∨
      spanStart scale b + spanLength scale b ≤ spanStart scale a := by
  -- the node of `a`'s depth that `b` lies under stands beside `a`
  set k := depthOf b - depthOf a with hk
  have hPos : 0 < b / 2 ^ k := by
    have hLow := two_pow_depthOf_le hb
    have hPow : 2 ^ k ≤ 2 ^ depthOf b := Nat.pow_le_pow_right (by decide) (by omega)
    exact Nat.div_pos (by omega) (Nat.two_pow_pos k)
  have hBeside : depthOf (b / 2 ^ k) = depthOf a := by
    have := depthOf_div_pow hPos
    omega
  have hNe : b / 2 ^ k ≠ a := fun hEq => hNot ⟨k, hEq⟩
  obtain ⟨hStart, hStop⟩ := span_inside hPos hScale
  rcases Nat.lt_or_gt_of_ne hNe with hLt | hGt
  · have := spans_apart_of_depthOf_eq scale hPos hBeside hLt
    omega
  · have := spans_apart_of_depthOf_eq scale ha hBeside.symm hGt
    omega

/-- Nodes of which none lies under the other span disjoint memory. -/
theorem spans_apart {scale a b : Nat} (ha : 0 < a) (hb : 0 < b) (hScaleA : depthOf a ≤ scale)
    (hScaleB : depthOf b ≤ scale) (hab : ¬ Under a b) (hba : ¬ Under b a) :
    spanStart scale a + spanLength scale a ≤ spanStart scale b ∨
      spanStart scale b + spanLength scale b ≤ spanStart scale a := by
  rcases Nat.le_total (depthOf a) (depthOf b) with hle | hge
  · exact spans_apart_of_depthOf_le ha hb hle hScaleB hab
  · exact (spans_apart_of_depthOf_le hb ha hge hScaleA hba).symm

end BlockPool.Buddy
