import BlockPool.Total
import Mathlib.Algebra.BigOperators.Group.List.Basic
import Mathlib.Algebra.GroupWithZero.Nat

/-!
# BlockPool — totals as sums

A total is the sum of a list, for which there is a theory of its own.
-/

namespace BlockPool

theorem total_eq_sum (numbers : List Nat) : total numbers = numbers.sum := by
  induction numbers with
  | nil => rfl
  | cons n rest ih => rw [total_cons, ih, List.sum_cons]

theorem total_perm {ms ns : List Nat} (h : ms.Perm ns) : total ms = total ns := by
  rw [total_eq_sum, total_eq_sum, h.sum_eq]

end BlockPool
