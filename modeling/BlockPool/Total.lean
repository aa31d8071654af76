/-!
# BlockPool — totals

The sum of a list of counts, from the front on.
-/

namespace BlockPool

/-- The sum of the numbers. -/
def total : List Nat → Nat
  | [] => 0
  | n :: rest => n + total rest

@[simp] theorem total_nil : total [] = 0 := rfl

@[simp] theorem total_cons (n : Nat) (rest : List Nat) : total (n :: rest) = n + total rest := rfl

@[simp] theorem total_append (ms ns : List Nat) : total (ms ++ ns) = total ms + total ns := by
  induction ms with
  | nil => simp
  | cons m rest ih => simp [ih, Nat.add_assoc]

end BlockPool
