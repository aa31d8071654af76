import BlockPool.Chunk.Geometry

/-!
# BlockPool — counts by size class

A tally for each of the four size classes.
-/

namespace BlockPool

/-- A number for each size class. -/
structure ClassCounts where
  tiny : Nat := 0
  small : Nat := 0
  normal : Nat := 0
  huge : Nat := 0
deriving DecidableEq, Repr, Inhabited

namespace ClassCounts

/-- The number of a class. -/
def get (c : ClassCounts) : SizeClass → Nat
  | .tiny => c.tiny
  | .small => c.small
  | .normal => c.normal
  | .huge => c.huge

/-- One more in a class. -/
def increment (c : ClassCounts) : SizeClass → ClassCounts
  | .tiny => { c with tiny := c.tiny + 1 }
  | .small => { c with small := c.small + 1 }
  | .normal => { c with normal := c.normal + 1 }
  | .huge => { c with huge := c.huge + 1 }

/-- The sum over the classes. -/
def total (c : ClassCounts) : Nat := c.tiny + c.small + c.normal + c.huge

@[simp] theorem get_increment_self (c : ClassCounts) (k : SizeClass) :
    (c.increment k).get k = c.get k + 1 := by
  cases k <;> rfl

theorem get_increment_of_ne (c : ClassCounts) {k k' : SizeClass} (h : k ≠ k') :
    (c.increment k).get k' = c.get k' := by
  cases k <;> cases k' <;> first | rfl | exact absurd rfl h

@[simp] theorem total_increment (c : ClassCounts) (k : SizeClass) :
    (c.increment k).total = c.total + 1 := by
  cases k <;> simp only [total, increment] <;> omega

end ClassCounts

end BlockPool
