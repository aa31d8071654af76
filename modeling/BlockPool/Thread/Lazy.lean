/-!
# BlockPool — values made on demand

A `Lazy` has no value until it is asked for one; then its initializer runs, once, and the value
stays.
-/

namespace BlockPool.Thread

/-- A value that is made when it is first asked for. -/
structure Lazy (α : Type) where
  value : Option α
  /-- How often the initializer ran. -/
  calls : Nat

namespace Lazy

variable {α : Type}

/-- No value yet. -/
def empty : Lazy α := ⟨none, 0⟩

/-- The value, if it was made. -/
def get? (l : Lazy α) : Option α := l.value

/-- The value, which is made first if it was not. The initializer is told how often it ran. -/
def force (initializer : Nat → α) (l : Lazy α) : α × Lazy α :=
  match l.value with
  | some value => (value, l)
  | none =>
    let value := initializer l.calls
    (value, ⟨some value, l.calls + 1⟩)

/-- The initializer runs at most once. -/
theorem force_force (initializer : Nat → α) (l : Lazy α) :
    (l.force initializer).2.force initializer
      = ((l.force initializer).1, (l.force initializer).2) := by
  cases h : l.value <;> simp [force, h]

end Lazy

end BlockPool.Thread
