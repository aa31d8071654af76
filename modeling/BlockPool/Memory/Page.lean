import BlockPool.Word

/-!
# BlockPool — memory pages

The operating system hands out memory in pages, and is asked for their size.

* `pageSizeOf` — the size of a page, by the answer of the operating system.
* `pageAlign` — a size rounded up to whole pages.
* `isPageAligned` — whether a size is made of whole pages.
-/

namespace BlockPool

/-- Why a size cannot be rounded to an alignment. -/
inductive RoundingError where
  | invalidAlignment
  | overflow
deriving DecidableEq, Repr

/-- The cause in one word, as larger messages quote it. -/
def RoundingError.name : RoundingError → String
  | .invalidAlignment => "InvalidAlignment"
  | .overflow => "Overflow"

/-- The size of a page where the operating system does not say. -/
def commonPageSize : Nat := 4096

/-- The size of a page, by what the operating system answers when it is asked. -/
def pageSizeOf (answer : Int) : Nat := if answer ≤ 0 then commonPageSize else answer.toNat

/-- Rounds a size up to whole pages. -/
def pageAlign (size : Nat) (page : Nat := commonPageSize) : Except RoundingError Nat :=
  match Word.alignUp? size page with
  | some rounded => .ok rounded
  | none => .error .overflow

/-- Whether a size is made of whole pages. -/
def isPageAligned (size : Nat) (page : Nat := commonPageSize) : Except RoundingError Bool :=
  match Word.isAligned? size page with
  | some aligned => .ok aligned
  | none => .error .invalidAlignment

end BlockPool
