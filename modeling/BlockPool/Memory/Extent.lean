import BlockPool.Memory.Provider

/-!
# BlockPool — extents

An `Extent` is a mapping of whole pages.
-/

namespace BlockPool

/-- Why an extent could not be mapped, or a range of it not be used. -/
inductive ExtentError where
  | mapping (cause : MapError)
  | size (cause : RoundingError)
  | outOfBounds
deriving DecidableEq, Repr

/-- The text of the error. -/
def ExtentError.message : ExtentError → String
  | .mapping cause => "mapping failed: " ++ cause.message
  | .size cause => "invalid extent size: " ++ cause.name
  | .outOfBounds => "range outside of extent"

/-- The kind of the error, with that of its cause. -/
def ExtentError.kind : ExtentError → String
  | .mapping cause => "SystemError." ++ cause.kind
  | .size cause => "PrimError." ++ cause.name
  | .outOfBounds => "OutOfBounds"

/-- A mapping of whole pages; one of no bytes stands for no mapping. -/
structure Extent where
  size : Nat
deriving DecidableEq, Repr

namespace Extent

/-- Maps enough whole pages for `size` bytes. Nothing is asked of the provider for no bytes. -/
def map (provider : Provider) (size : Nat) : Except ExtentError Extent :=
  if size = 0 then .ok ⟨0⟩
  else
    match pageAlign size provider.pageSize with
    | .error cause => .error (.size cause)
    | .ok rounded =>
      match provider.map rounded with
      | .error cause => .error (.mapping cause)
      | .ok () => .ok ⟨rounded⟩

/-- Whether the extent has no bytes. -/
def isEmpty (extent : Extent) : Bool :=
  extent.size == 0

/-- Whether the half-open range from `start` to `stop` is in order and inside the extent. -/
def check (extent : Extent) (start stop : Nat) : Except ExtentError Unit :=
  if start > stop ∨ stop > extent.size then .error .outOfBounds else .ok ()

end Extent

end BlockPool
