import BlockPool.Memory.Page

/-!
# BlockPool — providers of memory

A `Provider` decides which requests for memory are met. It maps whole pages and, beside that,
grants blocks of the heap. How large a page is and what is refused is left open: statements about
the pool hold for every provider, and a run of the pool may meet a different one at each request
(`Supply`).
-/

namespace BlockPool

/-- Why a mapping, or its removal, was refused. -/
inductive MapError where
  | unsupported
  | outOfMemory
  | invalidArgument
deriving DecidableEq, Repr

/-- The text of the error. -/
def MapError.message : MapError → String
  | .unsupported => "system memory mapping is not supported"
  | .outOfMemory => "the system refused to map more memory"
  | .invalidArgument => "invalid argument passed to the system"

/-- The kind of the error. -/
def MapError.kind : MapError → String
  | .unsupported => "Unsupported"
  | .outOfMemory => "OutOfMemory"
  | .invalidArgument => "InvalidArgument"

/-- A source of zeroed memory. -/
structure Provider where
  /-- The outcome of mapping so many bytes. -/
  map : Nat → Except MapError Unit
  /-- The outcome of unmapping so many bytes at an address that no mapping starts at. -/
  unmapStray : Nat → Nat → Except MapError Unit
  /-- Whether the heap has room for so many bytes at such an alignment. -/
  heap : Nat → Nat → Bool
  /-- The answer to the question how large a page is. -/
  pageAnswer : Int := commonPageSize

namespace Provider

/-- The size of a page. -/
def pageSize (provider : Provider) : Nat := pageSizeOf provider.pageAnswer

/-- Maps whole pages only, and of those what `room` allows. A block of the heap needs room to be
moved up to its alignment. -/
def paged (room : Nat → Bool) (pageAnswer : Int := commonPageSize) : Provider where
  map size :=
    match isPageAligned size (pageSizeOf pageAnswer) with
    | .ok true =>
      if size = 0 then .error .invalidArgument
      else if room size then .ok ()
      else .error .outOfMemory
    | _ => .error .invalidArgument
  unmapStray address size :=
    if address % pageSizeOf pageAnswer ≠ 0 ∨ size = 0 then .error .invalidArgument else .ok ()
  heap size align := room (size + (align - 1))
  pageAnswer := pageAnswer

/-- Has no mapping at all. -/
def unsupported : Provider where
  map _ := .error .unsupported
  unmapStray _ _ := .error .unsupported
  heap _ _ := false

/-- Meets every well-formed request below `limit` bytes. -/
def below (limit : Nat) : Provider :=
  paged fun size => size < limit

end Provider

/-- The provider that answers each request of a run, by the request's number. -/
abbrev Supply := Nat → Provider

end BlockPool
