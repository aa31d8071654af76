import BlockPool.Memory.Extent
import BlockPool.Memory.Contents

/-!
# BlockPool — regions

A `Region` is the memory that blocks are carved from: a size, a number that tells it from every
other region of its owner, and where it came from. Its bytes are kept apart, in a `Contents`.

Memory comes from the mapper when the alignment allows it; where the mapper refuses, and for
larger alignments, it comes from the heap.
-/

namespace BlockPool

/-- Why a region could not be made, or a range of it not be used. -/
inductive RegionError where
  | extent (cause : ExtentError)
  | layout
  | outOfMemory
  | outOfBounds (offset size limit : Nat)
deriving DecidableEq, Repr

/-- The text of the error. A range whose end is no word has none. -/
def RegionError.message? : RegionError → Option String
  | .extent cause => some cause.message
  | .layout => some "invalid region layout"
  | .outOfMemory => some "out of memory"
  | .outOfBounds offset size limit =>
    (Word.add? offset size).map fun stop =>
      s!"range {offset}..{stop} outside of region of {limit} bytes"

/-- The kind of the error, with that of its cause. -/
def RegionError.kind : RegionError → String
  | .extent cause => "Extent." ++ cause.kind
  | .layout => "Layout"
  | .outOfMemory => "OutOfMemory"
  | .outOfBounds _ _ _ => "OutOfBounds"

/-- Where the memory of a region came from. -/
inductive Backing where
  | mapped
  | heap
  | empty
deriving DecidableEq, Repr

/-- A contiguous memory, told from its owner's others by `id`. -/
structure Region where
  id : Nat
  size : Nat
  backing : Backing
deriving DecidableEq, Repr

namespace Region

/-- The region without bytes. -/
def nothing : Region := ⟨0, 0, .empty⟩

instance : Inhabited Region := ⟨nothing⟩

/-- Whether a heap block of that size and alignment can exist: the alignment is a power of two and
the size, rounded up to it, stays within a signed word. -/
def hasLayout (size align : Nat) : Bool :=
  Word.isPowerOfTwo align && decide (size + (align - 1) ≤ Word.maxSigned)

/-- Takes `size` bytes from the heap; an alignment of zero asks for none. -/
def ofHeap (provider : Provider) (id size align : Nat) : Except RegionError Region :=
  if size = 0 then .ok nothing
  else if !hasLayout size (max align 1) then .error .layout
  else if provider.heap size (max align 1) then .ok ⟨id, size, .heap⟩
  else .error .outOfMemory

/-- Takes `size` bytes from the mapper if a page is aligned enough, and from the heap if it is not
or if the mapper refuses. A size that cannot be rounded to pages is refused at once. -/
def allocate (provider : Provider) (id size align : Nat) : Except RegionError Region :=
  if size = 0 then .ok nothing
  else if align ≤ provider.pageSize then
    match Extent.map provider size with
    | .ok _ => .ok ⟨id, size, .mapped⟩
    | .error (.size cause) => .error (.extent (.size cause))
    | .error _ => ofHeap provider id size align
  else ofHeap provider id size align

/-- Whether the region has no bytes. -/
def isEmpty (region : Region) : Bool :=
  region.size == 0

/-- Whether the region is a mapping. -/
def isMapped (region : Region) : Bool :=
  region.backing == .mapped

/-- Whether `size` bytes from `offset` on lie inside the region. -/
def check (region : Region) (offset size : Nat) : Except RegionError Unit :=
  match Word.add? offset size with
  | some stop =>
    if stop ≤ region.size then .ok () else .error (.outOfBounds offset size region.size)
  | none => .error (.outOfBounds offset size region.size)

/-- Reads `size` bytes of the region's contents from `offset` on. -/
def read (region : Region) (contents : Contents) (offset size : Nat) :
    Except RegionError (Array UInt8) := do
  region.check offset size
  return contents.read offset size

/-- Writes bytes into the region's contents from `offset` on. -/
def write (region : Region) (contents : Contents) (offset : Nat) (bytes : Array UInt8) :
    Except RegionError Contents := do
  region.check offset bytes.size
  return contents.write offset bytes

end Region

end BlockPool
