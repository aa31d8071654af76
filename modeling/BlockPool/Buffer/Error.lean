import BlockPool.Arena.Basic
import BlockPool.Config.Setting

/-!
# BlockPool — errors of allocators and buffers

An error of a lower layer is kept whole as the cause of one of a higher layer.
-/

namespace BlockPool

/-- Why an allocator refused a request. -/
inductive AllocError where
  | capacity (requested limit : Nat)
  | arena (cause : ArenaError)
  | config (cause : ConfigError)
deriving DecidableEq, Repr

/-- The text of the error, where its cause has one. -/
def AllocError.message? : AllocError → Option String
  | .capacity requested limit => some s!"requested capacity {requested} exceeds maximum {limit}"
  | .arena cause => cause.message?
  | .config cause => some ("invalid configuration: " ++ cause.message)

/-- The kind of the error, with that of its cause. -/
def AllocError.kind : AllocError → String
  | .capacity _ _ => "Capacity"
  | .arena cause => "Arena." ++ cause.kind
  | .config cause => "Config." ++ cause.kind

/-- Why an operation on a buffer was refused. -/
inductive BufferError where
  | illegalRefCount (count : Nat)
  | released
  | outOfBounds (offset size capacity : Nat)
  | foreignAllocator
  | alloc (cause : AllocError)
deriving DecidableEq, Repr

/-- The text of the error, where its cause has one. A range whose end is no word has none. -/
def BufferError.message? : BufferError → Option String
  | .illegalRefCount count => some s!"illegal reference count: {count}"
  | .released => some "buffer was already released"
  | .outOfBounds offset size capacity =>
    (Word.add? offset size).map fun stop => s!"range {offset}..{stop} exceeds capacity {capacity}"
  | .foreignAllocator => some "buffer belongs to another allocator"
  | .alloc cause => cause.message?

/-- The kind of the error, with that of its cause. -/
def BufferError.kind : BufferError → String
  | .illegalRefCount _ => "IllegalRefCount"
  | .released => "Released"
  | .outOfBounds _ _ _ => "OutOfBounds"
  | .foreignAllocator => "ForeignAllocator"
  | .alloc cause => "Alloc." ++ cause.kind

end BlockPool
