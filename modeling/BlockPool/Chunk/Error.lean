import BlockPool.Chunk.Handle
import BlockPool.Store.Bitmap

/-!
# BlockPool — errors of a chunk

What can be wrong with a handle that is given back to a chunk, and what a check of the chunk's
tree can find.
-/

namespace BlockPool

/-- Why a chunk refused a handle, or what is wrong with its tree. -/
inductive ChunkError where
  | invalidNode (node : UInt32)
  | notAllocated (handle : Handle)
  | noSubpage (handle : Handle)
  | slot (handle : Handle) (cause : BitmapError)
  | corrupted (node expected found : Nat)
deriving DecidableEq, Repr

/-- The text of the error. -/
def ChunkError.message : ChunkError → String
  | .invalidNode node => s!"node {node} is not part of the chunk tree"
  | .notAllocated handle => s!"handle {handle} is not allocated"
  | .noSubpage handle => s!"handle {handle} points at a leaf without a subpage"
  | .slot handle cause => s!"slot of handle {handle}: " ++ cause.message
  | .corrupted node expected found =>
    s!"tree node {node} holds {found} but {expected} was expected"

/-- The kind of the error, with that of its cause. -/
def ChunkError.kind : ChunkError → String
  | .invalidNode _ => "InvalidNode"
  | .notAllocated _ => "NotAllocated"
  | .noSubpage _ => "NoSubpage"
  | .slot _ cause => "Slot." ++ cause.kind
  | .corrupted _ _ _ => "Corrupted"

end BlockPool
