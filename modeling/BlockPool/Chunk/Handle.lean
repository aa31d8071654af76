/-!
# BlockPool — handles

A `Handle` names a block inside one chunk: the tree node it hangs from and, for a block that
shares a page, its slot in that page. A handle can be packed into one 64-bit word.
-/

namespace BlockPool

/-- The place of a block in its chunk. A block that shares no page is a run and has no slot. -/
structure Handle where
  node : UInt32
  slot : Option UInt32
deriving DecidableEq, Repr

namespace Handle

/-- The run that hangs from a node. -/
def run (node : UInt32) : Handle := ⟨node, none⟩

/-- A slot of the page that hangs from a node. -/
def subpage (node slot : UInt32) : Handle := ⟨node, some slot⟩

/-- Whether the block shares its page. -/
def isSubpage (h : Handle) : Bool := h.slot.isSome

/-- The bit of a packed handle that marks a slot. -/
def slotTag : UInt64 := 0x4000000000000000

/-- The bits of a packed handle, moved down to the lowest places, that hold the slot. -/
def slotMask : UInt64 := 0x3FFFFFFF

/-- Packs the handle: the node in the lower half, the slot and its mark in the upper one. -/
def encode (h : Handle) : UInt64 :=
  match h.slot with
  | some slot => slotTag ||| (slot.toUInt64 <<< 32) ||| h.node.toUInt64
  | none => h.node.toUInt64

/-- Unpacks a handle. What lies above the node is read only where the mark is set. -/
def decode (raw : UInt64) : Handle :=
  if raw &&& slotTag ≠ 0 then subpage raw.toUInt32 ((raw >>> 32) &&& slotMask).toUInt32
  else run raw.toUInt32

instance : ToString Handle where
  toString h :=
    match h.slot with
    | some slot => s!"{h.node}:{slot}"
    | none => s!"{h.node}"

end Handle

end BlockPool
