/-!
# BlockPool — the bytes of a memory

`Contents` says which byte stands at each offset of a memory. Fresh memory is zero everywhere; a
write changes the offsets it covers and no other, so what a reader sees at an offset is what the
last write over it left there.
-/

namespace BlockPool

/-- The byte at each offset of a memory. -/
structure Contents where
  /-- The byte at an offset. -/
  byteAt : Nat → UInt8

namespace Contents

/-- Fresh memory. -/
def zeroed : Contents := ⟨fun _ => 0⟩

instance : Inhabited Contents := ⟨zeroed⟩

/-- Puts `bytes` at `offset` and the offsets after it. -/
def write (contents : Contents) (offset : Nat) (bytes : Array UInt8) : Contents where
  byteAt i :=
    if offset ≤ i then
      match bytes[i - offset]? with
      | some byte => byte
      | none => contents.byteAt i
    else contents.byteAt i

/-- Puts one byte at each of `size` offsets from `offset` on. -/
def fill (contents : Contents) (offset size : Nat) (byte : UInt8) : Contents where
  byteAt i := if offset ≤ i ∧ i < offset + size then byte else contents.byteAt i

/-- The `size` bytes from `offset` on. -/
def read (contents : Contents) (offset size : Nat) : Array UInt8 :=
  Array.ofFn fun i : Fin size => contents.byteAt (offset + i)

-- ---------------------------------------------------------------------------
-- What each operation does to the byte at an offset
-- ---------------------------------------------------------------------------

@[simp] theorem byteAt_zeroed (i : Nat) : zeroed.byteAt i = 0 := rfl

theorem byteAt_write_of_lt {contents : Contents} {offset i : Nat} {bytes : Array UInt8}
    (h : i < offset) : (contents.write offset bytes).byteAt i = contents.byteAt i := by
  have : ¬ offset ≤ i := by omega
  simp [write, this]

theorem byteAt_write_of_ge {contents : Contents} {offset i : Nat} {bytes : Array UInt8}
    (h : offset + bytes.size ≤ i) :
    (contents.write offset bytes).byteAt i = contents.byteAt i := by
  have hNone : bytes[i - offset]? = none := Array.getElem?_eq_none (by omega)
  simp [write, hNone]

theorem byteAt_write_add {contents : Contents} {offset i : Nat} {bytes : Array UInt8}
    (h : i < bytes.size) :
    (contents.write offset bytes).byteAt (offset + i) = bytes[i] := by
  simp [write, h]

@[simp] theorem size_read (contents : Contents) (offset size : Nat) :
    (contents.read offset size).size = size := by
  simp [read]

@[simp] theorem getElem_read {contents : Contents} {offset size i : Nat}
    (h : i < (contents.read offset size).size) :
    (contents.read offset size)[i] = contents.byteAt (offset + i) := by
  simp [read]

end Contents

end BlockPool
