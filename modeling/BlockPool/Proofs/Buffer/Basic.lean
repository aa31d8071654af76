import BlockPool.Buffer.Basic
import BlockPool.Proofs.Arena.Owed

/-!
# BlockPool — what a buffer reads and writes

A buffer reads and writes the first bytes of its block. While its capacity does not exceed the
block, what is written through it stays inside the block, and what is read through it depends on the
bytes of the block alone.

* `Heap.Agree` — the bytes of one block are the same in two heaps.
* `Buffer.Uses` — a buffer with its block.
* `Buffer.Uses.bytes_of_agree` — a buffer of a block that has not changed reads the same.
* `Buffer.Uses.agree_write`, `Buffer.Uses.agree_fill` — what is disjoint from the block stays.
-/

namespace BlockPool

variable {h h' : Heap} {b b' : Buffer} {block : Block} {q : Nat × Block} {arena offset size : Nat}
  {bytes : Array UInt8} {byte : UInt8}

/-- The bytes of a block of an arena are the same in two heaps. -/
def Heap.Agree (h h' : Heap) (q : Nat × Block) : Prop :=
  ∀ i, q.2.offset ≤ i → i < q.2.offset + q.2.capacity →
    (h'.contents q.1 q.2.region.id).byteAt i = (h.contents q.1 q.2.region.id).byteAt i

theorem Heap.Agree.refl (h : Heap) (q : Nat × Block) : h.Agree h q := fun _ _ _ => rfl

/-- A change inside one block leaves every disjoint block as it was. -/
theorem Heap.agree_modify (hApart : arena ≠ q.1 ∨ block.Disjoint q.2) {f : Contents → Contents}
    (hf : ∀ c i, i < block.offset ∨ block.offset + block.capacity ≤ i →
      (f c).byteAt i = c.byteAt i) : h.Agree (h.modify arena block.region.id f) q := by
  intro i hLow hHigh
  by_cases hSame : q.1 = arena ∧ q.2.region.id = block.region.id
  · obtain ⟨rfl, hRegion⟩ := hSame
    rw [hRegion, Heap.contents_modify_self]
    refine hf _ i ?_
    rcases hApart with hNe | hNe | hBefore | hAfter
    · exact absurd rfl hNe
    · exact absurd hRegion.symm hNe
    · exact .inr (by omega)
    · exact .inl (by omega)
  · rw [Heap.contents_modify_of_ne h f hSame]

namespace Buffer

/-- The block of a buffer, with its arena. -/
def holding (b : Buffer) : List (Nat × Block) := b.block.toList.map fun block => (b.arena, block)

theorem holding_some (hBlock : b.block = some block) : b.holding = [(b.arena, block)] := by
  rw [holding, hBlock]
  rfl

theorem holding_none (hBlock : b.block = none) : b.holding = [] := by
  rw [holding, hBlock]
  rfl

/-- The capacity does not exceed the block. -/
def Fits (b : Buffer) : Prop := ∀ block, b.block = some block → b.capacity ≤ block.capacity

/-- The block of a live buffer: it is large enough, and lies inside its region. -/
structure Uses (b : Buffer) (block : Block) : Prop where
  found : b.block = some block
  fits : b.capacity ≤ block.capacity
  inside : block.offset + block.capacity ≤ block.region.size
  word : block.offset + block.capacity < Word.limit

theorem Uses.window_eq (hUses : b.Uses block) : b.window = .ok block := by
  obtain ⟨hBlock, hFits, hInside, hWordBound⟩ := hUses
  have hWord : Word.add? block.offset b.capacity = some (block.offset + b.capacity) :=
    if_pos (by omega)
  have hCheck : block.region.check block.offset b.capacity = .ok () := by
    rw [Region.check, hWord]
    exact if_pos (by omega)
  simp only [Buffer.window, live, hBlock, bind, Except.bind, hCheck]
  rfl

theorem Uses.bytes_eq (hUses : b.Uses block) (h : Heap) :
    b.bytes h = .ok ((h.contents b.arena block.region.id).read block.offset b.capacity) := by
  rw [Buffer.bytes, hUses.window_eq]
  rfl

/-- A live buffer reads as many bytes as its capacity says. -/
theorem Uses.exists_bytes (hUses : b.Uses block) (h : Heap) :
    ∃ bytes, b.bytes h = .ok bytes ∧ bytes.size = b.capacity :=
  ⟨_, hUses.bytes_eq h, Contents.size_read ..⟩

/-- A live buffer reads the bytes of its block alone. -/
theorem Uses.bytes_of_agree (hUses : b.Uses block) (hAgree : h.Agree h' (b.arena, block)) :
    b.bytes h' = b.bytes h := by
  have hFits := hUses.fits
  rw [hUses.bytes_eq, hUses.bytes_eq]
  congr 1
  refine Array.ext (by simp) fun i hi _ => ?_
  rw [Contents.size_read] at hi
  rw [Contents.getElem_read, Contents.getElem_read]
  exact hAgree (block.offset + i) (Nat.le_add_right ..) (by dsimp only; omega)

theorem Uses.check_eq (hUses : b.Uses block) (hStop : offset + size ≤ b.capacity) :
    b.check offset size = .ok () := by
  have hFits := hUses.fits
  have hWordBound := hUses.word
  have hWord : Word.add? offset size = some (offset + size) := if_pos (by omega)
  rw [check, hWord]
  exact if_pos hStop

theorem Uses.read_eq (hUses : b.Uses block) (h : Heap) (hStop : offset + size ≤ b.capacity) :
    b.read h offset size =
      .ok ((h.contents b.arena block.region.id).read (block.offset + offset) size) := by
  rw [read, hUses.check_eq hStop, hUses.window_eq]
  rfl

theorem Uses.write_eq (hUses : b.Uses block) (h : Heap) (hStop : offset + bytes.size ≤ b.capacity) :
    b.write h offset bytes = .ok (h.modify b.arena block.region.id fun c =>
      c.write (block.offset + offset) bytes) := by
  rw [write, hUses.check_eq hStop, hUses.window_eq]
  rfl

theorem Uses.exists_read (hUses : b.Uses block) (h : Heap) (hSize : size ≤ b.capacity) :
    ∃ bytes, b.read h 0 size = .ok bytes :=
  ⟨_, hUses.read_eq h (by omega)⟩

theorem stop_le_of_check (hCheck : b.check offset size = .ok ()) : offset + size ≤ b.capacity := by
  unfold check at hCheck
  split at hCheck
  · rename_i stop hWord
    unfold Word.add? at hWord
    split at hWord
    · obtain rfl := Option.some.inj hWord
      split at hCheck
      · assumption
      · exact absurd hCheck (by simp)
    · exact absurd hWord (by simp)
  · exact absurd hCheck (by simp)

/-- What is written through a live buffer stays inside its block. -/
theorem Uses.agree_write (hUses : b.Uses block) (hWrite : b.write h offset bytes = .ok h')
    (hApart : b.arena ≠ q.1 ∨ block.Disjoint q.2) : h.Agree h' q := by
  have hFits := hUses.fits
  cases hCheck : b.check offset bytes.size with
  | error cause => simp [write, hCheck, bind, Except.bind] at hWrite
  | ok _ =>
    have hStop := stop_le_of_check hCheck
    rw [write, hCheck, hUses.window_eq] at hWrite
    obtain rfl := Except.ok.inj hWrite
    refine Heap.agree_modify hApart fun c i hOutside => ?_
    rcases hOutside with hBefore | hAfter
    · exact Contents.byteAt_write_of_lt (by omega)
    · exact Contents.byteAt_write_of_ge (by omega)

theorem Uses.agree_fill (hUses : b.Uses block) (hFill : b.fill h byte = .ok h')
    (hApart : b.arena ≠ q.1 ∨ block.Disjoint q.2) : h.Agree h' q := by
  have hFits := hUses.fits
  rw [fill, hUses.window_eq] at hFill
  obtain rfl := Except.ok.inj hFill
  refine Heap.agree_modify hApart fun c i hOutside => ?_
  exact if_neg (by omega)

/-- Nothing is written through a released buffer. -/
theorem window_released (hBlock : b.block = none) : b.window = .error .released := by
  simp only [window, live, hBlock]
  rfl

theorem write_ne_ok (hBlock : b.block = none) : b.write h offset bytes ≠ .ok h' := by
  cases hCheck : b.check offset bytes.size <;>
    simp [write, hCheck, window_released hBlock, bind, Except.bind]

theorem fill_ne_ok (hBlock : b.block = none) : b.fill h byte ≠ .ok h' := by
  simp [fill, window_released hBlock, bind, Except.bind]

theorem exists_of_retain (hRetain : b.retain = .ok b') :
    ∃ refCount, b' = { b with refCount } := by
  unfold retain at hRetain
  split at hRetain
  · exact absurd hRetain (by simp)
  · split at hRetain
    · exact ⟨_, (Except.ok.inj hRetain).symm⟩
    · exact absurd hRetain (by simp)

end Buffer

end BlockPool
