import BlockPool.Proofs.Buffer.Allocator
import BlockPool.Proofs.Buffer.Basic
import BlockPool.Proofs.Buffer.Source

/-!
# BlockPool — everything that can come of another capacity

A buffer that is to have another capacity is refused, or stays in its block, or asks for a new one
and moves into it if there is one. The steps of a move cannot fail: the bytes that are copied are
there, the old block is owed and so taken back, and the new one has room for what is copied. This is
so over every source that does what an allocator does.

* `Allocator.Sound.uses`, `Allocator.Sound.apart` — a buffer and the blocks of the others.
* `Allocator.Sound.asked`, `Allocator.Sound.moved` — an allocator while a buffer moves.
* `BlockSource.Resizing` — the six outcomes.
* `BlockSource.Follows.resizing` — there are no others.
-/

namespace BlockPool

variable {g : Geometry} {b : Buffer} {block : Block} {caller : Caller} {capacity : Nat}

/-- The buffer that has moved into another block. -/
def Buffer.movedInto (b : Buffer) (p : Nat × Block) (capacity : Nat) : Buffer :=
  { b with arena := p.1, block := some p.2, capacity }

namespace Allocator

variable {a : Allocator} {others held : List (Nat × Block)} {p q : Nat × Block}

-- ---------------------------------------------------------------------------
-- Blocks that are held
-- ---------------------------------------------------------------------------

/-- Two blocks that are held are of two arenas, or disjoint. -/
theorem Sound.disjoint (h : a.Sound g (p :: q :: held)) : p.1 ≠ q.1 ∨ p.2.Disjoint q.2 := by
  by_cases hArena : p.1 = q.1
  · obtain ⟨i, block⟩ := p
    obtain ⟨j, block'⟩ := q
    obtain rfl : i = j := hArena
    obtain ⟨-, hSound, hOwes⟩ := h.arena i (h.places _ List.mem_cons_self)
    rw [inArena_append, inArena_cons_self, inArena_cons_self] at hOwes
    exact .inr (hSound.disjoint (hOwes.perm List.perm_append_comm))
  · exact .inl hArena

/-- A buffer whose block is held uses it. -/
theorem Sound.uses (h : a.Sound g (b.holding ++ held)) (hFits : b.Fits)
    (hBlock : b.block = some block) : b.Uses block := by
  rw [Buffer.holding_some hBlock] at h
  obtain ⟨-, hSound, hOwes⟩ := h.arena b.arena (h.places _ List.mem_cons_self)
  rw [inArena_append, List.singleton_append, inArena_cons_self] at hOwes
  have hMem : block ∈ inArena b.arena (parkedIn a.caches) ++ block :: inArena b.arena held :=
    List.mem_append_right _ List.mem_cons_self
  obtain ⟨hInside, hWord⟩ := hSound.stop_le hOwes hMem
  exact ⟨hBlock, hFits block hBlock, hInside, hWord⟩

/-- The block of a buffer is disjoint from those that others hold. -/
theorem Sound.apart (h : a.Sound g (b.holding ++ others)) (hBlock : b.block = some block)
    (hq : q ∈ others) : b.arena ≠ q.1 ∨ block.Disjoint q.2 := by
  rw [Buffer.holding_some hBlock] at h
  exact (h.perm ((List.perm_cons_erase hq).append_left _)).disjoint

-- ---------------------------------------------------------------------------
-- A buffer between two blocks
-- ---------------------------------------------------------------------------

/-- A buffer that has asked for another block holds its own beside the new one. -/
theorem Sound.asked (h : a.Sound g (b.holding ++ others)) (hBlock : b.block = some block)
    (hOk : (a.allocateBlock caller capacity).1 = .ok p) :
    (a.allocateBlock caller capacity).2.Sound g ((b.arena, block) :: p :: others) := by
  obtain ⟨hSound, -, -⟩ := h.allocateBlock caller capacity
  rw [hOk, Buffer.holding_some hBlock] at hSound
  exact hSound.perm (List.Perm.swap ..)

/-- The old block is taken back, and the buffer holds the new one, which is large enough. -/
theorem Sound.moved (h : a.Sound g (b.holding ++ others)) (hBlock : b.block = some block)
    (hOk : (a.allocateBlock caller capacity).1 = .ok p) :
    let freed := (a.allocateBlock caller capacity).2.freeBlock caller b.arena block
    freed.1 = .ok () ∧ freed.2.Sound g ((b.movedInto p capacity).holding ++ others) ∧
      freed.2.heap = a.heap ∧ (b.movedInto p capacity).Fits := by
  obtain ⟨-, hHeap, hCapacity⟩ := h.allocateBlock caller capacity
  obtain ⟨hDone, hSound, hFreedHeap⟩ := (h.asked hBlock hOk).freeBlock caller
  refine ⟨hDone, hSound, hFreedHeap.trans hHeap, fun found hFound => ?_⟩
  obtain rfl : p.2 = found := Option.some.inj hFound
  exact (hCapacity p hOk).symm ▸ Geometry.le_normalize h.wellFormed capacity

end Allocator

namespace BlockSource

variable {σ : Type} {source : BlockSource σ} {f : σ → Allocator} {n : σ}
  {others : List (Nat × Block)}

-- ---------------------------------------------------------------------------
-- The outcomes
-- ---------------------------------------------------------------------------

/-- Everything that can come of a buffer that is to have another capacity. The first four leave the
source alone, the fifth asked it in vain. -/
inductive Resizing (source : BlockSource σ) (n : σ) (caller : Caller) (b : Buffer)
    (capacity : Nat) : Except BufferError Unit × Buffer × σ → Prop where
  | foreign (hOwner : b.owner ≠ source.id n) :
      Resizing source n caller b capacity (.error .foreignAllocator, b, n)
  | released (hOwner : b.owner = source.id n) (hBlock : b.block = none) :
      Resizing source n caller b capacity (.error .released, b, n)
  | beyond (hOwner : b.owner = source.id n) {block : Block} (hBlock : b.block = some block)
      (hLimit : b.maxCapacity < capacity) :
      Resizing source n caller b capacity
        (.error (.alloc (.capacity capacity b.maxCapacity)), b, n)
  | inPlace (hOwner : b.owner = source.id n) {block : Block} (hBlock : b.block = some block)
      (hLimit : capacity ≤ b.maxCapacity) (hPlace : b.fitsInPlace capacity = true) :
      Resizing source n caller b capacity (.ok (), { b with capacity }, n)
  | refused (hOwner : b.owner = source.id n) {block : Block} (hBlock : b.block = some block)
      (hLimit : capacity ≤ b.maxCapacity) (hPlace : b.fitsInPlace capacity = false)
      {cause : ArenaError} (hError : (source.allocateBlock n caller capacity).1 = .error cause) :
      Resizing source n caller b capacity
        (.error (.alloc (.arena cause)), b, (source.allocateBlock n caller capacity).2)
  | moves (hOwner : b.owner = source.id n) {old : Block} (hBlock : b.block = some old)
      (hLimit : capacity ≤ b.maxCapacity) (hPlace : b.fitsInPlace capacity = false)
      {p : Nat × Block} (hOk : (source.allocateBlock n caller capacity).1 = .ok p)
      (hFree : (source.freeBlock (source.allocateBlock n caller capacity).2 caller b.arena old).1 =
        .ok ())
      {bytes : Array UInt8}
      (hRead : b.read (source.heap n) 0 (min b.capacity capacity) = .ok bytes) {heap : Heap}
      (hWrite : (b.movedInto p capacity).write (source.heap n) 0 bytes = .ok heap) :
      Resizing source n caller b capacity (.ok (), b.movedInto p capacity,
        source.setHeap (source.freeBlock (source.allocateBlock n caller capacity).2 caller b.arena
          old).2 heap)

/-- A buffer that moves reads its bytes, which are there, gives its old block back, which is taken,
and writes into the new one, which has room. -/
theorem Follows.resizing_move (hFollows : source.Follows Allocator.source f)
    (h : (f n).Sound g (b.holding ++ others)) (hFits : b.Fits)
    (hOwner : b.owner = source.id n) (hBlock : b.block = some block)
    (hLimit : capacity ≤ b.maxCapacity) (hPlace : b.fitsInPlace capacity = false) :
    Resizing source n caller b capacity (source.move n caller b capacity) := by
  have hAsk : (f n).allocateBlock caller capacity = ((source.allocateBlock n caller capacity).1,
      f (source.allocateBlock n caller capacity).2) := hFollows.allocateBlock n caller capacity
  cases hResult : (source.allocateBlock n caller capacity).1 with
  | error cause =>
    have hAfter := Resizing.refused hOwner hBlock hLimit hPlace hResult
    unfold BlockSource.move
    rwa [show source.allocateBlock n caller capacity =
      (.error cause, (source.allocateBlock n caller capacity).2) from Prod.ext hResult rfl]
  | ok p =>
    set served := (source.allocateBlock n caller capacity).2 with hServed
    have hGive : (f served).freeBlock caller b.arena block =
        ((source.freeBlock served caller b.arena block).1,
          f (source.freeBlock served caller b.arena block).2) :=
      hFollows.freeBlock served caller b.arena block
    -- what the allocator behind the source does, the source does
    obtain ⟨hDone, hSound, hFreedHeap, hMovedFits⟩ :=
      h.moved hBlock ((congrArg Prod.fst hAsk).trans hResult)
    rw [hAsk] at hDone hSound hFreedHeap
    dsimp only at hDone hSound hFreedHeap
    rw [hGive] at hDone hSound hFreedHeap
    obtain ⟨-, hServedHeap, -⟩ := h.allocateBlock caller capacity
    rw [hAsk] at hServedHeap
    have hHeap : source.heap served = source.heap n :=
      (hFollows.heap served).symm.trans (hServedHeap.trans (hFollows.heap n))
    have hFreed : source.heap (source.freeBlock served caller b.arena block).2 = source.heap n :=
      (hFollows.heap _).symm.trans (hFreedHeap.trans (hFollows.heap n))
    -- the bytes that are read are as many as there is room for
    have hUses := h.uses hFits hBlock
    obtain ⟨bytes, hRead⟩ :=
      hUses.exists_read (source.heap n) (Nat.min_le_left b.capacity capacity)
    have hSize : bytes.size = min b.capacity capacity := by
      rw [hUses.read_eq _ (by omega)] at hRead
      rw [← Except.ok.inj hRead, Contents.size_read]
    have hMoved : (b.movedInto p capacity).Uses p.2 :=
      Allocator.Sound.uses (b := b.movedInto p capacity) hSound hMovedFits rfl
    have hWrite := hMoved.write_eq (source.heap n) (show 0 + bytes.size ≤ capacity by omega)
    have hAfter := Resizing.moves hOwner hBlock hLimit hPlace hResult hDone hRead hWrite
    unfold BlockSource.move
    rw [show source.allocateBlock n caller capacity = (.ok (p.1, p.2), served) from
      Prod.ext hResult rfl]
    have hGiveBack : source.giveBack served caller b =
        (.ok (), (source.freeBlock served caller b.arena block).2) := by
      rw [BlockSource.giveBack, hBlock]
      exact Prod.ext hDone rfl
    have hWriteHere : ({ b with arena := p.1, block := some p.2, capacity } : Buffer).write
        (source.heap n) 0 bytes = _ := hWrite
    simp only [hHeap, hRead, hGiveBack, hFreed, hWriteHere]
    exact hAfter

/-- One of these comes of every buffer that holds its block. -/
theorem Follows.resizing (hFollows : source.Follows Allocator.source f)
    (h : (f n).Sound g (b.holding ++ others)) (hFits : b.Fits)
    (caller : Caller) (capacity : Nat) :
    Resizing source n caller b capacity (source.reallocate n caller b capacity) := by
  unfold BlockSource.reallocate
  split
  · rename_i hOwner
    exact .foreign hOwner
  · rename_i hOwner
    have hOwn : b.owner = source.id n := not_not.mp hOwner
    split
    · rename_i hReleased
      exact .released hOwn (by simpa [Buffer.isReleased] using hReleased)
    · rename_i hLive
      obtain ⟨block, hBlock⟩ : ∃ block, b.block = some block :=
        Option.ne_none_iff_exists'.mp (by simpa [Buffer.isReleased] using hLive)
      split
      · rename_i hLimit
        exact .beyond hOwn hBlock hLimit
      · rename_i hLimit
        split
        · rename_i hPlace
          exact .inPlace hOwn hBlock (Nat.le_of_not_lt hLimit) hPlace
        · rename_i hPlace
          exact hFollows.resizing_move h hFits hOwn hBlock (Nat.le_of_not_lt hLimit)
            (by simpa using hPlace)

end BlockSource

end BlockPool
