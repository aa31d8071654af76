import BlockPool.Proofs.Buffer.Clients

/-!
# BlockPool — what an act does with blocks

An act on a buffer asks the allocator for a block at most once, and gives a block back at most once,
which is the block of the buffer. So an invariant of allocators that asking and giving back keep is
kept by every act, and what giving a block back does is said once for all acts.

* `Clients.Act.returnsTo` — who gives a block back, and to which state of the allocator.
* `Clients.Act.Ends` — the acts after which a buffer has no block.
* `Clients.Act.Does` — the four things that an act can do.
* `Clients.Act.does_apply` — and it does one of them.
-/

namespace BlockPool

variable {g : Geometry} {b : Buffer} {block : Block} {caller : Caller}

namespace Clients

variable {s : Clients} {a a' : Allocator} {b? b?' : Option Buffer} {others : List (Nat × Block)}
  {act : Act} {i : Nat}

/-- The caller of an act that may give a block back, and the allocator when it does: a buffer that
moves asks for its new block first. -/
def Act.returnsTo (a : Allocator) : Act → Option (Caller × Allocator)
  | .write _ _ => none
  | .fill _ => none
  | .retain => none
  | .drop caller => some (caller, a)
  | .release caller => some (caller, a)
  | .discard caller => some (caller, a)
  | .reallocate caller capacity => some (caller, (a.allocateBlock caller capacity).2)

/-- The acts that end the life of a buffer: the last reference goes, or all of them at once. -/
def Act.Ends (a : Allocator) (b : Buffer) : Act → Prop
  | .drop _ => b.refCount = 1
  | .release _ => b.refCount = 1 ∧ b.owner = a.id
  | .discard _ => True
  | _ => False

/-- What an act on a buffer can do: nothing with blocks, ask for one in vain, give the block of the
buffer back, or do so with another one in its place. -/
inductive Act.Does (act : Act) (a : Allocator) (b : Buffer) : Option Buffer → Allocator → Prop where
  | keeps {b?' : Option Buffer} (heap : Heap) (hHolding : holdingOf b?' = b.holding) :
      Does act a b b?' { a with heap }
  | asks {b?' : Option Buffer} {cause : ArenaError} (caller : Caller) (capacity : Nat)
      (hError : (a.allocateBlock caller capacity).1 = .error cause)
      (hHolding : holdingOf b?' = b.holding) :
      Does act a b b?' (a.allocateBlock caller capacity).2
  | returns {b?' : Option Buffer} {caller : Caller} {block : Block}
      (hReturns : act.returnsTo a = some (caller, a)) (hBlock : b.block = some block)
      (hHolding : holdingOf b?' = []) :
      Does act a b b?' (a.freeBlock caller b.arena block).2
  | moves {b?' : Option Buffer} {caller : Caller} {capacity : Nat} {block : Block} {p : Nat × Block}
      (heap : Heap)
      (hReturns : act.returnsTo a = some (caller, (a.allocateBlock caller capacity).2))
      (hBlock : b.block = some block) (hOk : (a.allocateBlock caller capacity).1 = .ok p)
      (hHolding : holdingOf b?' = [p]) :
      Does act a b b?'
        { ((a.allocateBlock caller capacity).2.freeBlock caller b.arena block).2 with heap }

/-- Nothing at all is one of the things an act can do. -/
theorem Act.does_nothing (act : Act) (a : Allocator) (hHolding : holdingOf b? = b.holding) :
    act.Does a b b? a :=
  .keeps a.heap hHolding

-- ---------------------------------------------------------------------------
-- One act after the other
-- ---------------------------------------------------------------------------

theorem Act.does_deallocate (hReturns : act.returnsTo a = some (caller, a)) (count : Nat) :
    act.Does a b (some (Allocator.source.deallocate a caller { b with refCount := count }).2.1)
      (Allocator.source.deallocate a caller { b with refCount := count }).2.2 := by
  unfold BlockSource.deallocate
  split
  · exact act.does_nothing a rfl
  · rename_i block hBlock
    exact .returns hReturns hBlock rfl

theorem Act.does_drop (hReturns : act.returnsTo a = some (caller, a)) :
    act.Does a b (some (Allocator.source.drop a caller b).2.1)
      (Allocator.source.drop a caller b).2.2 := by
  unfold BlockSource.drop
  split
  · exact act.does_nothing a rfl
  · exact act.does_deallocate hReturns 0
  · exact act.does_nothing a rfl

/-- A buffer that is to have another capacity asks for a block only if it moves, and then gives the
old one back. -/
theorem Act.does_reallocate (h : a.Sound g (b.holding ++ others)) (hFits : b.Fits)
    {capacity : Nat}
    (hReturns : act.returnsTo a = some (caller, (a.allocateBlock caller capacity).2)) :
    act.Does a b (some (Allocator.source.reallocate a caller b capacity).2.1)
      (Allocator.source.reallocate a caller b capacity).2.2 := by
  have hOutcome := (BlockSource.Follows.refl Allocator.source).resizing h hFits caller capacity
  generalize Allocator.source.reallocate a caller b capacity = outcome at hOutcome
  cases hOutcome with
  | refused hOwner hBlock hLimit hPlace hError => exact .asks caller capacity hError rfl
  | moves hOwner hBlock hLimit hPlace hOk hFree hRead hWrite =>
    exact .moves _ hReturns hBlock hOk rfl
  | _ => exact act.does_nothing a rfl

/-- Every act does one of the four things. -/
theorem Act.does_apply (act : Act) (h : a.Sound g (b.holding ++ others)) (hFits : b.Fits) :
    act.Does a b (act.apply a b).1 (act.apply a b).2 := by
  cases act with
  | write offset bytes =>
    simp only [Act.apply, BlockSource.apply, BlockSource.write, Allocator.source]
    cases b.write a.heap offset bytes with
    | error cause => exact Act.does_nothing _ a rfl
    | ok heap => exact .keeps heap rfl
  | fill byte =>
    simp only [Act.apply, BlockSource.apply, BlockSource.fill, Allocator.source]
    cases b.fill a.heap byte with
    | error cause => exact Act.does_nothing _ a rfl
    | ok heap => exact .keeps heap rfl
  -- a second reference is no business of the allocator
  | retain =>
    simp only [Act.apply, BlockSource.apply]
    cases hRetain : b.retain with
    | error cause => exact Act.does_nothing _ a rfl
    | ok b' =>
      obtain ⟨count, rfl⟩ := Buffer.exists_of_retain hRetain
      exact Act.does_nothing _ a rfl
  | drop caller => exact Act.does_drop rfl
  | release caller =>
    simp only [Act.apply, BlockSource.apply, BlockSource.release]
    split
    · exact Act.does_nothing _ a rfl
    · exact Act.does_drop rfl
  -- a buffer that has lost its block has nothing to give back
  | discard caller =>
    simp only [Act.apply, BlockSource.apply, BlockSource.discard, BlockSource.deallocate]
    split
    · rename_i hBlock
      exact Act.does_nothing _ a (Buffer.holding_none hBlock).symm
    · rename_i block hBlock
      exact .returns rfl hBlock rfl
  | reallocate caller capacity => exact Act.does_reallocate h hFits rfl

-- ---------------------------------------------------------------------------
-- The end of a buffer
-- ---------------------------------------------------------------------------

theorem holdingOf_deallocate (a : Allocator) (caller : Caller) (b : Buffer) :
    holdingOf (some (Allocator.source.deallocate a caller b).2.1) = [] := by
  unfold BlockSource.deallocate
  split
  · rename_i hBlock
    exact Buffer.holding_none hBlock
  · rfl

theorem holdingOf_drop (hLast : b.refCount = 1) (a : Allocator) (caller : Caller) :
    holdingOf (some (a.drop caller b).2.1) = [] := by
  simp only [Allocator.drop, BlockSource.drop, hLast]
  exact holdingOf_deallocate a caller _

/-- A buffer whose life ends has no block afterwards. -/
theorem Act.Ends.holdingOf_apply (h : act.Ends a b) : holdingOf (act.apply a b).1 = [] := by
  cases act with
  | drop caller => exact holdingOf_drop h a caller
  | release caller =>
    obtain ⟨hLast, hOwner⟩ := h
    have hRelease : Allocator.source.release a caller b = a.drop caller b :=
      if_neg (not_not_intro hOwner)
    simp only [Act.apply, BlockSource.apply, hRelease]
    exact holdingOf_drop hLast a caller
  | discard caller => rfl
  | write offset bytes => exact h.elim
  | fill byte => exact h.elim
  | retain => exact h.elim
  | reallocate caller capacity => exact h.elim

end Clients

end BlockPool
