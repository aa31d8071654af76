import BlockPool.Proofs.Buffer.Basic
import BlockPool.Proofs.Buffer.Source

/-!
# BlockPool — allocators that take notes

An allocator that takes notes answers every call as an allocator does, and writes down every block
that came out and every block that was handed back, in order. So what is done to a buffer can be run
over it to learn which blocks that took.

* `Noted` — an allocator with the blocks that came out and that went back since it was looked at.
* `Noted.source_follows` — taking notes changes nothing.
* `Noted.deallocate_notes`, `Noted.put_notes` — what is noted of one operation.
-/

namespace BlockPool

/-- An allocator with its notes: the blocks that came out of it and those that were handed back, in
order. -/
structure Noted where
  allocator : Allocator
  taken : List (Nat × Block)
  returned : List (Nat × Block)

namespace Noted

variable (n : Noted) (caller : Caller) (b : Buffer)

/-- An allocator that writes down every block that comes out and every block that is handed back,
whether it is accepted or not. -/
def source : BlockSource Noted where
  id n := n.allocator.id
  heap n := n.allocator.heap
  setHeap n heap := { n with allocator := { n.allocator with heap } }
  allocateBlock n caller capacity :=
    ((n.allocator.allocateBlock caller capacity).1,
      { n with
        allocator := (n.allocator.allocateBlock caller capacity).2
        taken := n.taken ++ (n.allocator.allocateBlock caller capacity).1.toOption.toList })
  freeBlock n caller arena block :=
    ((n.allocator.freeBlock caller arena block).1,
      { n with
        allocator := (n.allocator.freeBlock caller arena block).2
        returned := n.returned ++ [(arena, block)] })

/-- Taking notes changes nothing. -/
theorem source_follows : source.Follows Allocator.source Noted.allocator where
  id _ := rfl
  heap _ := rfl
  setHeap _ _ := rfl
  allocateBlock _ _ _ := rfl
  freeBlock _ _ _ _ := rfl

theorem allocator_apply (act : Clients.Act) :
    (source.apply n b act).1 = (act.apply n.allocator b).1 ∧
      (source.apply n b act).2.allocator = (act.apply n.allocator b).2 := by
  have hSame : act.apply n.allocator b = _ := source_follows.apply n b act
  rw [hSame]
  exact ⟨rfl, rfl⟩

theorem allocator_drop :
    n.allocator.drop caller b = BlockSource.across Noted.allocator (source.drop n caller b) :=
  source_follows.drop n caller b

theorem allocator_reallocate (capacity : Nat) :
    n.allocator.reallocate caller b capacity =
      BlockSource.across Noted.allocator (source.reallocate n caller b capacity) :=
  source_follows.reallocate n caller b capacity

-- ---------------------------------------------------------------------------
-- What is noted of one operation
-- ---------------------------------------------------------------------------

/-- Of a buffer that gives its block back, that block is noted. -/
theorem deallocate_notes :
    (source.deallocate n caller b).2.2.taken = n.taken ∧
      (source.deallocate n caller b).2.2.returned = n.returned ++ b.holding ∧
        (source.deallocate n caller b).2.1.holding = [] := by
  unfold BlockSource.deallocate
  split
  · rename_i hBlock
    rw [Buffer.holding_none hBlock, List.append_nil]
    exact ⟨rfl, rfl, rfl⟩
  · rename_i block hBlock
    rw [Buffer.holding_some hBlock]
    exact ⟨rfl, rfl, rfl⟩

/-- What is put into the memory is not noted. -/
theorem put_notes (written : Except BufferError Heap) :
    ((written.map (source.setHeap n)).toOption.getD n).taken = n.taken ∧
      ((written.map (source.setHeap n)).toOption.getD n).returned = n.returned := by
  cases written with
  | error e => exact ⟨rfl, rfl⟩
  | ok heap => exact ⟨rfl, rfl⟩

end Noted

end BlockPool
