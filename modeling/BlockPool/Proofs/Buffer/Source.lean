import BlockPool.Buffer.Allocator

/-!
# BlockPool — what is done to one buffer

Everything that can be done to a buffer is an `Act`, over anything that answers the calls of a
buffer. What an act does depends on the answers alone: where one source answers as another one does,
every act has the same outcome over both.

* `Clients.Act`, `BlockSource.apply` — what can be done to a buffer, and what comes of it.
* `BlockSource.Follows` — of two sources one does what the other does.
* `BlockSource.Follows.apply` — so every act does over one what it does over the other.
-/

namespace BlockPool

namespace Clients

/-- What can be done to one buffer. -/
inductive Act where
  | write (offset : Nat) (bytes : Array UInt8)
  | fill (byte : UInt8)
  | retain
  /-- One reference less, without asking whose buffer it is. -/
  | drop (caller : Caller)
  | release (caller : Caller)
  /-- The end of the buffer, whatever its count. -/
  | discard (caller : Caller)
  | reallocate (caller : Caller) (capacity : Nat)

end Clients

namespace BlockSource

variable {σ τ : Type} {s : BlockSource σ} {t : BlockSource τ} {f : σ → τ}

/-- The buffer afterwards, unless it is gone, and the state of the source. What is refused changes
nothing but what the refusal itself changes. -/
def apply (source : BlockSource σ) (a : σ) (b : Buffer) : Clients.Act → Option Buffer × σ
  | .write offset bytes => (some b, (source.write a b offset bytes).toOption.getD a)
  | .fill byte => (some b, (source.fill a b byte).toOption.getD a)
  | .retain => (some (b.retain.toOption.getD b), a)
  | .drop caller => (some (source.drop a caller b).2.1, (source.drop a caller b).2.2)
  | .release caller => (some (source.release a caller b).2.1, (source.release a caller b).2.2)
  | .discard caller => (none, source.discard a caller b)
  | .reallocate caller capacity =>
    (some (source.reallocate a caller b capacity).2.1, (source.reallocate a caller b capacity).2.2)

-- ---------------------------------------------------------------------------
-- Two sources
-- ---------------------------------------------------------------------------

/-- One source does what another one does, on what a function makes of its states. -/
structure Follows (s : BlockSource σ) (t : BlockSource τ) (f : σ → τ) : Prop where
  id : ∀ a, t.id (f a) = s.id a
  heap : ∀ a, t.heap (f a) = s.heap a
  setHeap : ∀ a heap, t.setHeap (f a) heap = f (s.setHeap a heap)
  allocateBlock : ∀ a caller capacity, t.allocateBlock (f a) caller capacity =
    ((s.allocateBlock a caller capacity).1, f (s.allocateBlock a caller capacity).2)
  freeBlock : ∀ a caller arena block, t.freeBlock (f a) caller arena block =
    ((s.freeBlock a caller arena block).1, f (s.freeBlock a caller arena block).2)

theorem Follows.refl (s : BlockSource σ) : s.Follows s fun a => a :=
  ⟨fun _ => rfl, fun _ => rfl, fun _ _ => rfl, fun _ _ _ => rfl, fun _ _ _ _ => rfl⟩

/-- The outcome of an operation, in the states of another source. -/
def across {ρ : Type} (f : σ → τ) (outcome : ρ × Buffer × σ) : ρ × Buffer × τ :=
  (outcome.1, outcome.2.1, f outcome.2.2)

variable (a : σ) (caller : Caller) (b : Buffer) (capacity : Nat)

theorem Follows.deallocate (h : s.Follows t f) :
    t.deallocate (f a) caller b = across f (s.deallocate a caller b) := by
  unfold BlockSource.deallocate
  split
  · rfl
  · rw [h.freeBlock]
    rfl

theorem Follows.drop (h : s.Follows t f) :
    t.drop (f a) caller b = across f (s.drop a caller b) := by
  unfold BlockSource.drop
  split
  · rfl
  · rw [h.deallocate]
    rfl
  · rfl

theorem Follows.release (h : s.Follows t f) :
    t.release (f a) caller b = across f (s.release a caller b) := by
  unfold BlockSource.release
  rw [h.id]
  split
  · rfl
  · exact h.drop a caller b

theorem Follows.giveBack (h : s.Follows t f) :
    t.giveBack (f a) caller b = ((s.giveBack a caller b).1, f (s.giveBack a caller b).2) := by
  unfold BlockSource.giveBack
  split
  · exact h.freeBlock a caller b.arena _
  · rfl

/-- A buffer asks both for a block and gives its old block back to both, and what is copied is read
from the same memory and written into the same memory. -/
theorem Follows.move (h : s.Follows t f) :
    t.move (f a) caller b capacity = across f (s.move a caller b capacity) := by
  unfold BlockSource.move
  rw [h.allocateBlock]
  rcases s.allocateBlock a caller capacity with ⟨cause | ⟨arena, block⟩, served⟩
  · rfl
  · dsimp only
    rw [h.heap]
    cases b.read (s.heap served) 0 (min b.capacity capacity) with
    | error e => rfl
    | ok bytes =>
      -- both give the old block back, and write into the memory that this leaves
      dsimp only
      rw [h.giveBack]
      rcases s.giveBack served caller b with ⟨cause | ⟨⟩, freedTo⟩
      · rfl
      · dsimp only
        rw [h.heap]
        cases Buffer.write { b with arena, block := some block, capacity } (s.heap freedTo) 0
          bytes with
        | error e => rfl
        | ok heap =>
          dsimp only
          rw [h.setHeap]
          rfl

theorem Follows.reallocate (h : s.Follows t f) :
    t.reallocate (f a) caller b capacity = across f (s.reallocate a caller b capacity) := by
  unfold BlockSource.reallocate
  rw [h.id]
  split
  · rfl
  · split
    · rfl
    · split
      · rfl
      · split
        · rfl
        · exact h.move a caller b capacity

theorem Follows.write (h : s.Follows t f) (offset : Nat) (bytes : Array UInt8) :
    t.write (f a) b offset bytes = (s.write a b offset bytes).map f := by
  unfold BlockSource.write
  rw [h.heap]
  cases b.write (s.heap a) offset bytes with
  | error e => rfl
  | ok heap => exact congrArg Except.ok (h.setHeap a heap)

theorem Follows.fill (h : s.Follows t f) (byte : UInt8) :
    t.fill (f a) b byte = (s.fill a b byte).map f := by
  unfold BlockSource.fill
  rw [h.heap]
  cases b.fill (s.heap a) byte with
  | error e => rfl
  | ok heap => exact congrArg Except.ok (h.setHeap a heap)

/-- What is put into the memory, or nothing if it was refused. -/
theorem getD_toOption_map {given : Except BufferError σ} (f : σ → τ) (a : σ) :
    (given.map f).toOption.getD (f a) = f (given.toOption.getD a) := by
  cases given <;> rfl

theorem Follows.apply (h : s.Follows t f) (act : Clients.Act) :
    t.apply (f a) b act = ((s.apply a b act).1, f (s.apply a b act).2) := by
  cases act with
  | write offset bytes => simp only [BlockSource.apply, h.write, getD_toOption_map]
  | fill byte => simp only [BlockSource.apply, h.fill, getD_toOption_map]
  | retain => rfl
  | drop caller => simp only [BlockSource.apply, h.drop, across]
  | release caller => simp only [BlockSource.apply, h.release, across]
  | discard caller => simp only [BlockSource.apply, discard, h.deallocate, across]
  | reallocate caller capacity => simp only [BlockSource.apply, h.reallocate, across]

end BlockSource

namespace Clients

/-- The buffer after an act, unless it is gone, and its allocator. -/
def Act.apply (a : Allocator) (b : Buffer) (act : Act) : Option Buffer × Allocator :=
  Allocator.source.apply a b act

end Clients

end BlockPool
