import BlockPool.Proofs.Buffer.Resize

/-!
# BlockPool — the references to a buffer

A buffer counts the references to it and has its block as long as there are any. The last one that
is dropped gives the block back. From then on the buffer answers everything with an error, and
nothing that is done to it has any effect.

* `Buffer.Counted` — the block is there as long as references are.
* `Noted.Dropping` — everything that can come of a reference that is dropped.
* `Buffer.Live`, `Buffer.Spent` — how a buffer answers before and after the last reference went.
* `Clients.Act.Passes` — what an act does to the count, and what is noted of it.
-/

namespace BlockPool

variable {g : Geometry} {b b' : Buffer} {block : Block} {caller : Caller}

-- ---------------------------------------------------------------------------
-- The count
-- ---------------------------------------------------------------------------

namespace Buffer

/-- The count is a word, and the block is there as long as the count is not zero. -/
structure Counted (b : Buffer) : Prop where
  block : b.block = none ↔ b.refCount = 0
  word : b.refCount ≤ Word.maxValue

theorem Counted.exists_block (h : b.Counted) (hCount : b.refCount ≠ 0) :
    ∃ block, b.block = some block :=
  Option.ne_none_iff_exists'.mp fun hNone => hCount (h.block.mp hNone)

/-- Everything but the count and whether there is a block may change. -/
theorem Counted.of_same (h : b.Counted) (hBlock : b'.block = none ↔ b.block = none)
    (hCount : b'.refCount = b.refCount) : b'.Counted :=
  ⟨by rw [hBlock, hCount, h.block], hCount ▸ h.word⟩

theorem retain_spent (hCount : b.refCount = 0) : b.retain = .error (.illegalRefCount 0) := by
  rw [retain, if_pos hCount]

theorem retain_of_lt (hCount : b.refCount ≠ 0) (hRoom : b.refCount < Word.maxValue) :
    b.retain = .ok { b with refCount := b.refCount + 1 } := by
  unfold Word.maxValue at hRoom
  have hWord : Word.add? b.refCount 1 = some (b.refCount + 1) := if_pos (by omega)
  rw [retain, if_neg hCount, hWord]

/-- The largest word is the last count. -/
theorem retain_full (hFull : b.refCount = Word.maxValue) :
    b.retain = .error (.illegalRefCount b.refCount) := by
  have hCount : b.refCount ≠ 0 := by
    rw [hFull]
    decide
  unfold Word.maxValue at hFull
  have hWord : Word.add? b.refCount 1 = none := if_neg (by omega)
  rw [retain, if_neg hCount, hWord]

/-- A reference is added to a buffer that has one and room for another in its count. -/
theorem Counted.retain (h : b.Counted) (hRetain : b.retain = .ok b') :
    b' = { b with refCount := b.refCount + 1 } ∧ b'.Counted := by
  have hCount : b.refCount ≠ 0 := fun hZero => by simp [retain_spent hZero] at hRetain
  have hRoom : b.refCount < Word.maxValue :=
    Nat.lt_of_le_of_ne h.word fun hFull => by simp [retain_full hFull] at hRetain
  rw [retain_of_lt hCount hRoom] at hRetain
  obtain rfl := Except.ok.inj hRetain
  exact ⟨rfl, by simp [h.block, hCount], hRoom⟩

/-- Nothing is read from a buffer without a block. -/
theorem read_released (hBlock : b.block = none) (h : Heap) (offset size : Nat) :
    ∃ e, b.read h offset size = .error e := by
  cases hCheck : b.check offset size with
  | error e => exact ⟨e, by simp [read, hCheck, bind, Except.bind]⟩
  | ok _ => exact ⟨.released, by simp [read, hCheck, window_released hBlock, bind, Except.bind]⟩

end Buffer

-- ---------------------------------------------------------------------------
-- One reference less
-- ---------------------------------------------------------------------------

namespace Noted

variable {n : Noted} {others : List (Nat × Block)}

/-- Everything that can come of a reference that is dropped, with what is noted of it: there is
none, it is the last one, or there are more. -/
inductive Dropping (n : Noted) (caller : Caller) (b : Buffer) :
    Except BufferError Bool × Buffer × Noted → Prop where
  | spent (hCount : b.refCount = 0) : Dropping n caller b (.error (.illegalRefCount 0), b, n)
  | last (hCount : b.refCount = 1) {block : Block} (hBlock : b.block = some block)
      (hFree : (n.allocator.freeBlock caller b.arena block).1 = .ok ()) :
      Dropping n caller b (.ok true, { b with refCount := 0, block := none },
        { n with
          allocator := (n.allocator.freeBlock caller b.arena block).2
          returned := n.returned ++ [(b.arena, block)] })
  | more {count : Nat} (hCount : b.refCount = count + 2) :
      Dropping n caller b (.ok false, { b with refCount := count + 1 }, n)

/-- The last reference gives a block back that the allocator owes, so it is taken. -/
theorem dropping_drop (h : n.allocator.Sound g (b.holding ++ others)) (hCounted : b.Counted)
    (caller : Caller) : Dropping n caller b (source.drop n caller b) := by
  unfold BlockSource.drop
  split
  · rename_i hSpent
    exact .spent hSpent
  · rename_i hLast
    obtain ⟨block, hBlock⟩ := hCounted.exists_block (by omega)
    rw [Buffer.holding_some hBlock] at h
    obtain ⟨hDone, -, -⟩ := h.freeBlock caller
    have hAfter := Dropping.last hLast hBlock hDone
    simpa [BlockSource.deallocate, hBlock, source, hDone, Except.mapError, Except.map] using hAfter
  · rename_i count hMore
    exact .more hMore

end Noted

-- ---------------------------------------------------------------------------
-- How a buffer answers
-- ---------------------------------------------------------------------------

namespace Buffer

variable {a : Allocator} {others : List (Nat × Block)}

/-- How a buffer with references answers its allocator. The reference that takes the count to zero,
and no other one, gives the block back and says so. -/
structure Live (a : Allocator) (b : Buffer) : Prop where
  last : b.refCount = 1 → ∀ caller, ∃ block, b.block = some block ∧
    a.drop caller b = (.ok true, { b with refCount := 0, block := none },
      (a.freeBlock caller b.arena block).2)
  more : ∀ count, b.refCount = count + 2 → ∀ caller,
    a.drop caller b = (.ok false, { b with refCount := count + 1 }, a)
  release : ∀ caller, a.release caller b = a.drop caller b
  retain : b.refCount < Word.maxValue → b.retain = .ok { b with refCount := b.refCount + 1 }
  full : b.refCount = Word.maxValue → b.retain = .error (.illegalRefCount b.refCount)

/-- How a buffer without references answers its allocator. -/
structure Spent (a : Allocator) (b : Buffer) : Prop where
  block : b.block = none
  drop : ∀ caller, a.drop caller b = (.error (.illegalRefCount 0), b, a)
  release : ∀ caller, a.release caller b = (.error (.illegalRefCount 0), b, a)
  retain : b.retain = .error (.illegalRefCount 0)
  reallocate : ∀ caller capacity, a.reallocate caller b capacity = (.error .released, b, a)
  bytes : ∀ h, b.bytes h = .error .released
  read : ∀ h offset size, ∃ e, b.read h offset size = .error e
  write : ∀ offset bytes, ∃ e, a.write b offset bytes = .error e
  fill : ∀ byte, a.fill b byte = .error .released
  still : ∀ act : Clients.Act, (act.apply a b).2 = a ∧ ∀ b', (act.apply a b).1 = some b' → b' = b

theorem Counted.live (h : b.Counted) (hSound : a.Sound g (b.holding ++ others))
    (hOwner : b.owner = a.id) (hCount : b.refCount ≠ 0) : b.Live a where
  last hLast caller := by
    obtain ⟨block, hBlock⟩ := h.exists_block hCount
    rw [Buffer.holding_some hBlock] at hSound
    obtain ⟨hDone, -, -⟩ := hSound.freeBlock caller
    refine ⟨block, hBlock, ?_⟩
    simp [Allocator.drop, BlockSource.drop, hLast, BlockSource.deallocate, hBlock,
      Allocator.source, hDone, Except.mapError, Except.map]
  more count hMore caller := by simp only [Allocator.drop, BlockSource.drop, hMore]
  release caller := if_neg (not_not_intro hOwner)
  retain hRoom := retain_of_lt hCount hRoom
  full hFull := retain_full hFull

/-- With the last reference goes the block, and whatever is asked of the buffer then is refused. -/
theorem Counted.spent (h : b.Counted) (hOwner : b.owner = a.id) (hCount : b.refCount = 0) :
    b.Spent a := by
  have hBlock : b.block = none := h.block.mpr hCount
  have hDrop (caller : Caller) : a.drop caller b = (.error (.illegalRefCount 0), b, a) := by
    simp only [Allocator.drop, BlockSource.drop, hCount]
  have hRelease (caller : Caller) :
      a.release caller b = (.error (.illegalRefCount 0), b, a) :=
    (if_neg (not_not_intro hOwner)).trans (hDrop caller)
  have hReallocate (caller : Caller) (capacity : Nat) :
      a.reallocate caller b capacity = (.error .released, b, a) :=
    (if_neg (not_not_intro hOwner)).trans (if_pos (by rw [isReleased, hBlock]; rfl))
  have hWrite (offset : Nat) (bytes : Array UInt8) :
      ∃ e, a.write b offset bytes = .error e := by
    cases hWritten : b.write a.heap offset bytes with
    | error e => exact ⟨e, congrArg (Except.map _) hWritten⟩
    | ok heap => exact absurd hWritten (write_ne_ok hBlock)
  have hFill (byte : UInt8) : a.fill b byte = .error .released := by
    simp [Allocator.fill, BlockSource.fill, Buffer.fill, window_released hBlock, bind, Except.bind,
      Except.map]
  -- and an act leaves buffer and allocator as they are
  refine ⟨hBlock, hDrop, hRelease, retain_spent hCount, hReallocate, fun h => ?_,
    fun h => read_released hBlock h, hWrite, hFill, fun act => ?_⟩
  · simp [Buffer.bytes, window_released hBlock, bind, Except.bind]
  · unfold Clients.Act.apply
    cases act with
    | write offset bytes =>
      obtain ⟨e, hError⟩ := hWrite offset bytes
      rw [Allocator.write] at hError
      simp [BlockSource.apply, hError, Except.toOption]
    | fill byte =>
      have hError := hFill byte
      rw [Allocator.fill] at hError
      simp [BlockSource.apply, hError, Except.toOption]
    | retain => simp [BlockSource.apply, retain_spent hCount, Except.toOption]
    | drop caller =>
      have hError := hDrop caller
      rw [Allocator.drop] at hError
      simp [BlockSource.apply, hError]
    | release caller =>
      have hError := hRelease caller
      rw [Allocator.release] at hError
      simp [BlockSource.apply, hError]
    | discard caller =>
      simp [BlockSource.apply, BlockSource.discard, BlockSource.deallocate, hBlock]
    | reallocate caller capacity =>
      have hError := hReallocate caller capacity
      rw [Allocator.reallocate] at hError
      simp [BlockSource.apply, hError]

end Buffer

-- ---------------------------------------------------------------------------
-- What an act does to the count
-- ---------------------------------------------------------------------------

namespace Clients

variable {n n' : Noted} {b? : Option Buffer} {others : List (Nat × Block)} {act : Act}

/-- Whether an act adds a reference. -/
def Act.retains (b : Buffer) : Act → Bool
  | .retain => b.retain.isOk
  | _ => false

/-- Whether an act drops one. -/
def Act.releases (a : Allocator) (b : Buffer) : Act → Bool
  | .drop caller => (a.drop caller b).1.isOk
  | .release caller => (a.release caller b).1.isOk
  | _ => false

/-- An act changes the count as its answer says. If every block that came out for the buffer was
handed back, but for the one that it has, this is so afterwards too. -/
structure Act.Passes (act : Act) (n : Noted) (b : Buffer) (b? : Option Buffer) (n' : Noted) :
    Prop where
  grows : n.taken <+: n'.taken
  returned : n.taken = n.returned ++ b.holding → n'.taken = n'.returned ++ holdingOf b?
  owner : ∀ b', b? = some b' → b'.owner = b.owner
  counted : ∀ b', b? = some b' → b'.Counted
  count : ∀ b', b? = some b' → b'.refCount + (act.releases n.allocator b).toNat =
    b.refCount + (act.retains b).toNat

/-- The buffer is one with the same count and block, and nothing is noted. -/
theorem Act.passes_of_same (hCounted : b.Counted)
    (hNotes : n'.taken = n.taken ∧ n'.returned = n.returned) (hHolding : b'.holding = b.holding)
    (hOwner : b'.owner = b.owner) (hBlock : b'.block = none ↔ b.block = none)
    (hCount : b'.refCount = b.refCount) (hReleases : act.releases n.allocator b = false)
    (hRetains : act.retains b = false) : act.Passes n b (some b') n' where
  grows := hNotes.1 ▸ List.prefix_rfl
  returned hBefore := by
    rw [hNotes.1, hNotes.2, hBefore]
    exact congrArg _ hHolding.symm
  owner found hFound := Option.some.inj hFound ▸ hOwner
  counted found hFound := Option.some.inj hFound ▸ hCounted.of_same hBlock hCount
  count found hFound := by
    rw [← Option.some.inj hFound, hReleases, hRetains, hCount]

theorem Act.passes_retain (hCounted : b.Counted) (n : Noted) :
    Act.retain.Passes n b (some (b.retain.toOption.getD b)) n := by
  cases hRetain : b.retain with
  | error e =>
    exact passes_of_same hCounted ⟨rfl, rfl⟩ rfl rfl .rfl rfl rfl
      (by simp [Act.retains, hRetain, Except.isOk, Except.toBool])
  | ok b' =>
    obtain ⟨rfl, hAfter⟩ := hCounted.retain hRetain
    refine ⟨List.prefix_rfl, id, ?_, ?_, ?_⟩ <;> rintro found ⟨⟩
    · rfl
    · exact hAfter
    · simp [Act.retains, Act.releases, hRetain, Except.isOk, Except.toBool, Except.toOption]

/-- What comes of a reference that is dropped, for every act whose answer is that of the drop. -/
theorem Act.passes_drop (h : n.allocator.Sound g (b.holding ++ others)) (hCounted : b.Counted)
    (hReleases : act.releases n.allocator b = (n.allocator.drop caller b).1.isOk)
    (hRetains : act.retains b = false) :
    act.Passes n b (some (Noted.source.drop n caller b).2.1)
      (Noted.source.drop n caller b).2.2 := by
  rw [n.allocator_drop] at hReleases
  have hDropping := Noted.dropping_drop h hCounted caller
  generalize Noted.source.drop n caller b = outcome at hDropping hReleases
  -- refused, the last reference or one of several
  cases hDropping with
  | spent hSpent =>
    exact passes_of_same hCounted ⟨rfl, rfl⟩ rfl rfl .rfl rfl hReleases hRetains
  | last hLast hBlock hFree =>
    refine ⟨List.prefix_rfl, fun hBefore => ?_, ?_, ?_, ?_⟩
    · rw [Buffer.holding_some hBlock] at hBefore
      exact hBefore.trans (List.append_nil _).symm
    all_goals rintro found ⟨⟩
    · rfl
    · exact ⟨by simp, Nat.zero_le _⟩
    · rw [hReleases, hRetains, hLast]
      rfl
  | more hMore =>
    refine ⟨List.prefix_rfl, id, ?_, ?_, ?_⟩ <;> rintro found ⟨⟩
    · rfl
    · have hWord := hCounted.word
      exact ⟨by simp [hCounted.block, hMore], by dsimp only; omega⟩
    · rw [hReleases, hRetains, hMore]
      rfl

/-- A buffer with another capacity has the count it had, and its new block if it moved. -/
theorem Act.passes_reallocate (h : n.allocator.Sound g (b.holding ++ others)) (hFits : b.Fits)
    (hCounted : b.Counted) (caller : Caller) (capacity : Nat) :
    (Act.reallocate caller capacity).Passes n b
      (some (Noted.source.reallocate n caller b capacity).2.1)
      (Noted.source.reallocate n caller b capacity).2.2 := by
  have hResizing := Noted.source_follows.resizing h hFits caller capacity
  generalize Noted.source.reallocate n caller b capacity = outcome at hResizing
  -- only a move takes a block and gives one back, in this order
  cases hResizing with
  | @moves hOwner old hBlock hLimit hPlace p hOk hFree bytes hRead heap hWrite =>
    have hTaken : n.taken ++ (n.allocator.allocateBlock caller capacity).1.toOption.toList =
        n.taken ++ [p] := by
      rw [show (n.allocator.allocateBlock caller capacity).1 = .ok p from hOk]
      rfl
    refine ⟨List.prefix_append _ _, fun hBefore => ?_, ?_, ?_, ?_⟩
    · rw [Buffer.holding_some hBlock] at hBefore
      exact hTaken.trans (congrArg (· ++ [p]) hBefore)
    all_goals rintro found ⟨⟩
    · rfl
    · exact hCounted.of_same (by simp [Buffer.movedInto, hBlock]) rfl
    · rfl
  | @refused hOwner block hBlock hLimit hPlace cause hError =>
    have hTaken : n.taken ++ (n.allocator.allocateBlock caller capacity).1.toOption.toList =
        n.taken := by
      rw [show (n.allocator.allocateBlock caller capacity).1 = .error cause from hError]
      exact List.append_nil _
    exact passes_of_same hCounted ⟨hTaken, rfl⟩ rfl rfl .rfl rfl rfl rfl
  | _ => exact passes_of_same hCounted ⟨rfl, rfl⟩ rfl rfl .rfl rfl rfl rfl

/-- Every act changes the count as its answer says, through the allocator that owes the block. -/
theorem Act.passes_apply (act : Act) (h : n.allocator.Sound g (b.holding ++ others))
    (hFits : b.Fits) (hCounted : b.Counted) :
    act.Passes n b (Noted.source.apply n b act).1 (Noted.source.apply n b act).2 := by
  cases act with
  | write offset bytes =>
    exact passes_of_same hCounted (n.put_notes _) rfl rfl .rfl rfl rfl rfl
  | fill byte => exact passes_of_same hCounted (n.put_notes _) rfl rfl .rfl rfl rfl rfl
  | retain => exact passes_retain hCounted n
  | drop caller => exact passes_drop h hCounted rfl rfl
  | release caller =>
    -- a release is a drop, for the own allocator
    by_cases hOwner : b.owner = n.allocator.id
    · have hDrop : Noted.source.release n caller b = Noted.source.drop n caller b :=
        if_neg (not_not_intro hOwner)
      rw [BlockSource.apply, hDrop]
      refine passes_drop h hCounted ?_ rfl
      exact congrArg (fun r => r.1.isOk)
        (show n.allocator.release caller b = n.allocator.drop caller b from
          if_neg (not_not_intro hOwner))
    · have hRefused : Noted.source.release n caller b = (.error .foreignAllocator, b, n) :=
        if_pos hOwner
      rw [BlockSource.apply, hRefused]
      refine passes_of_same hCounted ⟨rfl, rfl⟩ rfl rfl .rfl rfl ?_ rfl
      exact congrArg (fun r => r.1.isOk)
        (show n.allocator.release caller b = (.error .foreignAllocator, b, n.allocator) from
          if_pos hOwner)
  | discard caller =>
    obtain ⟨hTaken, hReturned, -⟩ := n.deallocate_notes caller b
    refine ⟨hTaken.symm ▸ List.prefix_rfl, fun hBefore => ?_, ?_, ?_, ?_⟩
    · show (Noted.source.deallocate n caller b).2.2.taken =
        (Noted.source.deallocate n caller b).2.2.returned ++ []
      rw [hTaken, hReturned, hBefore, List.append_nil]
    all_goals exact fun found hFound => absurd hFound (by simp [BlockSource.apply])
  | reallocate caller capacity => exact passes_reallocate h hFits hCounted caller capacity

end Clients

end BlockPool
