import BlockPool.Proofs.Buffer.Resizing

/-!
# BlockPool — clients of an allocator

`Clients` is an allocator with the buffers that were allocated from it and not dropped. Any thread
may act on any buffer. What one operation does to the memory stays inside the block of its own
buffer, and the blocks of live buffers are disjoint; so every other buffer keeps its capacity and
its bytes.

* `Clients.run` — the state after a run.
* `Allocator.Turns` — what an operation on one buffer leaves behind.
* `Clients.Sound` — what every run keeps.
* `Clients.run_buffer_isolated` — a live buffer can be read, and only through itself be changed.
-/

namespace BlockPool

variable {g : Geometry} {b b' : Buffer} {block : Block} {caller : Caller}

namespace Allocator

variable {a a' : Allocator} {others held : List (Nat × Block)}

-- ---------------------------------------------------------------------------
-- Operations on one buffer
-- ---------------------------------------------------------------------------

/-- What an operation on one buffer leaves behind: the buffer holds what it holds beside the others,
whose bytes are as they were. -/
structure Turns (a : Allocator) (g : Geometry) (others : List (Nat × Block)) (b' : Buffer)
    (a' : Allocator) : Prop where
  sound : a'.Sound g (b'.holding ++ others)
  fits : b'.Fits
  agree : ∀ q ∈ others, a.heap.Agree a'.heap q

/-- Nothing in the memory changed. -/
theorem turns_of_heap_eq (hSound : a'.Sound g (b'.holding ++ others)) (hFits : b'.Fits)
    (hHeap : a'.heap = a.heap) : a.Turns g others b' a' :=
  ⟨hSound, hFits, fun q _ => hHeap ▸ Heap.Agree.refl a.heap q⟩

theorem Sound.setHeap (h : a.Sound g held) (heap : Heap) :
    ({ a with heap } : Allocator).Sound g held :=
  ⟨h.nonempty, h.arena, h.threads, h.cache, h.places⟩

theorem Sound.turns_deallocate (h : a.Sound g (b.holding ++ others)) (hFits : b.Fits)
    (caller : Caller) :
    a.Turns g others (source.deallocate a caller b).2.1 (source.deallocate a caller b).2.2 := by
  unfold BlockSource.deallocate
  split
  · exact turns_of_heap_eq h hFits rfl
  · rename_i block hBlock
    rw [Buffer.holding_some hBlock] at h
    obtain ⟨-, hSound, hHeap⟩ := h.freeBlock caller
    exact turns_of_heap_eq hSound (fun found hFound => absurd hFound (by simp)) hHeap

theorem Sound.turns_drop (h : a.Sound g (b.holding ++ others)) (hFits : b.Fits) (caller : Caller) :
    a.Turns g others (a.drop caller b).2.1 (a.drop caller b).2.2 := by
  unfold drop BlockSource.drop
  split
  · exact turns_of_heap_eq h hFits rfl
  · have hZero : a.Sound g (({ b with refCount := 0 } : Buffer).holding ++ others) := h
    exact hZero.turns_deallocate hFits caller
  · exact turns_of_heap_eq h hFits rfl

theorem Sound.turns_release (h : a.Sound g (b.holding ++ others)) (hFits : b.Fits)
    (caller : Caller) : a.Turns g others (a.release caller b).2.1 (a.release caller b).2.2 := by
  unfold release BlockSource.release
  split
  · exact turns_of_heap_eq h hFits rfl
  · exact h.turns_drop hFits caller

/-- A buffer that is discarded holds nothing, and the others hold what they held. -/
theorem Sound.discard (h : a.Sound g (b.holding ++ others)) (caller : Caller) :
    (a.discard caller b).Sound g others ∧ (a.discard caller b).heap = a.heap := by
  unfold Allocator.discard BlockSource.discard BlockSource.deallocate
  split
  · rename_i hBlock
    rw [Buffer.holding_none hBlock] at h
    exact ⟨h, rfl⟩
  · rename_i block hBlock
    rw [Buffer.holding_some hBlock] at h
    obtain ⟨-, hSound, hHeap⟩ := h.freeBlock caller
    exact ⟨hSound, hHeap⟩

/-- What is written through a buffer leaves the others as they were. -/
theorem Sound.turns_of_written (h : a.Sound g (b.holding ++ others)) (hFits : b.Fits) {heap : Heap}
    (hWritten : (∃ offset bytes, b.write a.heap offset bytes = .ok heap) ∨
      ∃ byte, b.fill a.heap byte = .ok heap) : a.Turns g others b { a with heap } := by
  refine ⟨h.setHeap heap, hFits, fun q hq => ?_⟩
  cases hBlock : b.block with
  | none =>
    rcases hWritten with ⟨offset, bytes, hWrite⟩ | ⟨byte, hFill⟩
    · exact absurd hWrite (Buffer.write_ne_ok hBlock)
    · exact absurd hFill (Buffer.fill_ne_ok hBlock)
  | some block =>
    have hUses := h.uses hFits hBlock
    have hApart := h.apart hBlock hq
    rcases hWritten with ⟨offset, bytes, hWrite⟩ | ⟨byte, hFill⟩
    · exact hUses.agree_write hWrite hApart
    · exact hUses.agree_fill hFill hApart

/-- What is put into the memory through a buffer, or nothing if it is refused. -/
theorem Sound.turns_put (h : a.Sound g (b.holding ++ others)) (hFits : b.Fits)
    {written : Except BufferError Heap}
    (hWritten : (∃ offset bytes, b.write a.heap offset bytes = written) ∨
      ∃ byte, b.fill a.heap byte = written) :
    a.Turns g others b ((written.map (source.setHeap a)).toOption.getD a) := by
  cases written with
  | error cause => exact turns_of_heap_eq h hFits rfl
  | ok heap => exact h.turns_of_written hFits hWritten

/-- A capacity that is served in place does not exceed the block. -/
theorem fits_of_fitsInPlace (hFits : b.Fits) {capacity : Nat}
    (hPlace : b.fitsInPlace capacity = true) : ({ b with capacity } : Buffer).Fits := by
  intro block hBlock
  have hSome : b.block = some block := hBlock
  have hOld := hFits block hSome
  unfold Buffer.fitsInPlace at hPlace
  simp only [hSome] at hPlace
  show capacity ≤ block.capacity
  split at hPlace
  · have hEq : capacity = b.capacity := by simpa using hPlace
    omega
  · split at hPlace
    · simpa using hPlace
    · omega

/-- Of a buffer that is to have another capacity only a move changes the memory, and that in the new
block, which no one else holds. -/
theorem Sound.turns_reallocate (h : a.Sound g (b.holding ++ others)) (hFits : b.Fits)
    (caller : Caller) (capacity : Nat) :
    a.Turns g others (a.reallocate caller b capacity).2.1 (a.reallocate caller b capacity).2.2 := by
  have hOutcome := (BlockSource.Follows.refl source).resizing h hFits caller capacity
  unfold reallocate
  generalize source.reallocate a caller b capacity = outcome at hOutcome
  cases hOutcome with
  | foreign hOwner => exact turns_of_heap_eq h hFits rfl
  | released hOwner hBlock => exact turns_of_heap_eq h hFits rfl
  | beyond hOwner hBlock hLimit => exact turns_of_heap_eq h hFits rfl
  | inPlace hOwner hBlock hLimit hPlace =>
    exact turns_of_heap_eq h (fits_of_fitsInPlace hFits hPlace) rfl
  | refused hOwner hBlock hLimit hPlace hError =>
    obtain ⟨hSound, hHeap, -⟩ := h.allocateBlock caller capacity
    rw [show (a.allocateBlock caller capacity).1 = _ from hError] at hSound
    exact turns_of_heap_eq hSound hFits hHeap
  | moves hOwner hBlock hLimit hPlace hOk hFree hRead hWrite =>
    obtain ⟨-, hSound, hHeap, hMovedFits⟩ := h.moved hBlock hOk
    rw [show source.heap a = _ from hHeap.symm] at hWrite
    have hTurns := hSound.turns_of_written hMovedFits (.inl ⟨0, _, hWrite⟩)
    exact ⟨hTurns.sound, hTurns.fits, hHeap ▸ hTurns.agree⟩

/-- A new buffer holds its block beside the others. -/
theorem Sound.allocate (h : a.Sound g held) (hg : g.WellFormed) (caller : Caller)
    (capacity limit : Nat) :
    (∀ b, (a.allocate caller capacity limit).1 = .ok b →
      a.Turns g held b (a.allocate caller capacity limit).2) ∧
      ∀ cause, (a.allocate caller capacity limit).1 = .error cause →
        (a.allocate caller capacity limit).2.Sound g held ∧
          (a.allocate caller capacity limit).2.heap = a.heap := by
  obtain ⟨hSound, hHeap, hCapacity⟩ := h.allocateBlock caller capacity
  unfold Allocator.allocate
  split
  · exact ⟨fun b hb => absurd hb (by simp), fun cause _ => ⟨h, rfl⟩⟩
  · split
    · rename_i cause served hAllocate
      rw [hAllocate] at hSound hHeap
      exact ⟨fun b hb => absurd hb (by simp), fun _ _ => ⟨hSound, hHeap⟩⟩
    · rename_i i new served hAllocate
      rw [hAllocate] at hSound hHeap hCapacity
      refine ⟨fun b hb => ?_, fun cause hCause => absurd hCause (by simp)⟩
      obtain rfl := Except.ok.inj hb
      refine turns_of_heap_eq hSound (fun found hFound => ?_) hHeap
      obtain rfl : new = found := Option.some.inj hFound
      exact (hCapacity (i, new) rfl).symm ▸ Geometry.le_normalize hg capacity

end Allocator

/-- An allocator with the buffers that came from it. One that is gone leaves its place empty. -/
structure Clients where
  allocator : Allocator
  buffers : List (Option Buffer)

namespace Clients

/-- What can be done to an allocator and its buffers, which are named by their places. -/
inductive Op where
  | allocate (caller : Caller) (capacity limit : Nat)
  | act (buffer : Nat) (act : Act)
  | trimCache (thread : Nat)
  | exitThread (thread : Nat)

variable {s s' : Clients} {a : Allocator} {b? : Option Buffer} {others : List (Nat × Block)}
  {i j : Nat}

/-- The buffer at a place, unless it is gone. -/
def bufferAt? (s : Clients) (i : Nat) : Option Buffer := s.buffers[i]?.join

/-- The state after one operation. -/
def step (s : Clients) : Op → Clients
  | .allocate caller capacity limit =>
    match s.allocator.allocate caller capacity limit with
    | (.ok b, allocator) => ⟨allocator, s.buffers ++ [some b]⟩
    | (.error _, allocator) => { s with allocator }
  | .act i act =>
    match s.bufferAt? i with
    | none => s
    | some b => ⟨(act.apply s.allocator b).2, s.buffers.set i (act.apply s.allocator b).1⟩
  | .trimCache thread => { s with allocator := (s.allocator.trimCache thread).2 }
  | .exitThread thread => { s with allocator := s.allocator.exitThread thread }

/-- The state after a run. -/
def run (s : Clients) (ops : List Op) : Clients := ops.foldl step s

/-- A new allocator, which no one has a buffer of. -/
def start (id : Nat) (config : PoolConfig) (supply : Nat → Supply) : Clients :=
  ⟨Allocator.build id config supply, []⟩

-- ---------------------------------------------------------------------------
-- What every run keeps
-- ---------------------------------------------------------------------------

/-- The block of a buffer that is not gone. -/
def holdingOf (b? : Option Buffer) : List (Nat × Block) := b?.elim [] Buffer.holding

/-- The blocks of all buffers. -/
def held (buffers : List (Option Buffer)) : List (Nat × Block) := buffers.flatMap holdingOf

/-- The arenas owe what the buffers hold, and no buffer is larger than its block. -/
structure Sound (s : Clients) (g : Geometry) : Prop where
  allocator : s.allocator.Sound g (held s.buffers)
  fits : ∀ i b, s.bufferAt? i = some b → b.Fits

/-- The live buffers of all places but one are as they were, and so are their bytes. -/
def Keeps (s s' : Clients) (but : Nat → Prop) : Prop :=
  ∀ j b block, ¬ but j → s.bufferAt? j = some b → b.block = some block →
    s'.bufferAt? j = some b ∧ s.allocator.heap.Agree s'.allocator.heap (b.arena, block)

/-- What is done to one buffer leaves what others hold as it was. -/
theorem Act.sound_apply (act : Act) (h : a.Sound g (b.holding ++ others)) (hFits : b.Fits) :
    (act.apply a b).2.Sound g (holdingOf (act.apply a b).1 ++ others) ∧
      (∀ b', (act.apply a b).1 = some b' → b'.Fits) ∧
      ∀ q ∈ others, a.heap.Agree (act.apply a b).2.heap q := by
  -- all acts but the last leave a buffer, and are turns
  have hTurns : ∀ {b' a'}, a.Turns g others b' a' → a'.Sound g (holdingOf (some b') ++ others) ∧
      (∀ found, some b' = some found → found.Fits) ∧ ∀ q ∈ others, a.heap.Agree a'.heap q := by
    intro b' a' hTurns
    exact ⟨hTurns.sound, fun found hFound => Option.some.inj hFound ▸ hTurns.fits, hTurns.agree⟩
  have hNothing : a.Turns g others b a := Allocator.turns_of_heap_eq h hFits rfl
  cases act with
  | write offset bytes => exact hTurns (h.turns_put hFits (.inl ⟨offset, bytes, rfl⟩))
  | fill byte => exact hTurns (h.turns_put hFits (.inr ⟨byte, rfl⟩))
  | retain =>
    cases hRetain : b.retain with
    | error cause =>
      simp only [Act.apply, BlockSource.apply, hRetain]
      exact hTurns hNothing
    | ok b' =>
      obtain ⟨count, rfl⟩ := Buffer.exists_of_retain hRetain
      simp only [Act.apply, BlockSource.apply, hRetain]
      exact hTurns (Allocator.turns_of_heap_eq h hFits rfl)
  | drop caller => exact hTurns (h.turns_drop hFits caller)
  | release caller => exact hTurns (h.turns_release hFits caller)
  | discard caller =>
    obtain ⟨hSound, hHeap⟩ := h.discard caller
    refine ⟨hSound, fun b' hb' => ?_, fun q _ => ?_⟩
    · exact absurd hb' (by simp [Act.apply, BlockSource.apply])
    · exact hHeap ▸ Heap.Agree.refl a.heap q
  | reallocate caller capacity => exact hTurns (h.turns_reallocate hFits caller capacity)

theorem sound_start (id : Nat) {config : PoolConfig} (hg : config.geometry.WellFormed)
    (supply : Nat → Supply) : (start id config supply).Sound config.geometry where
  allocator := Allocator.sound_build id hg supply
  fits i b hAt := absurd hAt (by simp [bufferAt?, start])

theorem bufferAt?_eq_some : s.bufferAt? i = some b ↔ s.buffers[i]? = some (some b) := by
  rw [bufferAt?, Option.join_eq_some_iff]

/-- What the buffers hold, but for the one at a place. -/
theorem held_set_perm (h : s.bufferAt? i = some b) (b? : Option Buffer) :
    (held (s.buffers.set i b?)).Perm (holdingOf b? ++ held (s.buffers.set i none)) := by
  have hLt := (List.getElem?_eq_some_iff.mp (bufferAt?_eq_some.mp h)).1
  have hPerm := flatMap_set_perm holdingOf b?
    (show (s.buffers.set i none)[i]? = some none by simp [hLt])
  rwa [List.set_set] at hPerm

theorem held_perm (h : s.bufferAt? i = some b) :
    (held s.buffers).Perm (b.holding ++ held (s.buffers.set i none)) :=
  (flatMap_set_perm holdingOf none (bufferAt?_eq_some.mp h)).symm

theorem mem_held (h : s.bufferAt? i = some b) (hBlock : b.block = some block) :
    (b.arena, block) ∈ held s.buffers := by
  refine List.mem_flatMap.mpr ⟨some b, List.mem_of_getElem? (bufferAt?_eq_some.mp h), ?_⟩
  show (b.arena, block) ∈ b.holding
  rw [Buffer.holding_some hBlock]
  exact List.mem_cons_self

theorem bufferAt?_set_of_ne (hNe : j ≠ i) (s : Clients) (a : Allocator) (b? : Option Buffer) :
    bufferAt? ⟨a, s.buffers.set i b?⟩ j = s.bufferAt? j := by
  rw [bufferAt?, bufferAt?, List.getElem?_set_ne hNe.symm]

theorem bufferAt?_step_act (hAt : s.bufferAt? i = some b) (act : Act) :
    (s.step (.act i act)).bufferAt? i = (act.apply s.allocator b).1 := by
  have hLt := (List.getElem?_eq_some_iff.mp (bufferAt?_eq_some.mp hAt)).1
  unfold Clients.step
  simp only [hAt]
  rw [bufferAt?, List.getElem?_set_self hLt, Option.join_some]

theorem keeps_of_heap_eq {but : Nat → Prop} (hBuffers : ∀ j b, s.bufferAt? j = some b →
    s'.bufferAt? j = some b) (hHeap : s'.allocator.heap = s.allocator.heap) : s.Keeps s' but :=
  fun j b block _ hAt _ => ⟨hBuffers j b hAt, hHeap ▸ Heap.Agree.refl _ (b.arena, block)⟩

/-- What is done to the buffer at one place leaves the buffers at other places as they were. -/
theorem Sound.act (h : s.Sound g) (i : Nat) (act : Act) :
    (s.step (.act i act)).Sound g ∧ s.Keeps (s.step (.act i act)) (· = i) := by
  unfold Clients.step
  dsimp only
  split
  · exact ⟨h, keeps_of_heap_eq (fun _ _ hAt => hAt) rfl⟩
  · rename_i b hAt
    obtain ⟨hSound, hFits, hAgree⟩ :=
      act.sound_apply (h.allocator.perm (held_perm hAt)) (h.fits i b hAt)
    refine ⟨⟨hSound.perm (held_set_perm hAt _).symm, fun j b' hAt' => ?_⟩,
      fun j b' block hNe hAt' hBlock => ?_⟩
    · by_cases hj : j = i
      · subst hj
        have hLt := (List.getElem?_eq_some_iff.mp (bufferAt?_eq_some.mp hAt)).1
        rw [bufferAt?, List.getElem?_set_self hLt] at hAt'
        exact hFits b' hAt'
      · rw [bufferAt?_set_of_ne hj] at hAt'
        exact h.fits j b' hAt'
    · have hOthers : bufferAt? ⟨s.allocator, s.buffers.set i none⟩ j = some b' := by
        rw [bufferAt?_set_of_ne hNe]
        exact hAt'
      rw [bufferAt?_set_of_ne hNe]
      exact ⟨hAt', hAgree _ (mem_held hOthers hBlock)⟩

/-- Every operation keeps the live buffers that it is not about. -/
theorem Sound.step (h : s.Sound g) (hg : g.WellFormed) (op : Op) :
    (s.step op).Sound g ∧ s.Keeps (s.step op) fun i => ∃ act, op = .act i act := by
  cases op with
  | allocate caller capacity limit =>
    obtain ⟨hOk, hError⟩ := h.allocator.allocate hg caller capacity limit
    unfold Clients.step
    dsimp only
    split
    · rename_i b allocator hAllocate
      rw [hAllocate] at hOk
      have hTurns := hOk b rfl
      -- the new buffer comes last, and the places before it are as they were
      have hHeld : held (s.buffers ++ [some b]) = held s.buffers ++ b.holding := by
        rw [held, List.flatMap_append, List.flatMap_singleton]
        rfl
      refine ⟨⟨?_, fun j b' hAt => ?_⟩, fun j b' block _ hAt hBlock => ⟨?_, ?_⟩⟩
      · rw [hHeld]
        exact hTurns.sound.perm List.perm_append_comm
      · rw [bufferAt?_eq_some, List.getElem?_append] at hAt
        split at hAt
        · exact h.fits j b' (bufferAt?_eq_some.mpr hAt)
        · obtain rfl : b = b' := by
            have hMem := List.mem_of_getElem? hAt
            simpa using (List.mem_singleton.mp hMem).symm
          exact hTurns.fits
      · have hLt := (List.getElem?_eq_some_iff.mp (bufferAt?_eq_some.mp hAt)).1
        rw [bufferAt?, List.getElem?_append_left hLt]
        exact hAt
      · exact hTurns.agree _ (mem_held hAt hBlock)
    · rename_i cause allocator hAllocate
      rw [hAllocate] at hError
      obtain ⟨hSound, hHeap⟩ := hError cause rfl
      exact ⟨⟨hSound, h.fits⟩, keeps_of_heap_eq (fun _ _ hAt => hAt) hHeap⟩
  | act i act =>
    obtain ⟨hSound, hKeeps⟩ := h.act i act
    refine ⟨hSound, fun j b block hOther hAt hBlock => hKeeps j b block ?_ hAt hBlock⟩
    rintro rfl
    exact hOther ⟨act, rfl⟩
  | trimCache thread =>
    obtain ⟨hSound, hHeap⟩ := h.allocator.trimCache thread
    exact ⟨⟨hSound, h.fits⟩, keeps_of_heap_eq (fun _ _ hAt => hAt) hHeap⟩
  | exitThread thread =>
    obtain ⟨hSound, hHeap⟩ := h.allocator.exitThread thread
    exact ⟨⟨hSound, h.fits⟩, keeps_of_heap_eq (fun _ _ hAt => hAt) hHeap⟩

theorem Sound.run (h : s.Sound g) (hg : g.WellFormed) (ops : List Op) : (s.run ops).Sound g := by
  induction ops generalizing s with
  | nil => exact h
  | cons op rest ih => exact ih (h.step hg op).1

/-- In every state, a live buffer can be read: as many bytes as its capacity says, which is never
more than its block has. Whatever is done next, to the allocator or to any other buffer, the buffer
stays what it is, and reads the same. -/
theorem run_buffer_isolated (id : Nat) (config : PoolConfig) (hg : config.geometry.WellFormed)
    (supply : Nat → Supply) (ops : List Op) :
    let s := (start id config supply).run ops
    ∀ i b, s.bufferAt? i = some b → b.isReleased = false →
      (∃ bytes, b.bytes s.allocator.heap = .ok bytes ∧ bytes.size = b.capacity) ∧
        b.capacity ≤ b.maxLength ∧
        ∀ op, (∀ act, op ≠ .act i act) →
          (s.step op).bufferAt? i = some b ∧
            b.bytes (s.step op).allocator.heap = b.bytes s.allocator.heap := by
  intro s i b hAt hLive
  have hSound : s.Sound config.geometry := (sound_start id hg supply).run hg ops
  have hFits := hSound.fits i b hAt
  obtain ⟨block, hBlock⟩ : ∃ block, b.block = some block :=
    Option.isSome_iff_exists.mp (by simpa [Buffer.isReleased] using hLive)
  have hUses := (hSound.allocator.perm (held_perm hAt)).uses hFits hBlock
  refine ⟨hUses.exists_bytes _, ?_, fun op hOther => ?_⟩
  · rw [Buffer.maxLength, hBlock]
    exact hUses.fits
  · obtain ⟨-, hKeeps⟩ := hSound.step hg op
    obtain ⟨hStays, hAgree⟩ := hKeeps i b block (not_exists.mpr hOther) hAt hBlock
    exact ⟨hStays, hUses.bytes_of_agree hAgree⟩

/-- Two buffers of one page, the second of which is filled and then moves away. -/
theorem run_buffer_isolated_neighbour :
    (⟨4096, 1, 0⟩ : Geometry).WellFormed ∧ ∃ (s s' : Clients) (b : Buffer),
      s = (start 0 { pageSize := 4096, maxOrder := 1, numArenas := 1 }
        fun _ _ => Provider.below (2 ^ 20)).run [.allocate (.thread 0) 100 1000,
          .allocate (.thread 1) 100 10000, .act 1 (.fill 7)] ∧
      s' = s.step (.act 1 (.reallocate (.thread 0) 5000)) ∧
      s.bufferAt? 0 = some b ∧ b.isReleased = false ∧
      s'.bufferAt? 0 = some b ∧ b.bytes s'.allocator.heap = b.bytes s.allocator.heap := by
  have hIsolated := run_buffer_isolated 0 { pageSize := 4096, maxOrder := 1, numArenas := 1 }
    Geometry.wellFormed_two_pages (fun _ _ => Provider.below (2 ^ 20))
    [.allocate (.thread 0) 100 1000, .allocate (.thread 1) 100 10000, .act 1 (.fill 7)]
  have hLive : (((start 0 { pageSize := 4096, maxOrder := 1, numArenas := 1 }
      fun _ _ => Provider.below (2 ^ 20)).run [.allocate (.thread 0) 100 1000,
        .allocate (.thread 1) 100 10000, .act 1 (.fill 7)]).bufferAt? 0).map (·.isReleased) =
      some false := by decide +kernel
  obtain ⟨b, hAt, hReleased⟩ := Option.map_eq_some_iff.mp hLive
  obtain ⟨-, -, hKept⟩ := hIsolated 0 b hAt hReleased
  obtain ⟨hStays, hBytes⟩ := hKept (.act 1 (.reallocate (.thread 0) 5000)) (by simp)
  exact ⟨Geometry.wellFormed_two_pages, _, _, b, rfl, rfl, hAt, hReleased, hStays, hBytes⟩

end Clients

end BlockPool
