import BlockPool.Proofs.Arena.Answers
import BlockPool.Proofs.Buffer.Noting
import BlockPool.Proofs.Buffer.Parked

/-!
# BlockPool — another capacity for a buffer

A buffer that gets another capacity keeps its block where that serves the new capacity too. If not
it gets a new block, its bytes are copied and the old block goes back: it is parked in the cache of
the caller, or its arena has it back and owes it no more. Whatever is refused is refused before
anything of the buffer has changed, and only an arena that is refused memory can stand in the way of
a capacity that the buffer may have.

* `Arena.RefusedMemory` — the memory that was asked for last was refused.
* `Buffer.Keeps` — the bytes that stay.
* `Clients.Resized`, `Clients.Refused` — what was done, or why nothing was.
* `Clients.run_reallocate_exact` — so for every buffer, in every state.
-/

namespace BlockPool

variable {g : Geometry} {b b' : Buffer} {block : Block} {caller : Caller} {capacity : Nat}

-- ---------------------------------------------------------------------------
-- No memory
-- ---------------------------------------------------------------------------

namespace Arena

variable {a : Arena} {c : Cache} {rest : List Block} {request : Nat} {e : ArenaError}

/-- The memory that was asked for last, for a block of a size, was refused. -/
def RefusedMemory (a : Arena) (size : Nat) (cause : RegionError) : Prop :=
  ∃ number, a.requests = number + 1 ∧
    Region.allocate (a.supply number) number size (max a.geometry.alignment 1) = .error cause

/-- An arena has no block only if it was refused memory for one. -/
theorem Sound.refusedMemory_allocate (h : a.Sound) (hError : (a.allocate request).1 = .error e) :
    ∃ cause, e = .region cause ∧
      (a.allocate request).2.RefusedMemory (a.geometry.normalize request) cause := by
  by_cases hZero : a.geometry.normalize request = 0
  · rw [allocate, if_pos hZero] at hError
    exact absurd hError (by simp)
  · have hSize := (a.geometry.normalize_cases h.geometry request).resolve_left hZero
    have hServing := h.serving_allocateClass hSize
    rw [← allocate_of_pos hZero] at hServing
    obtain ⟨number, cause, rfl, hRefused, hAfter⟩ := hServing.refused e hError
    rw [hAfter]
    exact ⟨cause, rfl, number, rfl, hRefused⟩

theorem Behind.refusedMemory_allocateCached (h : a.Behind g c rest)
    (hError : (a.allocateCached c request).1 = .error e) : ∃ cause, e = .region cause ∧
      (a.allocateCached c request).2.2.RefusedMemory (g.normalize request) cause := by
  obtain rfl := h.geometry
  by_cases hPast : a.geometry.normalize request = 0 ∨
      a.geometry.sizeClass (a.geometry.normalize request) = .huge
  · rw [allocateCached_past hPast] at hError ⊢
    exact h.arena.refusedMemory_allocate hError
  · obtain ⟨hPos, hSmall⟩ := not_or.mp hPast
    obtain ⟨hBehind, -⟩ := h.take (h.wellFormed.carved_of_class hPos hSmall) rfl
    rw [allocateCached_via hPos rfl hSmall] at hError ⊢
    split at hError
    · exact absurd hError (by simp)
    · rename_i hTake
      rw [hTake] at hBehind
      rw [← hBehind.geometry]
      exact hBehind.arena.refusedMemory_allocate hError

end Arena

namespace Allocator

variable {a : Allocator} {held others : List (Nat × Block)} {q : Nat × Block} {e : ArenaError}

theorem eq_error_of_map {α β : Type} {result : Except ArenaError α} {f : α → β}
    (h : result.map f = .error e) : result = .error e := by
  cases result with
  | error cause => simpa [Except.map] using h
  | ok value => simp [Except.map] at h

/-- One of the arenas was refused memory for a block of a size. -/
def RefusedMemory (a : Allocator) (size : Nat) (cause : RegionError) : Prop :=
  ∃ i < a.arenas.size, (a.arenaAt i).RefusedMemory size cause

/-- No block comes out only if memory was refused. -/
theorem Sound.refusedMemory_allocateBlock (h : a.Sound g held)
    (hError : (a.allocateBlock caller capacity).1 = .error e) : ∃ cause, e = .region cause ∧
      (a.allocateBlock caller capacity).2.RefusedMemory (g.normalize capacity) cause := by
  cases caller with
  | thread thread =>
    obtain ⟨hSound, hCache, -⟩ := h.ensureCache thread
    obtain ⟨before, after, hCaches, -⟩ := exists_caches hSound.threads hCache
    obtain ⟨hIndex, hFront⟩ := hSound.behind hCaches
    set bound := (a.ensureCache thread).2
    set served := (a.ensureCache thread).1
    have hAsked : ((served.arenaAt bound.arena).allocateCached bound.cache capacity).1 =
        .error e := eq_error_of_map hError
    -- the cache had no block either, so the arena was asked
    obtain ⟨cause, hCause, hRefused⟩ := hFront.refusedMemory_allocateCached hAsked
    refine ⟨cause, hCause, bound.arena, ?_, ?_⟩
    · exact (size_setArena ..).symm ▸ hIndex
    · have hAfter := arenaAt_setArena served hIndex
        ((served.arenaAt bound.arena).allocateCached bound.cache capacity).2.2 bound.arena
      rw [if_pos rfl] at hAfter
      exact hAfter.symm ▸ hRefused
  | exiting =>
    have hIndex := h.leastUsed_lt
    obtain ⟨hGeometry, hArena, -⟩ := h.arena _ hIndex
    have hAsked : ((a.arenaAt a.leastUsed).allocate capacity).1 = .error e :=
      eq_error_of_map hError
    obtain ⟨cause, hCause, hRefused⟩ := hArena.refusedMemory_allocate hAsked
    refine ⟨cause, hCause, a.leastUsed, ?_, ?_⟩
    · exact (size_setArena ..).symm ▸ hIndex
    · have hAfter := arenaAt_setArena a hIndex ((a.arenaAt a.leastUsed).allocate capacity).2
        a.leastUsed
      rw [if_pos rfl] at hAfter
      rw [hGeometry] at hRefused
      exact hAfter.symm ▸ hRefused

/-- The block of a buffer is disjoint from those that are parked. -/
theorem Sound.apart_parked (h : a.Sound g (b.holding ++ others)) (hBlock : b.block = some block)
    (hq : q ∈ parkedIn a.caches) : b.arena ≠ q.1 ∨ block.Disjoint q.2 := by
  rw [Buffer.holding_some hBlock] at h
  by_cases hArena : b.arena = q.1
  · obtain ⟨-, hSound, hOwes⟩ := h.arena b.arena (h.places _ List.mem_cons_self)
    have hPerm : (parkedIn a.caches ++ (b.arena, block) :: others).Perm
        ((b.arena, block) :: (b.arena, q.2) :: ((parkedIn a.caches).erase q ++ others)) := by
      have hPair : q = (b.arena, q.2) := by rw [hArena]
      rw [← hPair]
      exact ((List.perm_cons_erase hq).append_right _).trans List.perm_middle
    have hOwed := hOwes.perm (inArena_perm b.arena hPerm)
    rw [inArena_cons_self, inArena_cons_self] at hOwed
    exact .inr (hSound.disjoint hOwed)
  · exact .inl hArena

end Allocator

-- ---------------------------------------------------------------------------
-- Bytes that stay
-- ---------------------------------------------------------------------------

/-- The bytes of a buffer, in two states of the memory: as many as the capacities say, and the same
up to the smaller one. -/
def Buffer.Keeps (b : Buffer) (h : Heap) (b' : Buffer) (h' : Heap) : Prop :=
  ∃ before after, b.bytes h = .ok before ∧ b'.bytes h' = .ok after ∧ before.size = b.capacity ∧
    after.size = b'.capacity ∧ ∀ k < min b.capacity b'.capacity, after[k]? = before[k]?

/-- Two buffers whose windows show the same byte at each offset below both capacities. -/
theorem Buffer.Uses.keeps {block' : Block} {h h' : Heap} (hUses : b.Uses block)
    (hUses' : b'.Uses block')
    (hSame : ∀ k < min b.capacity b'.capacity,
      (h'.contents b'.arena block'.region.id).byteAt (block'.offset + k) =
        (h.contents b.arena block.region.id).byteAt (block.offset + k)) : b.Keeps h b' h' := by
  refine ⟨_, _, hUses.bytes_eq h, hUses'.bytes_eq h', Contents.size_read .., Contents.size_read ..,
    fun k hk => ?_⟩
  rw [Array.getElem?_eq_getElem (by rw [Contents.size_read]; omega),
    Array.getElem?_eq_getElem (by rw [Contents.size_read]; omega), Contents.getElem_read,
    Contents.getElem_read, hSame k hk]

/-- What was read of one buffer and written into another one stands at the same place there. -/
theorem Buffer.Uses.keeps_of_copied {block' : Block} {h h' : Heap} {bytes : Array UInt8}
    (hUses : b.Uses block) (hUses' : b'.Uses block')
    (hRead : b.read h 0 (min b.capacity b'.capacity) = .ok bytes)
    (hWrite : b'.write h 0 bytes = .ok h') : b.Keeps h b' h' := by
  rw [hUses.read_eq h (by omega)] at hRead
  obtain rfl := Except.ok.inj hRead
  rw [hUses'.write_eq h (by rw [Contents.size_read]; omega)] at hWrite
  obtain rfl := Except.ok.inj hWrite
  refine hUses.keeps hUses' fun k hk => ?_
  rw [Heap.contents_modify_self, Nat.add_zero,
    Contents.byteAt_write_add (by rw [Contents.size_read]; omega), Contents.getElem_read,
    Nat.add_zero]

/-- An allocator of which nothing is noted yet. -/
def Noted.of (a : Allocator) : Noted := ⟨a, [], []⟩

-- ---------------------------------------------------------------------------
-- In every state
-- ---------------------------------------------------------------------------

namespace Clients

variable {s : Clients} {a' : Allocator} {i : Nat} {e : BufferError}

/-- What is noted while the buffer at a place gets another capacity. -/
def notes (s : Clients) (caller : Caller) (b : Buffer) (capacity : Nat) : Noted :=
  (Noted.source.reallocate (.of s.allocator) caller b capacity).2.2

/-- The buffer is in another block now. The old one was handed back, once and alone, and no one
else has the new one, neither another buffer nor a cache. -/
structure Moved (s : Clients) (config : PoolConfig) (i : Nat) (caller : Caller) (b : Buffer)
    (capacity : Nat) (b' : Buffer) (a' : Allocator) (old new : Block) : Prop where
  left : b.block = some old
  entered : b'.block = some new
  noted : s.notes caller b capacity = ⟨a', [(b'.arena, new)], [(b.arena, old)]⟩
  /-- The old block, of the allocator that had the new one out, is parked now, or it is an arena's
  that has it back. -/
  givenBack : (s.allocator.allocateBlock caller capacity).2.GivesBack config caller
    (b.arena, old) a'
  /-- The arenas owe the new block with what is parked and what the other buffers have, and nothing
  else. -/
  settled : ∀ j < a'.arenas.size, (a'.arenaAt j).Owes (inArena j
    (Allocator.parkedIn a'.caches ++ (b'.arena, new) :: held (s.buffers.set i none)))
  alone : ∀ q ∈ held (s.buffers.set i none) ++ Allocator.parkedIn a'.caches,
    b'.arena ≠ q.1 ∨ new.Disjoint q.2

/-- What a buffer is that was given another capacity. -/
structure Resized (s : Clients) (config : PoolConfig) (i : Nat) (caller : Caller) (b : Buffer)
    (capacity : Nat) (b' : Buffer) (a' : Allocator) : Prop where
  resized : b'.capacity = capacity
  room : capacity ≤ b'.maxLength
  rest : b'.owner = b.owner ∧ b'.maxCapacity = b.maxCapacity ∧ b'.refCount = b.refCount
  bytes : b.Keeps s.allocator.heap b' a'.heap
  block : (b'.arena = b.arena ∧ b'.block = b.block ∧ a' = s.allocator ∧
    s.notes caller b capacity = .of a') ∨
      ∃ old new, s.Moved config i caller b capacity b' a' old new

/-- The reasons to refuse a buffer another capacity, in the order in which they are looked for. -/
inductive Reason (g : Geometry) (a a' : Allocator) (b : Buffer) (capacity : Nat) :
    BufferError → Prop where
  | foreign (hOwner : b.owner ≠ a.id) : Reason g a a' b capacity .foreignAllocator
  | released (hOwner : b.owner = a.id) (hReleased : b.isReleased = true) :
      Reason g a a' b capacity .released
  | beyond (hOwner : b.owner = a.id) (hLive : b.isReleased = false)
      (hLimit : b.maxCapacity < capacity) :
      Reason g a a' b capacity (.alloc (.capacity capacity b.maxCapacity))
  | memory (hOwner : b.owner = a.id) (hLive : b.isReleased = false)
      (hLimit : capacity ≤ b.maxCapacity) {cause : RegionError}
      (hRefused : a'.RefusedMemory (g.normalize capacity) cause) :
      Reason g a a' b capacity (.alloc (.arena (.region cause)))

/-- A buffer that was refused another capacity is what it was, and so are the bytes of all
buffers. -/
structure Refused (s : Clients) (g : Geometry) (b : Buffer) (capacity : Nat) (e : BufferError)
    (b' : Buffer) (a' : Allocator) : Prop where
  buffer : b' = b
  heap : a'.heap = s.allocator.heap
  bytes : b'.bytes a'.heap = b.bytes s.allocator.heap
  reason : Reason g s.allocator a' b capacity e

/-- An error with a reason, and bytes that stay, is all that a refusal says. -/
theorem refused_of_heap {given : Prop} (hHeap : a'.heap = s.allocator.heap) {capacity : Nat}
    (hReason : Reason g s.allocator a' b capacity e) :
    ((.error e : Except BufferError Unit) = .ok () → given) ∧
      ∀ e', (.error e : Except BufferError Unit) = .error e' →
        s.Refused g b capacity e' b a' := by
  refine ⟨by simp, fun e' hError => ?_⟩
  obtain rfl := Except.error.inj hError
  exact ⟨rfl, hHeap, by rw [hHeap], hReason⟩

/-- A buffer that moves gives its old block back, and the arenas owe the new one in its place. -/
theorem Sound.moved {config : PoolConfig} (h : s.Sound config.geometry)
    (hFit : s.allocator.Fitted config (held s.buffers)) (hAt : s.bufferAt? i = some b)
    {old : Block} (hBlock : b.block = some old) {p : Nat × Block}
    (hOk : (s.allocator.allocateBlock caller capacity).1 = .ok p) (heap : Heap)
    (hNotes : s.notes caller b capacity =
      ⟨{ ((s.allocator.allocateBlock caller capacity).2.freeBlock caller b.arena old).2 with heap },
        [p], [(b.arena, old)]⟩) :
    s.Moved config i caller b capacity (b.movedInto p capacity)
      { ((s.allocator.allocateBlock caller capacity).2.freeBlock caller b.arena old).2 with heap }
      old p.2 := by
  have hSound := h.allocator.perm (held_perm hAt)
  have hAsked := hSound.asked hBlock hOk
  have hBack := hAsked.givesBack_freeBlock
    (fitted_asked hSound (hFit.perm (held_perm hAt)) hBlock hOk) caller
  obtain ⟨-, hFreed, -, -⟩ := hSound.moved hBlock hOk
  refine ⟨hBlock, rfl, hNotes, hBack.setHeap heap, fun j hj => (hFreed.arena j hj).2.2,
    fun q hq => ?_⟩
  rcases List.mem_append.mp hq with hOther | hParked
  · exact Allocator.Sound.apart (b := b.movedInto p capacity) hFreed rfl hOther
  · exact Allocator.Sound.apart_parked (b := b.movedInto p capacity) hFreed rfl hParked

/-- A buffer is given the capacity, or is refused it and is as it was. -/
theorem Sound.reallocate {config : PoolConfig} (h : s.Sound config.geometry)
    (hFit : s.allocator.Fitted config (held s.buffers)) (hAt : s.bufferAt? i = some b)
    {result : Except BufferError Unit}
    (hResult : s.allocator.reallocate caller b capacity = (result, b', a')) :
    (result = .ok () → s.Resized config i caller b capacity b' a') ∧
      ∀ e, result = .error e → s.Refused config.geometry b capacity e b' a' := by
  have hSound := h.allocator.perm (held_perm hAt)
  have hFits := h.fits i b hAt
  have hTurns := hSound.turns_reallocate hFits caller capacity
  -- the notes follow the allocator, so the resizing may be told by them
  have hNoted := (Noted.of s.allocator).allocator_reallocate caller b capacity
  have hOutcome := Noted.source_follows.resizing (n := .of s.allocator) hSound hFits caller capacity
  have hNotes : s.notes caller b capacity =
      (Noted.source.reallocate (.of s.allocator) caller b capacity).2.2 := rfl
  change s.allocator.reallocate caller b capacity = _ at hNoted
  rw [hNoted] at hResult hTurns
  rcases hRun : Noted.source.reallocate (.of s.allocator) caller b capacity with ⟨outcome, bₙ, n⟩
  rw [hRun] at hOutcome hResult hTurns hNotes
  obtain ⟨rfl, rfl, rfl⟩ : outcome = result ∧ bₙ = b' ∧ n.allocator = a' := by
    simpa [BlockSource.across] using hResult
  have hLive {block : Block} (hBlock : b.block = some block) : b.isReleased = false := by
    rw [Buffer.isReleased, hBlock]
    rfl
  cases hOutcome with
  | foreign hOwner =>
    exact refused_of_heap rfl (.foreign hOwner)
  | released hOwner hBlock =>
    exact refused_of_heap rfl (.released hOwner (by rw [Buffer.isReleased, hBlock]; rfl))
  | beyond hOwner hBlock hLimit =>
    exact refused_of_heap rfl (.beyond hOwner (hLive hBlock) hLimit)
  | refused hOwner hBlock hLimit hPlace hError =>
    obtain ⟨cause, rfl, hRefused⟩ := hSound.refusedMemory_allocateBlock hError
    exact refused_of_heap (hSound.allocateBlock caller capacity).2.1
      (.memory hOwner (hLive hBlock) hLimit hRefused)
  | inPlace hOwner hBlock hLimit hPlace =>
    refine ⟨fun _ => ?_, by simp⟩
    have hUses := hSound.uses hFits hBlock
    have hUses' := Allocator.Sound.uses (b := { b with capacity }) hTurns.sound hTurns.fits hBlock
    refine ⟨rfl, ?_, ⟨rfl, rfl, rfl⟩, hUses.keeps hUses' fun _ _ => rfl,
      .inl ⟨rfl, rfl, rfl, hNotes⟩⟩
    show capacity ≤ Buffer.maxLength { b with capacity }
    simp only [Buffer.maxLength, hBlock]
    exact hUses'.fits
  | moves hOwner hBlock hLimit hPlace hOk hFree hRead hWrite =>
    rename_i old p bytes heap
    refine ⟨fun _ => ?_, by simp⟩
    have hUses := hSound.uses hFits hBlock
    have hUses' := Allocator.Sound.uses (b := b.movedInto p capacity) hTurns.sound hTurns.fits rfl
    have hAsked : (s.allocator.allocateBlock caller capacity).1 = .ok p := hOk
    refine ⟨rfl, hUses'.fits, ⟨rfl, rfl, rfl⟩, hUses.keeps_of_copied hUses' hRead hWrite,
      .inr ⟨old, p.2, h.moved hFit hAt hBlock hAsked heap (hNotes.trans ?_)⟩⟩
    -- of the request, only the block that came out is noted
    have hTaken : (Noted.of s.allocator).taken ++
        (s.allocator.allocateBlock caller capacity).1.toOption.toList = [p] := by
      rw [hAsked]
      rfl
    exact congrArg (fun taken => Noted.mk _ taken _) hTaken

/-- In every state, a buffer that is to have another capacity gets it and keeps its bytes, or is
refused for one of four reasons and stays what it is. If it moves, its old block is parked once, or
its arena has it back, and the arenas owe the new block in its place. The buffer of another
allocator is always refused. -/
theorem run_reallocate_exact (id : Nat) (config : PoolConfig) (hg : config.geometry.WellFormed)
    (supply : Nat → Supply) (ops : List Op) :
    let s := (start id config supply).run ops
    (∀ i b, s.bufferAt? i = some b → ∀ caller capacity result b' a',
      s.allocator.reallocate caller b capacity = (result, b', a') →
        (result = .ok () → s.Resized config i caller b capacity b' a') ∧
          ∀ e, result = .error e → s.Refused config.geometry b capacity e b' a') ∧
    ∀ b, b.owner ≠ s.allocator.id → ∀ caller capacity,
      s.allocator.reallocate caller b capacity = (.error .foreignAllocator, b, s.allocator) := by
  intro s
  have hStart := sound_start id hg supply
  have hSound : s.Sound config.geometry := hStart.run hg ops
  have hFit : s.allocator.Fitted config (held s.buffers) :=
    hStart.fitted_run hg (Allocator.fitted_build id config supply) ops
  refine ⟨fun i b hAt caller capacity result b' a' hResult => hSound.reallocate hFit hAt hResult,
    fun b hForeign caller capacity => ?_⟩
  exact if_pos hForeign

/-- A buffer of one slot that grows to two pages, by another thread, and one that may not grow so
far. -/
theorem run_reallocate_exact_grown :
    (⟨4096, 1, 0⟩ : Geometry).WellFormed ∧ ∃ (s : Clients) (b b' : Buffer) (a' : Allocator),
      s = (start 0 { pageSize := 4096, maxOrder := 1, numArenas := 1 }
        fun _ _ => Provider.below (2 ^ 20)).run [.allocate (.thread 0) 40 10000,
          .act 0 (.fill 7)] ∧
      s.bufferAt? 0 = some b ∧
      s.allocator.reallocate (.thread 1) b 5000 = (.ok (), b', a') ∧
      s.Resized { pageSize := 4096, maxOrder := 1, numArenas := 1 } 0 (.thread 1) b 5000 b' a' ∧
      s.Refused ⟨4096, 1, 0⟩ b 10001 (.alloc (.capacity 10001 10000)) b s.allocator ∧
      s.allocator.reallocate (.thread 1) { b with owner := 1 } 5000 =
        (.error .foreignAllocator, { b with owner := 1 }, s.allocator) := by
  obtain ⟨hOwn, hForeign⟩ := run_reallocate_exact 0
    { pageSize := 4096, maxOrder := 1, numArenas := 1 } Geometry.wellFormed_two_pages
    (fun _ _ => Provider.below (2 ^ 20)) [.allocate (.thread 0) 40 10000, .act 0 (.fill 7)]
  set s := (start 0 { pageSize := 4096, maxOrder := 1, numArenas := 1 }
    fun _ _ => Provider.below (2 ^ 20)).run [.allocate (.thread 0) 40 10000, .act 0 (.fill 7)]
    with hs
  have hStart : (s.bufferAt? 0).map (fun b => (b.owner, b.isReleased, b.maxCapacity,
      (s.allocator.reallocate (.thread 1) b 5000).1.isOk)) = some (0, false, 10000, true) := by
    rw [hs]
    decide +kernel
  have hId : s.allocator.id = 0 := by
    rw [hs]
    decide +kernel
  obtain ⟨b, hAt, hState⟩ := Option.map_eq_some_iff.mp hStart
  simp only [Prod.mk.injEq] at hState
  obtain ⟨hOwner, hLive, hLimit, hOk⟩ := hState
  rcases hRun : s.allocator.reallocate (.thread 1) b 5000 with ⟨result, b', a'⟩
  rw [hRun] at hOk
  obtain rfl : result = .ok () := by
    cases result with
    | error e => exact absurd hOk (by simp [Except.isOk, Except.toBool])
    | ok value => rfl
  -- past its limit the buffer is refused before anything is asked for
  have hBeyond : s.allocator.reallocate (.thread 1) b 10001 =
      (.error (.alloc (.capacity 10001 10000)), b, s.allocator) := by
    have hOwn' : ¬ b.owner ≠ Allocator.source.id s.allocator := by
      rw [hOwner]
      exact not_not_intro hId.symm
    rw [Allocator.reallocate, BlockSource.reallocate, if_neg hOwn', if_neg (by rw [hLive]; simp),
      if_pos (by rw [hLimit]; decide), hLimit]
  exact ⟨Geometry.wellFormed_two_pages, s, b, b', a', rfl, hAt, hRun,
    (hOwn 0 b hAt (.thread 1) 5000 _ b' a' hRun).1 rfl,
    (hOwn 0 b hAt (.thread 1) 10001 _ b s.allocator hBeyond).2 _ rfl,
    hForeign { b with owner := 1 } (by rw [hId]; exact Nat.one_ne_zero) (.thread 1) 5000⟩

end Clients

end BlockPool
