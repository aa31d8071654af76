import BlockPool.Proofs.Buffer.Acts
import BlockPool.Proofs.Buffer.Counted

/-!
# BlockPool — the life of a buffer

A buffer is followed from its allocation to its end, through all that is done to it, to its
allocator and to the other buffers, and through the requests that are made of other allocators. A
ledger is kept of it: the references that were added and dropped, the blocks that came out for it
and those that were handed back.

* `Life` — a buffer among the clients of its allocator, with its ledger.
* `Life.run` — the life so far.
* `Life.Exact` — the ledger balances at every moment, and the buffer answers by it.
* `Life.run_returned_once` — this is so in every life, and its end hands back what is left.
-/

namespace BlockPool

variable {g : Geometry} {id : Nat} {b b' : Buffer} {caller : Caller}

-- ---------------------------------------------------------------------------
-- An allocator stays the one it is
-- ---------------------------------------------------------------------------

namespace Allocator

variable {a : Allocator}

theorem id_ensureCache (a : Allocator) (thread : Nat) : (a.ensureCache thread).1.id = a.id := by
  unfold ensureCache
  split <;> rfl

theorem id_allocateBlock (a : Allocator) (caller : Caller) (capacity : Nat) :
    (a.allocateBlock caller capacity).2.id = a.id := by
  cases caller with
  | thread thread => exact a.id_ensureCache thread
  | exiting => rfl

theorem id_freeBlock (a : Allocator) (caller : Caller) (index : Nat) (block : Block) :
    (a.freeBlock caller index block).2.id = a.id := by
  cases caller with
  | exiting => rfl
  | thread thread =>
    unfold freeBlock
    dsimp only
    split
    · rfl
    · split <;> rfl

theorem id_allocate (a : Allocator) (caller : Caller) (capacity limit : Nat) :
    (a.allocate caller capacity limit).2.id = a.id := by
  have hBlock := a.id_allocateBlock caller capacity
  unfold allocate
  split
  · rfl
  · split <;> rename_i hAllocate <;> rw [hAllocate] at hBlock <;> exact hBlock

theorem id_trimCache (a : Allocator) (thread : Nat) : (a.trimCache thread).2.id = a.id := by
  unfold trimCache
  split <;> rfl

theorem id_exitThread (a : Allocator) (thread : Nat) : (a.exitThread thread).id = a.id := by
  unfold exitThread
  split <;> rfl

end Allocator

namespace Clients

variable {s : Clients} {a a' : Allocator} {b? : Option Buffer} {act : Act} {op : Op} {i : Nat}

theorem Act.Does.id_eq (h : act.Does a b b? a') : a'.id = a.id := by
  cases h with
  | keeps heap hHolding => rfl
  | asks caller capacity hError hHolding => exact a.id_allocateBlock caller capacity
  | returns hReturns hBlock hHolding => exact a.id_freeBlock ..
  | moves heap hReturns hBlock hOk hHolding =>
    exact (Allocator.id_freeBlock ..).trans (a.id_allocateBlock ..)

theorem Sound.id_step (h : s.Sound g) (op : Op) : (s.step op).allocator.id = s.allocator.id := by
  cases op with
  | allocate caller capacity limit =>
    have hAllocate := s.allocator.id_allocate caller capacity limit
    unfold Clients.step
    dsimp only
    split <;> rename_i hAnswer <;> rw [hAnswer] at hAllocate <;> exact hAllocate
  | act i act =>
    unfold Clients.step
    dsimp only
    split
    · rfl
    · rename_i b hAt
      exact (act.does_apply (h.allocator.perm (held_perm hAt)) (h.fits i b hAt)).id_eq
  | trimCache thread => exact s.allocator.id_trimCache thread
  | exitThread thread => exact s.allocator.id_exitThread thread

theorem Sound.id_run (h : s.Sound g) (hg : g.WellFormed) (ops : List Op) :
    (s.run ops).allocator.id = s.allocator.id := by
  induction ops generalizing s with
  | nil => rfl
  | cons op rest ih => exact (ih (h.step hg op).1).trans (h.id_step op)

-- ---------------------------------------------------------------------------
-- A place stays what it is
-- ---------------------------------------------------------------------------

theorem length_le_step (s : Clients) (op : Op) :
    s.buffers.length ≤ (s.step op).buffers.length := by
  cases op with
  | allocate caller capacity limit =>
    unfold Clients.step
    dsimp only
    split
    · simp
    · exact Nat.le_refl _
  | act i act =>
    unfold Clients.step
    dsimp only
    split
    · exact Nat.le_refl _
    · simp
  | trimCache thread => exact Nat.le_refl _
  | exitThread thread => exact Nat.le_refl _

/-- What is done to the allocator or at another place leaves a place as it is. -/
theorem bufferAt?_step (hPlace : i < s.buffers.length) (hOther : ∀ act, op ≠ .act i act) :
    (s.step op).bufferAt? i = s.bufferAt? i := by
  cases op with
  | allocate caller capacity limit =>
    unfold Clients.step
    dsimp only
    split
    · rw [bufferAt?, List.getElem?_append_left hPlace]
      rfl
    · rfl
  | act j act =>
    unfold Clients.step
    dsimp only
    split
    · rfl
    · exact bufferAt?_set_of_ne (fun hSame => hOther act (by rw [hSame])) s _ _
  | trimCache thread => rfl
  | exitThread thread => rfl

end Clients

-- ---------------------------------------------------------------------------
-- A life
-- ---------------------------------------------------------------------------

/-- A buffer, by its place among the clients of its allocator, with what is on record of it since
it was allocated. -/
structure Life where
  clients : Clients
  place : Nat
  /-- The blocks that came out for the buffer. -/
  taken : List (Nat × Block)
  /-- The blocks of the buffer that were handed back. -/
  returned : List (Nat × Block)
  /-- How often a reference was added. -/
  retained : Nat
  /-- How often one was dropped. -/
  released : Nat

namespace Life

variable {l : Life}

/-- The buffer, unless it is gone. -/
def buffer? (l : Life) : Option Buffer := l.clients.bufferAt? l.place

/-- What can happen in a life: something is done to the allocator or to one of its buffers, which
may be this one, or another allocator is asked to drop a reference to the buffer or to give it
another capacity. Nothing can change when a buffer is read. -/
inductive Use (id : Nat) where
  | op (op : Clients.Op)
  | release (other : Allocator) (hOther : other.id ≠ id) (caller : Caller)
  | reallocate (other : Allocator) (hOther : other.id ≠ id) (caller : Caller) (capacity : Nat)

/-- The record of an act on the buffer through an allocator. -/
def record (l : Life) (a : Allocator) (b : Buffer) (act : Clients.Act) : Life :=
  let noted := (Noted.source.apply ⟨a, l.taken, l.returned⟩ b act).2
  { l with
    taken := noted.taken
    returned := noted.returned
    retained := l.retained + (act.retains b).toNat
    released := l.released + (act.releases a b).toNat }

/-- The record of an operation. Those that are not about the buffer are not on it. -/
def recordOp (l : Life) : Clients.Op → Life
  | .act i act =>
    if i = l.place then
      match l.buffer? with
      | none => l
      | some b => l.record l.clients.allocator b act
    else l
  | _ => l

/-- An act on the buffer through another allocator. -/
def through (l : Life) (other : Allocator) (act : Clients.Act) : Life :=
  match l.buffer? with
  | none => l
  | some b =>
    { l.record other b act with
      clients := ⟨l.clients.allocator, l.clients.buffers.set l.place (act.apply other b).1⟩ }

/-- The life after an operation. -/
def after (l : Life) (op : Clients.Op) : Life :=
  { l.recordOp op with clients := l.clients.step op }

/-- The life after something happened. -/
def step (l : Life) : Use id → Life
  | .op op => l.after op
  | .release other _ caller => l.through other (.release caller)
  | .reallocate other _ caller capacity => l.through other (.reallocate caller capacity)

/-- The life after much happened. -/
def run (l : Life) (uses : List (Use id)) : Life := uses.foldl step l

/-- A life begins with an allocation. -/
def born (s : Clients) (caller : Caller) (capacity limit : Nat) : Life where
  clients := s.step (.allocate caller capacity limit)
  place := s.buffers.length
  taken := Clients.holdingOf ((s.step (.allocate caller capacity limit)).bufferAt? s.buffers.length)
  returned := []
  retained := 0
  released := 0

-- ---------------------------------------------------------------------------
-- What every moment keeps
-- ---------------------------------------------------------------------------

/-- The place is one, the ledger balances, and the buffer is one of the allocator's. -/
structure Sound (l : Life) (g : Geometry) (id : Nat) : Prop where
  clients : l.clients.Sound g
  identity : l.clients.allocator.id = id
  place : l.place < l.clients.buffers.length
  returned : l.taken = l.returned ++ Clients.holdingOf l.buffer?
  owner : ∀ b, l.buffer? = some b → b.owner = id
  counted : ∀ b, l.buffer? = some b → b.Counted
  count : ∀ b, l.buffer? = some b → b.refCount + l.released = 1 + l.retained

/-- What is owed for the buffer, and what its clients know of it. -/
theorem Sound.owes (h : l.Sound g id) (hAt : l.buffer? = some b) :
    l.clients.allocator.Sound g
        (b.holding ++ Clients.held (l.clients.buffers.set l.place none)) ∧ b.Fits :=
  ⟨h.clients.allocator.perm (Clients.held_perm hAt), h.clients.fits _ b hAt⟩

theorem Sound.foreign (h : l.Sound g id) (hAt : l.buffer? = some b) {other : Allocator}
    (hOther : other.id ≠ id) : b.owner ≠ other.id :=
  fun hOwner => hOther (hOwner.symm.trans (h.owner b hAt))

/-- A buffer that was just handed out has one reference, and the block that was taken for it. -/
theorem sound_born {s : Clients} (h : s.Sound g) (hg : g.WellFormed) {capacity limit : Nat}
    (hBuffer : (s.allocator.allocate caller capacity limit).1 = .ok b) :
    (born s caller capacity limit).Sound g s.allocator.id := by
  obtain ⟨a, hAllocate⟩ : ∃ a, s.allocator.allocate caller capacity limit = (.ok b, a) :=
    ⟨_, Prod.ext hBuffer rfl⟩
  have hStep : s.step (.allocate caller capacity limit) = ⟨a, s.buffers ++ [some b]⟩ := by
    simp only [Clients.step, hAllocate]
  have hAt : (born s caller capacity limit).buffer? = some b := by
    simp only [born, buffer?, hStep, Clients.bufferAt?, List.getElem?_concat_length]
    rfl
  -- all that is new about it can be read off the one way to get a buffer
  have hNew : b.owner = s.allocator.id ∧ b.refCount = 1 ∧ b.block ≠ none := by
    unfold Allocator.allocate at hBuffer
    split at hBuffer
    · exact absurd hBuffer (by simp)
    · split at hBuffer
      · exact absurd hBuffer (by simp)
      · rename_i hBlock
        obtain rfl := Except.ok.inj hBuffer
        have hId := s.allocator.id_allocateBlock caller capacity
        rw [hBlock] at hId
        exact ⟨hId, rfl, by simp⟩
  obtain ⟨hOwner, hCount, hBlock⟩ := hNew
  refine ⟨(h.step hg (.allocate caller capacity limit)).1, h.id_step _, ?_, rfl, ?_, ?_, ?_⟩
  · simp [born, hStep]
  all_goals
    intro found hFound
    obtain rfl : b = found := Option.some.inj (hAt.symm.trans hFound)
  · exact hOwner
  · exact ⟨by simp [hBlock, hCount], hCount ▸ by decide⟩
  · exact hCount ▸ rfl

/-- What is done to the buffer is on record. -/
theorem after_own (hAt : l.buffer? = some b) (act : Clients.Act) :
    l.after (.act l.place act) =
      { l.record l.clients.allocator b act with
        clients := l.clients.step (.act l.place act) } := by
  simp only [after, recordOp, if_pos, hAt]

/-- A buffer that is gone stays gone, and its record stays what it is. -/
theorem after_gone (hGone : l.buffer? = none) (act : Clients.Act) :
    l.after (.act l.place act) = l := by
  have hClients : l.clients.step (.act l.place act) = l.clients := by
    have hAt : l.clients.bufferAt? l.place = none := hGone
    simp only [Clients.step, hAt]
  simp only [after, recordOp, if_pos, hGone, hClients]

/-- The end of a buffer leaves it gone, and no block comes out for it. -/
theorem after_discard (hAt : l.buffer? = some b) (caller : Caller) :
    (l.after (.act l.place (.discard caller))).buffer? = none ∧
      (l.after (.act l.place (.discard caller))).taken = l.taken := by
  rw [after_own hAt]
  exact ⟨Clients.bufferAt?_step_act hAt (.discard caller),
    (Noted.deallocate_notes ⟨l.clients.allocator, l.taken, l.returned⟩ caller b).1⟩

/-- The record balances after an act on the buffer, and what has come out stays on it. -/
theorem Sound.after_act (h : l.Sound g id) (hg : g.WellFormed) (hAt : l.buffer? = some b)
    (act : Clients.Act) : (l.after (.act l.place act)).Sound g id ∧
      l.taken <+: (l.after (.act l.place act)).taken := by
  obtain ⟨hOwes, hFits⟩ := h.owes hAt
  have hPasses := act.passes_apply (n := ⟨l.clients.allocator, l.taken, l.returned⟩) hOwes hFits
    (h.counted b hAt)
  have hAfter := (Clients.bufferAt?_step_act hAt act).trans
    (Noted.allocator_apply ⟨l.clients.allocator, l.taken, l.returned⟩ b act).1.symm
  rw [after_own hAt, record]
  generalize Noted.source.apply ⟨l.clients.allocator, l.taken, l.returned⟩ b act = outcome
    at hPasses hAfter
  refine ⟨⟨(h.clients.step hg (.act l.place act)).1, (h.clients.id_step _).trans h.identity,
    Nat.lt_of_lt_of_le h.place (l.clients.length_le_step _), ?_, ?_, ?_, ?_⟩, hPasses.grows⟩
  · have hBefore := h.returned
    rw [hAt] at hBefore
    exact (hPasses.returned hBefore).trans (congrArg _ (congrArg _ hAfter.symm))
  · exact fun b' hb' => (hPasses.owner b' (hAfter.symm.trans hb')).trans (h.owner b hAt)
  · exact fun b' hb' => hPasses.counted b' (hAfter.symm.trans hb')
  · intro b' hb'
    have hOld := h.count b hAt
    have hNew := hPasses.count b' (hAfter.symm.trans hb')
    dsimp only at hNew ⊢
    omega

/-- What is not about the buffer leaves it and its record alone. -/
theorem Sound.after_other (h : l.Sound g id) (hg : g.WellFormed) {op : Clients.Op}
    (hOther : ∀ act, op ≠ .act l.place act) :
    (l.after op).Sound g id ∧ (l.after op).taken = l.taken := by
  have hRecord : l.recordOp op = l := by
    cases op with
    | act i act => exact if_neg fun hSame => hOther act (by rw [hSame])
    | _ => rfl
  have hStep : l.after op = { l with clients := l.clients.step op } := by
    rw [after, hRecord]
  have hBuffer : (l.clients.step op).bufferAt? l.place = l.buffer? :=
    Clients.bufferAt?_step h.place hOther
  rw [hStep]
  refine ⟨⟨(h.clients.step hg op).1, (h.clients.id_step op).trans h.identity,
    Nat.lt_of_lt_of_le h.place (l.clients.length_le_step op), ?_, ?_, ?_, ?_⟩, rfl⟩
  · exact h.returned.trans (by rw [← hBuffer]; rfl)
  · exact fun b hAt => h.owner b (hBuffer.symm.trans hAt)
  · exact fun b hAt => h.counted b (hBuffer.symm.trans hAt)
  · exact fun b hAt => h.count b (hBuffer.symm.trans hAt)

/-- What is asked of another allocator and refused changes nothing. -/
theorem through_of_refused {other : Allocator} {act : Clients.Act}
    (hApply : ∀ b, l.buffer? = some b → Noted.source.apply ⟨other, l.taken, l.returned⟩ b act =
      (some b, ⟨other, l.taken, l.returned⟩))
    (hAnswer : ∀ b, l.buffer? = some b →
      act.retains b = false ∧ act.releases other b = false) : l.through other act = l := by
  unfold through
  split
  · rfl
  · rename_i b hAt
    obtain ⟨hRetains, hReleases⟩ := hAnswer b hAt
    have hNoted := hApply b hAt
    have hSame : (act.apply other b).1 = some b := by
      rw [← (Noted.allocator_apply ⟨other, l.taken, l.returned⟩ b act).1, hNoted]
    obtain ⟨hPlace, hGet⟩ := List.getElem?_eq_some_iff.mp (Clients.bufferAt?_eq_some.mp hAt)
    have hSet : l.clients.buffers.set l.place (some b) = l.clients.buffers := by
      rw [← hGet, List.set_getElem_self]
    simp only [record, hNoted, hSame, hSet, hRetains, hReleases, Bool.toNat_false, Nat.add_zero]

/-- The owner is asked for first, so another allocator does nothing. -/
theorem Sound.step_release (h : l.Sound g id) {other : Allocator} (hOther : other.id ≠ id)
    (caller : Caller) : l.step (.release other hOther caller) = l := by
  refine through_of_refused (fun b hAt => ?_) fun b hAt => ⟨rfl, ?_⟩
  · have hRefused : Noted.source.release ⟨other, l.taken, l.returned⟩ caller b =
        (.error .foreignAllocator, b, ⟨other, l.taken, l.returned⟩) := if_pos (h.foreign hAt hOther)
    rw [BlockSource.apply, hRefused]
  · exact congrArg (fun r => r.1.isOk)
      (show other.release caller b = (.error .foreignAllocator, b, other) from
        if_pos (h.foreign hAt hOther))

theorem Sound.step_reallocate (h : l.Sound g id) {other : Allocator} (hOther : other.id ≠ id)
    (caller : Caller) (capacity : Nat) :
    l.step (.reallocate other hOther caller capacity) = l := by
  refine through_of_refused (fun b hAt => ?_) fun b hAt => ⟨rfl, rfl⟩
  have hRefused : Noted.source.reallocate ⟨other, l.taken, l.returned⟩ caller b capacity =
      (.error .foreignAllocator, b, ⟨other, l.taken, l.returned⟩) := if_pos (h.foreign hAt hOther)
  rw [BlockSource.apply, hRefused]

/-- Whoever uses the buffer, its life stays in order, and no block that it had is forgotten. -/
theorem Sound.step (h : l.Sound g id) (hg : g.WellFormed) (use : Use id) :
    (l.step use).Sound g id ∧ l.taken <+: (l.step use).taken := by
  cases use with
  | op op =>
    show (l.after op).Sound g id ∧ l.taken <+: (l.after op).taken
    by_cases hAct : ∃ act, op = .act l.place act
    · obtain ⟨act, rfl⟩ := hAct
      cases hAt : l.buffer? with
      | none =>
        rw [after_gone hAt act]
        exact ⟨h, List.prefix_rfl⟩
      | some b => exact h.after_act hg hAt act
    · obtain ⟨hSound, hTaken⟩ := h.after_other hg fun act hOp => hAct ⟨act, hOp⟩
      exact ⟨hSound, hTaken ▸ List.prefix_rfl⟩
  | release other hOther caller =>
    rw [h.step_release hOther caller]
    exact ⟨h, List.prefix_rfl⟩
  | reallocate other hOther caller capacity =>
    rw [h.step_reallocate hOther caller capacity]
    exact ⟨h, List.prefix_rfl⟩

theorem Sound.run (h : l.Sound g id) (hg : g.WellFormed) (uses : List (Use id)) :
    (l.run uses).Sound g id ∧ l.taken <+: (l.run uses).taken := by
  induction uses generalizing l with
  | nil => exact ⟨h, List.prefix_rfl⟩
  | cons use rest ih =>
    obtain ⟨hSound, hGrows⟩ := h.step hg use
    obtain ⟨hRun, hRest⟩ := ih hSound
    exact ⟨hRun, hGrows.trans hRest⟩

-- ---------------------------------------------------------------------------
-- The ledger
-- ---------------------------------------------------------------------------

/-- What is so at every moment of a life. The references that are left are the first one and those
that were added, without those that were dropped. The blocks that came out were handed back, each
once, but for the one that the buffer has; its end, whatever the count is, hands that one back. -/
structure Exact (l : Life) (id : Nat) : Prop where
  count : ∀ b, l.buffer? = some b → b.refCount + l.released = 1 + l.retained
  live : ∀ b, l.buffer? = some b → b.refCount ≠ 0 → b.Live l.clients.allocator
  spent : ∀ b, l.buffer? = some b → b.refCount = 0 → b.Spent l.clients.allocator
  foreign : ∀ b, l.buffer? = some b → ∀ other : Allocator, other.id ≠ id → ∀ caller,
    other.release caller b = (.error .foreignAllocator, b, other) ∧
      ∀ capacity, other.reallocate caller b capacity = (.error .foreignAllocator, b, other)
  returned : l.taken = l.returned ++ Clients.holdingOf l.buffer?
  ended : ∀ caller, (l.after (.act l.place (.discard caller))).buffer? = none ∧
    (l.after (.act l.place (.discard caller))).taken = l.taken ∧
      (l.after (.act l.place (.discard caller))).returned = l.taken

/-- At every point of its life the count decides what can be done, and the balance of blocks is
even. -/
theorem Sound.exact (h : l.Sound g id) (hg : g.WellFormed) : l.Exact id where
  count := h.count
  live b hAt hCount :=
    (h.counted b hAt).live (h.owes hAt).1 ((h.owner b hAt).trans h.identity.symm) hCount
  spent b hAt hCount :=
    (h.counted b hAt).spent ((h.owner b hAt).trans h.identity.symm) hCount
  foreign b hAt other hOther caller :=
    ⟨if_pos (h.foreign hAt hOther), fun capacity => if_pos (h.foreign hAt hOther)⟩
  returned := h.returned
  ended caller := by
    -- a buffer that is discarded returns its block, unless it was gone before
    cases hAt : l.buffer? with
    | none =>
      have hBalance := h.returned
      rw [hAt] at hBalance
      rw [after_gone hAt]
      exact ⟨hAt, rfl, (hBalance.trans (List.append_nil _)).symm⟩
    | some b =>
      obtain ⟨hSound, -⟩ := h.after_act hg hAt (.discard caller)
      obtain ⟨hGone, hTaken⟩ := after_discard hAt caller
      have hBalance := hSound.returned
      rw [hGone, hTaken] at hBalance
      exact ⟨hGone, hTaken, (hBalance.trans (List.append_nil _)).symm⟩

/-- In every life, whatever was done before it, the ledger is exact at every moment, and every block
that the buffer has had is on it. -/
theorem run_returned_once (id : Nat) (config : PoolConfig) (hg : config.geometry.WellFormed)
    (supply : Nat → Supply) (ops : List Clients.Op) (caller : Caller) (capacity limit : Nat)
    {b : Buffer} (hAllocate : (((Clients.start id config supply).run ops).allocator.allocate caller
      capacity limit).1 = .ok b) (uses : List (Use id)) :
    let l := born ((Clients.start id config supply).run ops) caller capacity limit
    (l.run uses).Exact id ∧
      ∀ earlier, earlier <+: uses →
        Clients.holdingOf (l.run earlier).buffer? ⊆ (l.run uses).taken := by
  intro l
  have hStart := Clients.sound_start id hg supply
  have hId : ((Clients.start id config supply).run ops).allocator.id = id := hStart.id_run hg ops
  have hBorn : l.Sound config.geometry id := by
    have hSound := sound_born (hStart.run hg ops) hg hAllocate
    rwa [hId] at hSound
  refine ⟨(hBorn.run hg uses).1.exact hg, ?_⟩
  rintro earlier ⟨later, rfl⟩
  obtain ⟨hEarlier, -⟩ := hBorn.run hg earlier
  have hGrows := (hEarlier.run hg later).2
  rw [show (l.run earlier).run later = l.run (earlier ++ later) from
    List.foldl_append.symm] at hGrows
  intro p hp
  refine hGrows.subset ?_
  rw [hEarlier.returned]
  exact List.mem_append_right _ hp

/-- A buffer with a second reference, which another allocator is asked to drop in vain, moves into
a larger block, loses one reference and is left behind with the other one. -/
theorem run_returned_once_left_behind :
    (⟨4096, 1, 0⟩ : Geometry).WellFormed ∧ ∃ (s : Clients) (b : Buffer) (l : Life),
      s = Clients.start 0 { pageSize := 4096, maxOrder := 1, numArenas := 1 }
        (fun _ _ => Provider.below (2 ^ 20)) ∧
      (s.allocator.allocate (.thread 0) 40 1000).1 = .ok b ∧
      l = (born s (.thread 0) 40 1000).run [.op (.act 0 .retain),
        .release { s.allocator with id := 1 } Nat.one_ne_zero (.thread 1),
        .op (.act 0 (.reallocate (.thread 1) 100)), .op (.act 0 (.release (.thread 0)))] ∧
      l.Exact 0 ∧ (l.retained, l.released, l.buffer?.map (·.refCount)) = (1, 1, some 1) ∧
      (l.taken.map (·.2.capacity), l.returned.map (·.2.capacity)) = ([48, 112], [48]) := by
  set s := Clients.start 0 { pageSize := 4096, maxOrder := 1, numArenas := 1 }
    (fun _ _ => Provider.below (2 ^ 20)) with hs
  have hOk : (s.allocator.allocate (.thread 0) 40 1000).1.toOption.isSome = true := by
    rw [hs]
    decide +kernel
  obtain ⟨b, hSome⟩ := Option.isSome_iff_exists.mp hOk
  have hAllocate : (s.allocator.allocate (.thread 0) 40 1000).1 = .ok b := by
    cases hResult : (s.allocator.allocate (.thread 0) 40 1000).1 with
    | error e => simp [hResult, Except.toOption] at hSome
    | ok found =>
      rw [hResult] at hSome
      exact congrArg _ (Option.some.inj hSome)
  -- the life as a whole, of which the counts are then computed
  obtain ⟨hExact, -⟩ := run_returned_once 0 { pageSize := 4096, maxOrder := 1, numArenas := 1 }
    Geometry.wellFormed_two_pages (fun _ _ => Provider.below (2 ^ 20)) [] (.thread 0) 40 1000
    hAllocate [.op (.act 0 .retain),
      .release { s.allocator with id := 1 } Nat.one_ne_zero (.thread 1),
      .op (.act 0 (.reallocate (.thread 1) 100)), .op (.act 0 (.release (.thread 0)))]
  refine ⟨Geometry.wellFormed_two_pages, s, b, _, rfl, hAllocate, rfl, hExact, ?_, ?_⟩
  · rw [hs]
    decide +kernel
  · rw [hs]
    decide +kernel

/-- Another allocator asks whose buffer it is before it looks at the count, so it does not say of a
buffer without references that it has none. -/
theorem spent_release_elsewhere :
    (⟨4096, 1, 0⟩ : Geometry).WellFormed ∧ ∃ b,
      ((born (Clients.start 0 { pageSize := 4096, maxOrder := 1, numArenas := 1 }
        fun _ _ => Provider.below (2 ^ 20)) (.thread 0) 100 1000).run
          ([.op (.act 0 (.release (.thread 0)))] : List (Use 0))).buffer? = some b ∧
      b.refCount = 0 ∧
      ¬ ∀ (other : Allocator) (caller : Caller),
        (other.release caller b).1 = .error (.illegalRefCount 0) := by
  refine ⟨Geometry.wellFormed_two_pages, ?_⟩
  have hSpent : (((born (Clients.start 0 { pageSize := 4096, maxOrder := 1, numArenas := 1 }
      fun _ _ => Provider.below (2 ^ 20)) (.thread 0) 100 1000).run
        ([.op (.act 0 (.release (.thread 0)))] : List (Use 0))).buffer?).map
          (fun b => (b.owner, b.refCount)) = some (0, 0) := by decide +kernel
  obtain ⟨b, hAt, hState⟩ := Option.map_eq_some_iff.mp hSpent
  obtain ⟨hOwner, hCount⟩ := Prod.mk.inj hState
  refine ⟨b, hAt, hCount, fun hAlways => ?_⟩
  have hAnswer := hAlways (Allocator.build 1 { pageSize := 4096, maxOrder := 1, numArenas := 1 }
    fun _ _ => Provider.below (2 ^ 20)) (.thread 0)
  rw [Allocator.release, BlockSource.release,
    if_pos (by rw [hOwner]; exact Nat.zero_ne_one)] at hAnswer
  exact absurd hAnswer (by simp)

end Life

end BlockPool
