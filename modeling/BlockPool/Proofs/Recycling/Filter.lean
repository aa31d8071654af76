import BlockPool.Proofs.Recycling.Queue

/-!
# BlockPool — transfers that bring nothing

A filter that lets one item in `ratio` through never turns away as many in a row. So a batch that
it turns away whole is short; and a batch is cut off only where the stack cannot grow any further.

A drain ends with the first transfer that brings nothing. Mostly that is because nothing waits or
the stack is full. But it may also be that the filter has turned away all of the batch, and then
the links that follow were not read.

* `Stack.length_lt_ratio` — how many items the filter turns away in a row.
* `Queue.capacity_of_batch_lt` — a batch that is cut off fills the stack to its bound.
* `Queue.Transfer.TurnedAway` — the last batch was turned away whole.
* `Queue.Sound.ends_drain` — how a drain ends.
-/

namespace BlockPool

/-- The filter of a recycler that was checked lets items through. -/
theorem RecyclerConfig.ratio_pos {c : RecyclerConfig} (hValid : c.validate = .ok ()) :
    0 < c.ratio := by
  refine Nat.pos_of_ne_zero fun hZero => ?_
  rw [validate, hZero, if_pos (by decide)] at hValid
  exact absurd hValid (by simp)

namespace Recycling

namespace Stack

variable {s : Stack} {tokens : Tokens} {p : Pooled} {ps : List Pooled}

-- ---------------------------------------------------------------------------
-- What the filter turns away in a row
-- ---------------------------------------------------------------------------

theorem succ_mod_of_ne_zero {n ratio : Nat} (h : (n + 1) % ratio ≠ 0) :
    (n + 1) % ratio = n % ratio + 1 := by
  rcases Nat.eq_zero_or_pos ratio with rfl | hPos
  · rw [Nat.mod_zero, Nat.mod_zero]
  · have hLt := Nat.mod_lt n hPos
    have hSplit : n + 1 = n % ratio + 1 + ratio * (n / ratio) := by
      have hDiv := Nat.mod_add_div n ratio
      omega
    rw [hSplit, Nat.add_mul_mod_self_left] at h ⊢
    by_cases hLast : n % ratio + 1 = ratio
    · exact absurd (by rw [hLast, Nat.mod_self]) h
    · exact Nat.mod_eq_of_lt (by omega)

/-- An item that the filter turns away is one further from the last one that it let through. -/
theorem offers_of_filter (hTurned : (s.filter tokens p).1 = false) :
    (s.filter tokens p).2.1.offers.toNat % s.ratio = s.offers.toNat % s.ratio + 1 := by
  unfold filter at hTurned ⊢
  split at hTurned
  · exact absurd hTurned (by simp)
  · rename_i hNew
    rw [if_neg hNew]
    dsimp only at hTurned ⊢
    split at hTurned
    · exact absurd hTurned (by simp)
    · rename_i hCount
      rw [if_neg hCount]
      -- a count that wraps is zero, and there the item would have come through
      have hNext : (s.offers + 1).toNat = s.offers.toNat + 1 := by
        have hWord := s.offers.toNat_lt
        rw [UInt64.toNat_add] at hCount ⊢
        by_cases hWrap : s.offers.toNat + 1 = 2 ^ 64
        · have hZero : (s.offers.toNat + (1 : UInt64).toNat) % 2 ^ 64 = 0 := by
            show (s.offers.toNat + 1) % 2 ^ 64 = 0
            rw [hWrap, Nat.mod_self]
          exact absurd (by rw [hZero, Nat.zero_mod]) hCount
        · exact Nat.mod_eq_of_lt (show s.offers.toNat + 1 < 2 ^ 64 by omega)
      show (s.offers + 1).toNat % s.ratio = _
      have hCount' : (s.offers + 1).toNat % s.ratio ≠ 0 := hCount
      rw [hNext] at hCount' ⊢
      exact succ_mod_of_ne_zero hCount'

/-- An item for which there is room is only turned away by the filter. -/
theorem receive_of_turned (hRoom : s.size < s.capacity)
    (hTurned : (s.receive tokens p).1 = false) : (s.filter tokens p).1 = false ∧
      (s.receive tokens p).2 = (s.filter tokens p).2 := by
  unfold receive at hTurned ⊢
  rw [if_neg (Nat.not_le.mpr hRoom)] at hTurned ⊢
  split at hTurned
  · rename_i hFilter
    rw [hFilter]
    exact ⟨rfl, rfl⟩
  · exact absurd hTurned (by simp)

theorem refused_sublist (s : Stack) (tokens : Tokens) (ps : List Pooled) :
    (s.receiveAll tokens ps).1.Sublist ps := by
  induction ps generalizing s tokens with
  | nil => exact .refl _
  | cons p rest ih =>
    simp only [receiveAll]
    split
    · exact (ih ..).cons p
    · exact (ih ..).cons_cons p

/-- Several items that are all turned away are counted one after the other. -/
theorem offers_of_receiveAll (hRoom : s.size + ps.length ≤ s.capacity)
    (hTurned : (s.receiveAll tokens ps).1 = ps) :
    (s.receiveAll tokens ps).2.1.offers.toNat % s.ratio =
      s.offers.toNat % s.ratio + ps.length := by
  induction ps generalizing s tokens with
  | nil => rfl
  | cons p rest ih =>
    rw [List.length_cons] at hRoom
    obtain ⟨hSame, -⟩ := s.receive_frame tokens p
    simp only [receiveAll] at hTurned ⊢
    cases hKept : (s.receive tokens p).1 with
    | true =>
      -- then no more were turned away than come after it
      rw [hKept, if_pos rfl] at hTurned
      have hLength := (refused_sublist (s.receive tokens p).2.1 (s.receive tokens p).2.2
        rest).length_le
      rw [hTurned, List.length_cons] at hLength
      omega
    | false =>
      rw [hKept, if_neg (by simp), List.cons.injEq] at hTurned
      rw [hKept] at hSame
      obtain ⟨hFilter, hAfter⟩ := receive_of_turned (by omega) hKept
      have hFirst := offers_of_filter hFilter
      rw [← hAfter] at hFirst
      have hRatio : (s.receive tokens p).2.1.ratio = s.ratio := by rw [hSame]
      have hSize : (s.receive tokens p).2.1.size = s.size := by rw [hSame]; rfl
      have hCapacity : (s.receive tokens p).2.1.capacity = s.capacity := by rw [hSame]
      have hRest := ih (by rw [hSize, hCapacity]; omega) hTurned.2
      rw [hRatio, hFirst] at hRest
      rw [hRest, List.length_cons]
      omega

/-- Fewer items than the ratio are turned away in a row. -/
theorem length_lt_ratio (hRatio : 0 < s.ratio) (hRoom : s.size + ps.length ≤ s.capacity)
    (hTurned : (s.receiveAll tokens ps).1 = ps) : ps.length < s.ratio := by
  have hCount := offers_of_receiveAll hRoom hTurned
  have hLt := Nat.mod_lt (s.receiveAll tokens ps).2.1.offers.toNat hRatio
  omega

-- ---------------------------------------------------------------------------
-- How far a stack grows
-- ---------------------------------------------------------------------------

theorem goal_le_doubled {goal steps capacity : Nat} (hPos : 0 < capacity)
    (hGoal : goal ≤ capacity + steps) : goal ≤ doubled goal steps capacity := by
  induction steps generalizing capacity with
  | zero => exact hGoal
  | succ steps ih =>
    rw [doubled]
    split
    · assumption
    · exact ih (by omega) (by omega)

/-- A stack grows as far as it needs to, or to its bound. -/
theorem need_le_capacity_grow (s : Stack) (need : Nat) :
    need ≤ (s.grow need).capacity ∨ (s.grow need).capacity = s.maxCapacity := by
  have hGoal : min need s.maxCapacity ≤
      doubled (min need s.maxCapacity) (min need s.maxCapacity + 1) (max s.capacity 1) :=
    goal_le_doubled (by omega) (by omega)
  show need ≤ min (doubled _ _ _) s.maxCapacity ∨ min (doubled _ _ _) s.maxCapacity = s.maxCapacity
  omega

end Stack

namespace Queue

variable {q q' : Queue} {s : Stack} {tokens : Tokens}

-- ---------------------------------------------------------------------------
-- What a transfer reads
-- ---------------------------------------------------------------------------

theorem length_batch (q : Queue) (s : Stack) :
    (q.front.waiting.take (q.batch s)).length = q.batch s := by
  rw [List.length_take]
  exact Nat.min_eq_left (Nat.min_le_left ..)

/-- A batch that is cut off fills the stack to its bound. -/
theorem capacity_of_batch_lt (h : q.batch s < q.front.waiting.length) :
    (q.makeRoom s).capacity = s.maxCapacity := by
  have hSize : (q.makeRoom s).size = s.size := by rw [makeRoom_frame]; rfl
  have hRoom : (q.makeRoom s).capacity < s.size + q.front.waiting.length := by
    unfold batch at h
    omega
  unfold makeRoom at hRoom ⊢
  split at hRoom
  · rename_i hGrows
    rw [if_pos hGrows]
    exact (s.need_le_capacity_grow _).resolve_left (Nat.not_le.mpr hRoom)
  · rename_i hFits
    have hWaiting : q.front.waiting ≠ [] := by
      intro hNone
      rw [hNone] at h
      exact absurd h (Nat.not_lt_zero _)
    rw [not_and] at hFits
    exact absurd hRoom (hFits hWaiting)

/-- What the batch is made of is kept or turned away. -/
theorem size_add_refused (q : Queue) (s : Stack) (tokens : Tokens) :
    (q.transfer s tokens).refused.length + (q.transfer s tokens).stack.size =
      s.size + q.advance.1.batch s := by
  have hLength := ((q.advance.1.makeRoom s).receiveAll_perm tokens
    (q.advance.1.front.waiting.take (q.advance.1.batch s))).length_eq
  have hEntries : (q.advance.1.makeRoom s).entries = s.entries := by rw [makeRoom_frame]
  rw [List.length_append, List.length_append, length_batch, hEntries] at hLength
  exact hLength.trans (Nat.add_comm ..)

theorem refused_transfer_sublist (q : Queue) (s : Stack) (tokens : Tokens) :
    (q.transfer s tokens).refused.Sublist (q.advance.1.front.waiting.take (q.advance.1.batch s)) :=
  Stack.refused_sublist ..

theorem size_le_transfer (q : Queue) (s : Stack) (tokens : Tokens) :
    s.size ≤ (q.transfer s tokens).stack.size := by
  have hRefused := (q.refused_transfer_sublist s tokens).length_le
  have hSize := q.size_add_refused s tokens
  rw [length_batch] at hRefused
  omega

/-- Of a batch that brings nothing, all is turned away. -/
theorem refused_of_still (hStill : (q.transfer s tokens).moved = false) :
    (q.transfer s tokens).stack.size = s.size ∧ (q.transfer s tokens).refused =
      q.advance.1.front.waiting.take (q.advance.1.batch s) := by
  have hSize : (q.transfer s tokens).stack.size = s.size := by
    rw [moved_transfer] at hStill
    simpa using hStill
  have hAll := q.size_add_refused s tokens
  refine ⟨hSize, (q.refused_transfer_sublist s tokens).eq_of_length ?_⟩
  rw [length_batch]
  omega

/-- What the links hold after a transfer. -/
theorem queue_transfer (q : Queue) (s : Stack) (tokens : Tokens) :
    (q.transfer s tokens).queue = if q.advance.1.batch s = 0 then q.advance.1
      else (q.advance.1.skip (q.advance.1.batch s)).advance.1 := by
  rw [transfer_eq]
  dsimp only
  split <;> rfl

/-- What waits after a transfer is what waited before, less the batch. -/
theorem Sound.waiting_transfer (h : q.Sound) (s : Stack) (tokens : Tokens) :
    q.advance.1.front.waiting.take (q.advance.1.batch s) ++ (q.transfer s tokens).queue.waiting =
      q.waiting := by
  obtain ⟨hFirst, hSame⟩ := h.advance
  have hRead := waiting_take_skip q.advance.1 (q.advance.1.batch s)
  rw [queue_transfer]
  split
  · rename_i hNone
    rw [hNone, List.take_zero, List.nil_append, hSame]
  · have hBatch : q.advance.1.batch s ≤ q.advance.1.front.waiting.length := Nat.min_le_left ..
    rw [(hFirst.skip hBatch).advance.2, hRead, hSame]

/-- Each item comes to the stack, is turned away or goes on waiting. -/
theorem Sound.perm_transfer (h : q.Sound) (s : Stack) (tokens : Tokens) :
    ((q.transfer s tokens).refused ++ ((q.transfer s tokens).stack.entries ++
      (q.transfer s tokens).queue.waiting)).Perm (s.entries ++ q.waiting) := by
  have hPerm := (q.advance.1.makeRoom s).receiveAll_perm tokens
    (q.advance.1.front.waiting.take (q.advance.1.batch s))
  have hEntries : (q.advance.1.makeRoom s).entries = s.entries := by rw [makeRoom_frame]
  rw [hEntries] at hPerm
  rw [← h.waiting_transfer s tokens, ← List.append_assoc, ← List.append_assoc]
  exact (hPerm.trans List.perm_append_comm).append_right _

theorem Sound.perm_drainWithin (h : q.Sound) (steps : Nat) (s : Stack) (tokens : Tokens) :
    ((q.drainWithin steps s tokens).refused ++ ((q.drainWithin steps s tokens).stack.entries ++
      (q.drainWithin steps s tokens).queue.waiting)).Perm (s.entries ++ q.waiting) := by
  induction steps generalizing q s tokens with
  | zero => exact .refl _
  | succ steps ih =>
    have hFirst := h.perm_transfer s tokens
    simp only [Queue.drainWithin]
    split
    · have hOthers := ih (h.transfer s tokens) (q.transfer s tokens).stack
        (q.transfer s tokens).tokens
      rw [List.append_assoc]
      exact (hOthers.append_left _).trans hFirst
    · exact hFirst

theorem Sound.perm_drain (h : q.Sound) (s : Stack) (tokens : Tokens) :
    ((q.drain s tokens).refused ++ ((q.drain s tokens).stack.entries ++
      (q.drain s tokens).queue.waiting)).Perm (s.entries ++ q.waiting) :=
  h.perm_drainWithin ..

-- ---------------------------------------------------------------------------
-- Between two transfers
-- ---------------------------------------------------------------------------

/-- How a transfer leaves a queue: the first link is yet to be read, unless nothing waits or the
stack is within a link of its bound. -/
def Settled (q : Queue) (s : Stack) : Prop :=
  q.waiting = [] ∨ q.front.read = 0 ∨ s.maxCapacity < s.size + q.linkCapacity

/-- If no batch is read, nothing waits or the stack is full. -/
theorem Sound.of_batch_eq_zero (h : q.Sound) (hs : s.Sound) (hNone : q.advance.1.batch s = 0) :
    q.waiting = [] ∨ s.size = s.maxCapacity := by
  by_cases hFull : s.size = s.maxCapacity
  · exact .inr hFull
  · refine .inl (by_contra fun hWaiting => ?_)
    have hLe := Nat.le_trans hs.size_le hs.capacity_le
    have hPos := batch_pos (q := q.advance.1) hs (by omega) (h.front_advance hWaiting)
    omega

/-- Once the first link was read to the end of what was written, nothing waits or the next link
follows. -/
theorem Sound.read_of_skip_all (h : q.Sound) :
    (q.skip q.front.waiting.length).advance.1.waiting = [] ∨
      (q.skip q.front.waiting.length).advance.1.front.read = 0 := by
  cases hRest : q.rest with
  | nil =>
    refine .inl ?_
    have hRead := waiting_take_skip q q.front.waiting.length
    rw [(h.skip (Nat.le_refl _)).advance.2]
    rw [waiting_eq q, hRest, List.take_length] at hRead
    simpa using hRead
  | cons next rest =>
    refine .inr ?_
    have hFull := h.full q.front (by rw [links, hRest, List.dropLast_cons_cons]; simp)
    have hNext := (h.unread next (hRest ▸ List.mem_cons_self)).1
    have hRest' : (q.skip q.front.waiting.length).rest = next :: rest := hRest
    have hRead : (q.skip q.front.waiting.length).front.read =
        (q.skip q.front.waiting.length).linkCapacity := hFull
    unfold Queue.advance
    rw [hRest']
    dsimp only
    rw [if_pos hRead]
    exact hNext

/-- A transfer goes on while there is a whole link to read and room for it. -/
theorem Sound.settled_transfer (h : q.Sound) (hs : s.Sound) (tokens : Tokens) :
    (q.transfer s tokens).queue.Settled (q.transfer s tokens).stack := by
  obtain ⟨hFirst, hSame⟩ := h.advance
  have hReads := q.reads_transfer s tokens
  have hPos := h.capacity_pos
  have hCapacity := linkCapacity_advance q
  have hSize := q.size_add_refused s tokens
  have hRefused := (q.refused_transfer_sublist s tokens).length_le
  have hGrows := q.size_le_transfer s tokens
  rw [length_batch] at hRefused
  rw [Settled, hReads.maxCapacity, hReads.linkCapacity]
  by_cases hNone : q.advance.1.batch s = 0
  -- no batch at all: nothing waits, or the stack is full
  · rcases h.of_batch_eq_zero hs hNone with hWaiting | hFull
    · refine .inl ?_
      rw [queue_transfer, if_pos hNone, hSame, hWaiting]
    · exact .inr (.inr (by omega))
  · by_cases hAll : q.advance.1.batch s = q.advance.1.front.waiting.length
    · -- the first link was read to its end
      rw [queue_transfer, if_neg hNone, hAll]
      rcases hFirst.read_of_skip_all with hWaiting | hRead
      · exact .inl hWaiting
      · exact .inr (.inl hRead)
    · -- the batch was cut off, and what was not kept of it is less than a link
      have hCut : q.advance.1.batch s < q.advance.1.front.waiting.length :=
        Nat.lt_of_le_of_ne (Nat.min_le_left ..) hAll
      have hBound := capacity_of_batch_lt hCut
      have hRoom : (q.advance.1.makeRoom s).size = s.size := by rw [makeRoom_frame]; rfl
      have hWritten := hFirst.written_le _ List.mem_cons_self
      rw [Link.written] at hWritten
      refine .inr (.inr ?_)
      have hBatch : s.size + q.advance.1.batch s = s.maxCapacity := by
        have hFits := batch_le hs q.advance.1
        unfold batch at hCut hNone hFits ⊢
        omega
      omega

-- ---------------------------------------------------------------------------
-- How a drain ends
-- ---------------------------------------------------------------------------

/-- The last batch that was read was turned away whole by the filter, which let none of fewer items
than its ratio through. -/
def Transfer.TurnedAway (t : Transfer) : Prop :=
  ∃ s tokens batch, batch ≠ [] ∧ batch.length < t.stack.ratio ∧ batch <:+ t.refused ∧
    Stack.receiveAll s tokens batch = (batch, t.stack, t.tokens)

/-- How reading ends that goes on until nothing comes of it. -/
structure Ends (q : Queue) (s : Stack) (t : Transfer) : Prop where
  /-- Nothing waits, or the stack is full, or the last batch was turned away whole. -/
  stops : t.queue.waiting = [] ∨ t.stack.size = s.maxCapacity ∨ t.TurnedAway
  /-- A filter that lets an item of each full link through stops only short of a full stack. -/
  bounded : s.ratio ≤ q.linkCapacity →
    t.queue.waiting = [] ∨ s.maxCapacity < t.stack.size + q.linkCapacity

/-- A batch that is turned away whole is shorter than the ratio. -/
theorem batch_lt_ratio (hs : s.Sound) (hRatio : 0 < s.ratio)
    (hStill : (q.transfer s tokens).moved = false) : q.advance.1.batch s < s.ratio := by
  have hFrame := makeRoom_frame q.advance.1 s
  have hLength := length_batch q.advance.1 s
  have hLt : (q.advance.1.front.waiting.take (q.advance.1.batch s)).length <
      (q.advance.1.makeRoom s).ratio :=
    Stack.length_lt_ratio (by rw [hFrame]; exact hRatio)
      (by rw [hLength]; exact batch_le hs q.advance.1) (refused_of_still hStill).2
  rw [hLength, hFrame] at hLt
  exact hLt

/-- A batch that is shorter than a link, from a link that nothing was read from yet, is all that
waits, or it was cut off short of the bound of the stack. -/
theorem Sound.near_of_short (h : q.Sound) (hRead : q.front.read = 0)
    (hShort : q.advance.1.batch s < q.linkCapacity) (tokens : Tokens) :
    (q.transfer s tokens).queue.waiting = [] ∨ s.maxCapacity < s.size + q.linkCapacity := by
  have hPos := h.capacity_pos
  have hWaiting := h.waiting_transfer s tokens
  have hStays : q.advance.1 = q := by
    unfold Queue.advance
    split
    · rw [if_neg (by omega)]
    · rfl
  rw [hStays] at hShort hWaiting
  by_cases hAll : q.batch s = q.front.waiting.length
  · cases hRest : q.rest with
    | nil =>
      refine .inl ?_
      rw [hAll, List.take_length, waiting_eq q, hRest] at hWaiting
      simpa using hWaiting
    | cons next rest =>
      -- a link that another one follows is full
      have hFull := h.full q.front (by rw [links, hRest, List.dropLast_cons_cons]; simp)
      rw [Link.written, hRead] at hFull
      omega
  · have hCut : q.batch s < q.front.waiting.length :=
      Nat.lt_of_le_of_ne (Nat.min_le_left ..) hAll
    have hBound := capacity_of_batch_lt hCut
    have hRoom : (q.makeRoom s).size = s.size := by rw [makeRoom_frame]; rfl
    refine .inr ?_
    unfold batch at hCut hShort
    omega

/-- A transfer that brings nothing is the end. -/
theorem Sound.ends_of_still (h : q.Sound) (hs : s.Sound) (hSettled : q.Settled s)
    (hRatio : 0 < s.ratio) (hStill : (q.transfer s tokens).moved = false) :
    q.Ends s (q.transfer s tokens) := by
  obtain ⟨hSize, hRefused⟩ := refused_of_still hStill
  have hShort := batch_lt_ratio hs hRatio hStill
  have hWaiting := h.waiting_transfer s tokens
  refine ⟨?_, fun hLink => ?_⟩
  · by_cases hNone : q.advance.1.batch s = 0
    · rw [hNone, List.take_zero, List.nil_append] at hWaiting
      rcases h.of_batch_eq_zero hs hNone with hEmpty | hFull
      · exact .inl (hWaiting.trans hEmpty)
      · exact .inr (.inl (hSize.trans hFull))
    · have hLength := length_batch q.advance.1 s
      refine .inr (.inr ⟨q.advance.1.makeRoom s, tokens,
        q.advance.1.front.waiting.take (q.advance.1.batch s), ?_, ?_, ?_, Prod.ext hRefused rfl⟩)
      · intro hEmpty
        rw [hEmpty] at hLength
        exact hNone hLength.symm
      · rw [hLength, (q.reads_transfer s tokens).ratio]
        exact hShort
      · exact hRefused ▸ List.suffix_refl _
  · rw [hSize]
    rcases hSettled with hEmpty | hRead | hNear
    · rw [hEmpty, List.append_eq_nil_iff] at hWaiting
      exact .inl hWaiting.2
    · exact h.near_of_short hRead (by omega) tokens
    · exact .inr hNear

/-- What comes before the end does not matter to it. -/
theorem Ends.after {first : Transfer} {t : Transfer} (hReads : q.Reads s tokens first)
    (hEnds : first.queue.Ends first.stack t) (moved : Bool) (freed : Nat) :
    q.Ends s { t with moved, freed, refused := first.refused ++ t.refused } := by
  obtain ⟨hStops, hBounded⟩ := hEnds
  rw [hReads.maxCapacity] at hStops hBounded
  rw [hReads.ratio, hReads.linkCapacity] at hBounded
  refine ⟨?_, hBounded⟩
  rcases hStops with hNone | hFull | ⟨s', tokens', batch, hSome, hShort, hLast, hTurned⟩
  · exact .inl hNone
  · exact .inr (.inl hFull)
  · exact .inr (.inr ⟨s', tokens', batch, hSome, hShort, hLast.trans (List.suffix_append ..),
      hTurned⟩)

/-- A drain that may go on for more steps than items wait goes on to its end. -/
theorem Sound.ends_drainWithin (h : q.Sound) (hs : s.Sound) (hSettled : q.Settled s)
    (hRatio : 0 < s.ratio) {steps : Nat} (hSteps : q.waiting.length < steps) (tokens : Tokens) :
    q.Ends s (q.drainWithin steps s tokens) := by
  induction steps generalizing q s tokens with
  | zero => exact absurd hSteps (Nat.not_lt_zero _)
  | succ steps ih =>
    have hReads := q.reads_transfer s tokens
    simp only [Queue.drainWithin]
    split
    · rename_i hMoved
      -- each transfer but the last one reads an item that waits
      have hLess : (q.transfer s tokens).queue.waiting.length < q.waiting.length := by
        have hLength := (h.perm_transfer s tokens).length_eq
        have hGrows := q.size_le_transfer s tokens
        rw [moved_transfer, decide_eq_true_eq] at hMoved
        simp only [List.length_append] at hLength
        unfold Stack.size at hGrows hMoved
        omega
      exact Ends.after hReads (ih (h.transfer s tokens) (sound_stack_transfer hs q tokens)
        (h.settled_transfer hs tokens) (hReads.ratio ▸ hRatio) (by omega) _) _ _
    · rename_i hStill
      exact h.ends_of_still hs hSettled hRatio (by simpa using hStill)

/-- How a drain ends. -/
theorem Sound.ends_drain (h : q.Sound) (hs : s.Sound) (hSettled : q.Settled s)
    (hRatio : 0 < s.ratio) (tokens : Tokens) : q.Ends s (q.drain s tokens) :=
  h.ends_drainWithin hs hSettled hRatio (Nat.lt_succ_self _) tokens

end Queue

end Recycling

end BlockPool
