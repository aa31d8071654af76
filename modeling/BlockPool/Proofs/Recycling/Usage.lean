import BlockPool.Proofs.Recycling.Trials

/-!
# BlockPool — a stack in use

Items come to a stack from its own thread, one by one, and out of queues, several at a time, and go
from its top. A `Usage` is a stack with all that was ever said about its items: the trials of its
filter, and the notes that other stacks made. The two ways onto the stack let it grow by different
rules, up to the same bound, but they share its filter.

* `Stack.grow_steps` — how often a capacity is doubled.
* `Usage.step` — a stack is used once.
* `Usage.Sound.recorded_run` — the history of a stack in use is that of its filter.
* `Usage.run_filtered` — its bounds, and what its filter lets through.
-/

namespace BlockPool.Recycling

-- ---------------------------------------------------------------------------
-- How a stack grows
-- ---------------------------------------------------------------------------

namespace Stack

variable {s : Stack}

/-- A capacity is doubled at least once, and then until it reaches its goal. The bound on the steps
does not cut this short. -/
theorem doubled_steps (goal steps : Nat) {capacity : Nat} (hPos : 0 < capacity)
    (hGoal : goal ≤ capacity + steps + 1) :
    ∃ times, 0 < times ∧ doubled goal (steps + 1) capacity = 2 ^ times * capacity ∧
      goal ≤ 2 ^ times * capacity ∧
      ∀ fewer, 0 < fewer → fewer < times → 2 ^ fewer * capacity < goal := by
  induction steps generalizing capacity with
  | zero =>
    refine ⟨1, Nat.one_pos, ?_, by omega, fun fewer hFewer hLess => by omega⟩
    rw [doubled, doubled, ite_self]
    omega
  | succ steps ih =>
    by_cases hReached : 2 * capacity ≥ goal
    · refine ⟨1, Nat.one_pos, ?_, by omega, fun fewer hFewer hLess => by omega⟩
      rw [doubled, if_pos hReached]
      omega
    · obtain ⟨times, hTimes, hDoubled, hEnough, hFewer⟩ :=
        ih (show 0 < 2 * capacity by omega) (by omega)
      have hNext : ∀ k, 2 ^ (k + 1) * capacity = 2 ^ k * (2 * capacity) := by
        intro k
        rw [Nat.pow_succ, Nat.mul_assoc]
      refine ⟨times + 1, Nat.succ_pos _, ?_, ?_, ?_⟩
      · rw [doubled, if_neg hReached, hDoubled, hNext]
      · rw [hNext]
        exact hEnough
      · intro fewer hSome hLess
        cases fewer with
        | zero => exact absurd hSome (Nat.lt_irrefl 0)
        | succ k =>
          rw [hNext]
          rcases Nat.eq_zero_or_pos k with rfl | hPosK
          · omega
          · exact hFewer k hPosK (by omega)

/-- A stack that grows doubles its capacity until so many items have room or its bound is
reached. -/
theorem grow_steps (s : Stack) (need : Nat) :
    ∃ times, 0 < times ∧
      (s.grow need).capacity = min (2 ^ times * max s.capacity 1) s.maxCapacity ∧
      min need s.maxCapacity ≤ 2 ^ times * max s.capacity 1 ∧
      ∀ fewer, 0 < fewer → fewer < times →
        2 ^ fewer * max s.capacity 1 < min need s.maxCapacity := by
  obtain ⟨times, hTimes, hDoubled, hEnough, hFewer⟩ :=
    doubled_steps (min need s.maxCapacity) (min need s.maxCapacity)
      (show 0 < max s.capacity 1 by omega) (by omega)
  exact ⟨times, hTimes, congrArg (min · s.maxCapacity) hDoubled, hEnough, hFewer⟩

/-- A push never makes the stack smaller. -/
theorem capacity_le_push (h : s.Sound) (tokens : Tokens) (p : Pooled) :
    s.capacity ≤ (s.push tokens p).2.1.capacity := by
  obtain ⟨hSame, -⟩ := s.filter_frame tokens p
  have hBound := h.capacity_le
  unfold push
  split
  · exact Nat.le_refl _
  · split
    · rename_i s' tokens' hFilter
      rw [hFilter] at hSame
      dsimp only at hSame
      rw [hSame]
    · rename_i s' tokens' hFilter
      rw [hFilter] at hSame
      dsimp only at hSame
      rw [hSame]
      show s.capacity ≤ if s.size = s.capacity then min (2 * s.size) s.maxCapacity else s.capacity
      split
      · omega
      · exact Nat.le_refl _

end Stack

theorem Queue.capacity_le_transfer {s : Stack} (h : s.Sound) (q : Queue) (tokens : Tokens) :
    s.capacity ≤ (q.transfer s tokens).stack.capacity := by
  rw [transfer_eq]
  dsimp only
  rw [(Stack.receiveAll_frame ..).1]
  show s.capacity ≤ (q.advance.1.makeRoom s).capacity
  unfold makeRoom
  split
  · exact Stack.capacity_le_grow h _
  · exact Nat.le_refl _

-- ---------------------------------------------------------------------------
-- A stack in use
-- ---------------------------------------------------------------------------

/-- A stack, the tokens of all items, and what happened so far. -/
structure Usage where
  stack : Stack
  tokens : Tokens
  history : History

/-- What may happen to a stack and to tokens. -/
inductive Use where
  /-- The stack's own thread gives an item back. -/
  | push (p : Pooled)
  /-- The stack's own thread takes the item on top. -/
  | pop
  /-- A queue is read into the stack. -/
  | transfer (q : Queue)
  /-- A token is issued. -/
  | issue (recycler home : Nat)
  /-- An item somewhere is given back. -/
  | back (token : Token)
  /-- An item somewhere is handed out. -/
  | out (token : Token)
  /-- Another stack lets an item through. -/
  | note (token : Token)

namespace Usage

variable {c : RecyclerConfig} {u : Usage}

/-- A new stack, before any token was issued. -/
def start (c : RecyclerConfig) : Usage := ⟨Stack.empty c, #[], []⟩

/-- Whether the items have tokens that were issued; there are no others. -/
def allows (u : Usage) : Use → Bool
  | .push p => u.tokens.knows p.token
  | .transfer q => q.waiting.all fun p => u.tokens.knows p.token
  | .note token => u.tokens.knows token
  | _ => true

/-- The items that are offered while there is room. -/
def offered (u : Usage) : Use → List Pooled
  | .push p => if u.stack.size < u.stack.maxCapacity then [p] else []
  | .transfer q => q.due u.stack
  | _ => []

/-- What the filter says of them. -/
def trials (u : Usage) (use : Use) : List Trial := u.stack.sift u.tokens (u.offered use)

/-- What comes of a use. -/
def act (u : Usage) : Use → Usage
  | .push p =>
    let (_, stack, tokens) := u.stack.push u.tokens p
    ⟨stack, tokens, u.history.record (u.trials (.push p))⟩
  | .pop =>
    match u.stack.pop? with
    | none => u
    | some (_, stack) => { u with stack }
  | .transfer q =>
    let result := q.transfer u.stack u.tokens
    ⟨result.stack, result.tokens, u.history.record (u.trials (.transfer q))⟩
  | .issue recycler home => { u with tokens := (u.tokens.issue recycler home).2 }
  | .back token => { u with tokens := u.tokens.markRecycled token }
  | .out token => { u with tokens := u.tokens.markInUse token }
  | .note token =>
    { u with tokens := u.tokens.markKept token, history := .noted token :: u.history }

/-- The stack is used once. What cannot happen does nothing. -/
def step (u : Usage) (use : Use) : Usage := if u.allows use then u.act use else u

/-- The stack is used again and again. -/
def run (u : Usage) (uses : List Use) : Usage := uses.foldl step u

/-- What holds of every stack in use. -/
structure Sound (c : RecyclerConfig) (u : Usage) : Prop where
  stack : u.stack.Sound
  maxCapacity : u.stack.maxCapacity = c.maxCapacityPerThread
  ratio : u.stack.ratio = c.ratio

theorem sound_start (c : RecyclerConfig) : (start c).Sound c :=
  ⟨Stack.sound_empty c, rfl, rfl⟩

/-- A use that can happen, or none. -/
theorem step_cases (u : Usage) (use : Use) :
    (u.allows use = true ∧ u.step use = u.act use) ∨ u.step use = u := by
  by_cases hAllows : u.allows use = true
  · exact .inl ⟨hAllows, if_pos hAllows⟩
  · exact .inr (if_neg hAllows)

/-- Taking the item on top leaves all else as it is. -/
theorem act_pop (u : Usage) :
    u.act .pop = { u with stack := { u.stack with entries := u.stack.entries.tail } } := by
  obtain ⟨⟨entries, capacity, maxCapacity, ratio, offers⟩, tokens, history⟩ := u
  cases entries <;> rfl

/-- Whatever is done with a stack, it stays within the limits of the recycler. -/
theorem Sound.act (h : u.Sound c) (use : Use) : (u.act use).Sound c := by
  cases use with
  | push p =>
    obtain ⟨-, hMax, hRatio, -⟩ := u.stack.push_frame u.tokens p
    exact ⟨h.stack.push u.tokens p, hMax.trans h.maxCapacity, hRatio.trans h.ratio⟩
  | pop =>
    rw [act_pop]
    refine ⟨⟨?_, h.stack.capacity_le, h.stack.capacity_pos⟩, h.maxCapacity, h.ratio⟩
    have hSize := h.stack.size_le
    show u.stack.entries.tail.length ≤ u.stack.capacity
    rw [List.length_tail]
    exact Nat.le_trans (Nat.sub_le ..) hSize
  | transfer q =>
    have hReads := q.reads_transfer u.stack u.tokens
    exact ⟨Queue.sound_stack_transfer h.stack q u.tokens, hReads.maxCapacity.trans h.maxCapacity,
      hReads.ratio.trans h.ratio⟩
  | issue recycler home => exact ⟨h.stack, h.maxCapacity, h.ratio⟩
  | back token => exact ⟨h.stack, h.maxCapacity, h.ratio⟩
  | out token => exact ⟨h.stack, h.maxCapacity, h.ratio⟩
  | note token => exact ⟨h.stack, h.maxCapacity, h.ratio⟩

theorem Sound.step (h : u.Sound c) (use : Use) : (u.step use).Sound c := by
  rcases u.step_cases use with ⟨-, hStep⟩ | hStep
  · rw [hStep]
    exact h.act use
  · rw [hStep]
    exact h

theorem Sound.run (h : u.Sound c) (uses : List Use) : (u.run uses).Sound c := by
  induction uses generalizing u with
  | nil => exact h
  | cons use rest ih => exact ih (h.step use)

-- ---------------------------------------------------------------------------
-- What happens to a stack in use
-- ---------------------------------------------------------------------------

theorem recorded_start (c : RecyclerConfig) :
    Recorded (start c).stack (start c).tokens (start c).history where
  notes token := by cases token <;> rfl
  count := by
    show UInt64.ofNat Word.maxValue + 1 = UInt64.ofNat 0
    decide
  counted hAt := absurd hAt (by simp [start, History.firsts])
  again hSuffix := absurd (List.eq_nil_of_suffix_nil hSuffix) (by simp)

theorem Sound.recorded_act (h : u.Sound c) (hRecorded : Recorded u.stack u.tokens u.history)
    (hRatio : Word.isPowerOfTwo c.ratio = true) (hWord : c.ratio < Word.limit) {use : Use}
    (hAllows : u.allows use = true) :
    Recorded (u.act use).stack (u.act use).tokens (u.act use).history := by
  rw [← h.ratio] at hRatio hWord
  cases use with
  | push p => exact hRecorded.push hRatio hWord hAllows
  | pop =>
    rw [act_pop]
    exact hRecorded.congr rfl rfl
  | transfer q => exact hRecorded.transfer h.stack hRatio hWord q (List.all_eq_true.mp hAllows)
  | issue recycler home =>
    exact hRecorded.of_tokens (Tokens.keptBefore_issue u.tokens recycler home)
  | back token => exact hRecorded.modifyState token fun _ => rfl
  | out token => exact hRecorded.modifyState token fun _ => rfl
  | note token => exact hRecorded.noted hAllows

theorem Sound.recorded_step (h : u.Sound c) (hRecorded : Recorded u.stack u.tokens u.history)
    (hRatio : Word.isPowerOfTwo c.ratio = true) (hWord : c.ratio < Word.limit) (use : Use) :
    Recorded (u.step use).stack (u.step use).tokens (u.step use).history := by
  rcases u.step_cases use with ⟨hAllows, hStep⟩ | hStep
  · rw [hStep]
    exact h.recorded_act hRecorded hRatio hWord hAllows
  · rw [hStep]
    exact hRecorded

theorem Sound.recorded_run (h : u.Sound c) (hRecorded : Recorded u.stack u.tokens u.history)
    (hRatio : Word.isPowerOfTwo c.ratio = true) (hWord : c.ratio < Word.limit) (uses : List Use) :
    Recorded (u.run uses).stack (u.run uses).tokens (u.run uses).history := by
  induction uses generalizing u with
  | nil => exact hRecorded
  | cons use rest ih => exact ih (h.step use) (h.recorded_step hRecorded hRatio hWord use)

theorem Sound.capacity_le_step (h : u.Sound c) (use : Use) :
    u.stack.capacity ≤ (u.step use).stack.capacity := by
  rcases u.step_cases use with ⟨-, hStep⟩ | hStep
  · rw [hStep]
    cases use with
    | push p => exact Stack.capacity_le_push h.stack u.tokens p
    | pop => rw [act_pop]
    | transfer q => exact q.capacity_le_transfer h.stack u.tokens
    | issue recycler home => exact Nat.le_refl _
    | back token => exact Nat.le_refl _
    | out token => exact Nat.le_refl _
    | note token => exact Nat.le_refl _
  · rw [hStep]

/-- What the filter lets through comes on top of what was there. -/
theorem Sound.entries_act (h : u.Sound c) {use : Use} (hPop : use ≠ .pop) :
    (u.act use).stack.entries = letThrough (u.trials use) ++ u.stack.entries := by
  cases use with
  | push p => exact (Stack.push_eq u.stack u.tokens p).1
  | pop => exact absurd rfl hPop
  | transfer q => exact (Queue.transfer_sift h.stack q u.tokens).1
  | issue recycler home => rfl
  | back token => rfl
  | out token => rfl
  | note token => rfl

/-- What a stack keeps to, however it is used. -/
structure Filtered (c : RecyclerConfig) (u : Usage) : Prop where
  size_le : u.stack.size ≤ u.stack.capacity
  capacity_le : u.stack.capacity ≤ c.maxCapacityPerThread
  never_shrinks : ∀ use, u.stack.capacity ≤ (u.step use).stack.capacity
  /-- A capacity that grows is doubled until it is enough or the bound is reached. -/
  grows : ∀ need, ∃ times, 0 < times ∧
    (u.stack.grow need).capacity =
      min (2 ^ times * max u.stack.capacity 1) c.maxCapacityPerThread ∧
    min need c.maxCapacityPerThread ≤ 2 ^ times * max u.stack.capacity 1 ∧
    ∀ fewer, 0 < fewer → fewer < times →
      2 ^ fewer * max u.stack.capacity 1 < min need c.maxCapacityPerThread
  /-- Of the items that were never let through before, one in so many is. -/
  firsts : ∀ n trial, u.history.firsts[n]? = some trial → (trial.kept = true ↔ c.ratio ∣ n)
  /-- An item that was let through once always is. -/
  again : ∀ trial earlier, .tried trial :: earlier <:+ u.history →
    History.keeps earlier trial.item.token = true → trial.kept = true
  /-- All that is offered while there is room is tried, and kept on top if it is let through. -/
  taken : ∀ use, u.allows use = true → use ≠ .pop →
    (u.trials use).map (·.item) = u.offered use ∧
      (u.step use).stack.entries = letThrough (u.trials use) ++ u.stack.entries
  /-- What a transfer takes out of a queue is offered while there is room. -/
  read : ∀ q : Queue, q.Sound →
    u.offered (.transfer q) ++ (q.transfer u.stack u.tokens).queue.waiting = q.waiting

/-- However a stack is used, it stays within its bounds and never shrinks; of the items that were
never let through it keeps the first and then one in `ratio`, over gifts of its own thread and
transfers together; and it keeps what was let through before. -/
theorem run_filtered (c : RecyclerConfig) (hRatio : Word.isPowerOfTwo c.ratio = true)
    (hWord : c.ratio < Word.limit) (uses : List Use) :
    ((start c).run uses).Filtered c := by
  have hSound := (sound_start c).run uses
  have hRecorded := (sound_start c).recorded_run (recorded_start c) hRatio hWord uses
  refine ⟨hSound.stack.size_le, hSound.maxCapacity ▸ hSound.stack.capacity_le,
    hSound.capacity_le_step, fun need => ?_, fun n trial hAt => ?_,
    fun trial earlier hSuffix hKept => hRecorded.again hSuffix hKept,
    fun use hAllows hPop => ?_, fun q hq => hq.waiting_transfer _ _⟩
  · rw [← hSound.maxCapacity]
    exact Stack.grow_steps _ need
  · rw [← hSound.ratio]
    exact hRecorded.counted hAt
  · rw [step, if_pos hAllows]
    exact ⟨Stack.item_sift .., hSound.entries_act hPop⟩

/-- Four items over both ways, of which the first and the third are kept; the first one is let
through a second time, on the last place. -/
theorem run_filtered_every_second :
    Word.isPowerOfTwo 2 = true ∧ 2 < Word.limit ∧
      let c : RecyclerConfig :=
        { maxCapacityPerThread := 3, ratio := 2, maxDelayedQueuesPerThread := 1 }
      let item (id : Nat) : Pooled := ⟨.plain id, .live id⟩
      let uses : List Use := [.issue 0 0, .issue 0 0, .issue 0 0, .issue 0 0, .push (item 0),
        .push (item 1), .transfer ⟨16, ⟨0, [item 2, item 3]⟩, []⟩, .push (item 0)]
      ((start c).run uses).Filtered c ∧
        ((start c).run uses).history.firsts.map (·.kept) = [true, false, true, false] ∧
        ((start c).run uses).stack.entries.map (·.item.id) = [0, 2, 0] := by
  refine ⟨by decide, by decide, run_filtered _ (by decide) (by decide) _, ?_, ?_⟩
  · decide +kernel
  · decide +kernel

end Usage

end BlockPool.Recycling
