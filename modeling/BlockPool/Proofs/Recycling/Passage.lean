import BlockPool.Proofs.Recycling.Usage

/-!
# BlockPool — a queue from end to end

What goes through one queue between two threads: the one adds items, the other reads them into a
stack, in any order of turns. A `Passage` keeps, beside the queue and the budget it draws on, all
items that were ever accepted and all that were ever read. The budget is shared with the other
queues to the same stack, so it may change at any time.

Items come out in the order in which they were accepted. A transfer reads some of what waits in one
link, never more than the stack may still hold; so what it reads comes to the stack unless the
filter turns it away.

* `Passage.step` — an item is added, or the queue is read.
* `Queue.add_eq_none_iff` — when an item is not accepted.
* `Queue.size_add_due_le` — there is room for all that is read.
* `Passage.run_first_in_first_out` — what a queue keeps to.
-/

namespace BlockPool.Recycling

-- ---------------------------------------------------------------------------
-- One turn
-- ---------------------------------------------------------------------------

namespace Queue

variable {q : Queue} {s : Stack} {p : Pooled} {budget : Nat}

/-- An item is not accepted if the last link is full and the budget has no room for another one. -/
theorem add_eq_none_iff :
    q.add p budget = none ↔ q.back.written = q.linkCapacity ∧ budget < q.linkCapacity := by
  unfold add
  split
  · rename_i hFull
    split
    · rename_i hShort
      exact iff_of_true rfl ⟨hFull, hShort⟩
    · rename_i hEnough
      exact iff_of_false (by simp) fun h => hEnough h.2
  · rename_i hRoom
    exact iff_of_false (by simp) fun h => hRoom h.1

theorem front_advance_mem (q : Queue) : q.advance.1.front ∈ q.links := by
  unfold advance
  split
  · rename_i next rest hRest
    split
    · rw [links, hRest]
      exact List.mem_cons_of_mem _ List.mem_cons_self
    · exact List.mem_cons_self
  · exact List.mem_cons_self

/-- What is read lies in one link, from the first item that waits there. -/
theorem due_prefix (q : Queue) (s : Stack) : ∃ link ∈ q.links, q.due s <+: link.waiting :=
  ⟨q.advance.1.front, q.front_advance_mem, List.take_prefix ..⟩

/-- A stack may still hold all that is read. -/
theorem size_add_due_le (hs : s.Sound) (q : Queue) :
    s.size + (q.due s).length ≤ s.maxCapacity := by
  have hRoom := q.room_due hs
  have hBound := (sound_makeRoom hs q.advance.1).capacity_le
  rw [makeRoom_frame] at hBound
  have hSize : (q.advance.1.makeRoom s).size = s.size := congrArg List.length (q.makeRoom_due s).2.2
  rw [hSize] at hRoom
  exact Nat.le_trans hRoom hBound

/-- Something is read if something waits and the stack may hold more. -/
theorem Sound.due_ne_nil (h : q.Sound) (hs : s.Sound) (hRoom : s.size < s.maxCapacity)
    (hWaiting : q.waiting ≠ []) : q.due s ≠ [] := by
  have hPos := batch_pos hs hRoom (h.front_advance hWaiting)
  rw [← List.length_pos_iff, due, length_batch]
  exact hPos

end Queue

-- ---------------------------------------------------------------------------
-- A queue in use
-- ---------------------------------------------------------------------------

/-- A queue, the budget it draws on, and all items that went in and came out, oldest first. -/
structure Passage where
  queue : Queue
  budget : Nat
  accepted : List Pooled
  read : List Pooled

namespace Passage

/-- What may happen to a queue and its budget. -/
inductive Turn where
  /-- The thread at one end adds an item. -/
  | add (p : Pooled)
  /-- The thread at the other end reads into a stack. -/
  | transfer (s : Stack) (tokens : Tokens)
  /-- Other queues draw on the budget or give back to it. -/
  | share (budget : Nat)

variable {linkCapacity budget : Nat} {t : Passage}

/-- A queue that was just opened. -/
def opened (linkCapacity budget : Nat) : Passage := ⟨Queue.fresh linkCapacity, budget, [], []⟩

/-- One turn. -/
def step (t : Passage) : Turn → Passage
  | .add p =>
    match t.queue.add p t.budget with
    | none => t
    | some (queue, budget) => { t with queue, budget, accepted := t.accepted ++ [p] }
  | .transfer s tokens =>
    let result := t.queue.transfer s tokens
    { t with
      queue := result.queue
      budget := t.budget + result.freed
      read := t.read ++ t.queue.due s }
  | .share budget => { t with budget }

/-- One turn after the other. -/
def run (t : Passage) (turns : List Turn) : Passage := turns.foldl step t

/-- What every turn keeps. -/
structure Sound (linkCapacity : Nat) (t : Passage) : Prop where
  queue : t.queue.Sound
  linkCapacity : t.queue.linkCapacity = linkCapacity
  fifo : t.read ++ t.queue.waiting = t.accepted

theorem sound_opened (hPos : 0 < linkCapacity) (budget : Nat) :
    (opened linkCapacity budget).Sound linkCapacity :=
  ⟨Queue.sound_fresh hPos, rfl, rfl⟩

/-- What was accepted is what was read and what still waits, in this order. -/
theorem Sound.step (h : t.Sound linkCapacity) (turn : Turn) :
    (t.step turn).Sound linkCapacity := by
  cases turn with
  | add p =>
    cases hAdd : t.queue.add p t.budget with
    | none =>
      rw [show t.step (.add p) = t by simp only [Passage.step, hAdd]]
      exact h
    | some added =>
      obtain ⟨queue, budget⟩ := added
      rw [show t.step (.add p) = { t with queue, budget, accepted := t.accepted ++ [p] } by
        simp only [Passage.step, hAdd]]
      refine ⟨h.queue.add hAdd, (Queue.linkCapacity_add hAdd).trans h.linkCapacity, ?_⟩
      show t.read ++ queue.waiting = t.accepted ++ [p]
      rw [Queue.waiting_add hAdd, ← List.append_assoc, h.fifo]
  | transfer s tokens =>
    have hReads := t.queue.reads_transfer s tokens
    refine ⟨h.queue.transfer s tokens, hReads.linkCapacity.trans h.linkCapacity, ?_⟩
    -- what is read now is what waited in front
    calc t.read ++ t.queue.due s ++ (t.queue.transfer s tokens).queue.waiting
        = t.read ++ (t.queue.due s ++ (t.queue.transfer s tokens).queue.waiting) :=
          List.append_assoc ..
      _ = t.read ++ t.queue.waiting := congrArg _ (h.queue.waiting_transfer s tokens)
      _ = t.accepted := h.fifo
  | share budget => exact ⟨h.queue, h.linkCapacity, h.fifo⟩

theorem Sound.run (h : t.Sound linkCapacity) (turns : List Turn) :
    (t.run turns).Sound linkCapacity := by
  induction turns generalizing t with
  | nil => exact h
  | cons turn rest ih => exact ih (h.step turn)

/-- What a queue keeps to, whatever stack in use it is read into. -/
structure FirstInFirstOut (linkCapacity : Nat) (t : Passage) : Prop where
  /-- What was read and what waits is what was accepted, in order. -/
  fifo : t.read ++ t.queue.waiting = t.accepted
  refuses : ∀ p, t.queue.add p t.budget = none ↔
    t.queue.back.written = linkCapacity ∧ t.budget < linkCapacity
  /-- What a transfer reads waits in front, and in one link. -/
  reads : ∀ s tokens,
    t.queue.due s ++ (t.queue.transfer s tokens).queue.waiting = t.queue.waiting ∧
      ∃ link ∈ t.queue.links, t.queue.due s <+: link.waiting
  /-- No more is read than the stack may still hold, and something if it may hold anything. -/
  room : ∀ c uses, let s := ((Usage.start c).run uses).stack
    s.size + (t.queue.due s).length ≤ c.maxCapacityPerThread ∧
      (s.size < c.maxCapacityPerThread → t.queue.waiting ≠ [] → t.queue.due s ≠ [])
  /-- Of what is read, the filter alone decides what comes to the stack. -/
  comes : ∀ c uses, let u := (Usage.start c).run uses
    let trials := u.stack.sift u.tokens (t.queue.due u.stack)
    (t.queue.transfer u.stack u.tokens).stack.entries = letThrough trials ++ u.stack.entries ∧
      (t.queue.transfer u.stack u.tokens).refused = turnedAway trials

/-- However a queue is added to and read, its items come out in the order in which they were
accepted, and none of them is lost for lack of room. -/
theorem run_first_in_first_out (hPos : 0 < linkCapacity) (budget : Nat) (turns : List Turn) :
    ((opened linkCapacity budget).run turns).FirstInFirstOut linkCapacity := by
  have hSound := (sound_opened hPos budget).run turns
  refine ⟨hSound.fifo, fun p => ?_, fun s tokens => ?_, fun c uses => ?_, fun c uses => ?_⟩
  · rw [Queue.add_eq_none_iff, hSound.linkCapacity]
  · exact ⟨hSound.queue.waiting_transfer s tokens, Queue.due_prefix _ s⟩
  · have hStack := (Usage.sound_start c).run uses
    rw [← hStack.maxCapacity]
    exact ⟨Queue.size_add_due_le hStack.stack _, hSound.queue.due_ne_nil hStack.stack⟩
  · exact Queue.transfer_sift ((Usage.sound_start c).run uses).stack _ _

/-- Links of two slots and a budget for one more: the fifth item is refused. A stack for three takes
the first link, then one item of the second. -/
theorem run_first_in_first_out_five_items :
    0 < 2 ∧
      let item (id : Nat) : Pooled := ⟨.plain id, .inert⟩
      let c : RecyclerConfig :=
        { maxCapacityPerThread := 3, ratio := 1, maxDelayedQueuesPerThread := 1 }
      let full : Usage := (Usage.start c).run [.push (item 8), .push (item 9)]
      let turns : List Turn := [.add (item 0), .add (item 1), .add (item 2), .add (item 3),
        .add (item 4), .transfer (Usage.start c).stack #[], .transfer full.stack full.tokens]
      let t := (opened 2 2).run turns
      t.FirstInFirstOut 2 ∧ t.accepted.map (·.item.id) = [0, 1, 2, 3] ∧
        t.read.map (·.item.id) = [0, 1, 2] ∧ t.budget = 2 := by
  refine ⟨by decide, run_first_in_first_out (by decide) 2 _, ?_, ?_, ?_⟩
  · decide +kernel
  · decide +kernel
  · decide +kernel

end Passage

end BlockPool.Recycling
