import BlockPool.Recycling.Home
import BlockPool.Proofs.Recycling.Queue

/-!
# BlockPool — what waits at a stack

The items that wait at a stack are those on it and those in the queues towards it. One that is given
back joins them; a look at the queues moves them to the stack, where some are turned away, and the
queue of a thread that has exited goes once it was drained.

* `Home.entries` — the items that wait.
* `Home.senders` — the threads that write a queue.
* `Home.Gathers` — what a look at the queues does with the items.
* `Home.scavenge_keeps` — what every step of a look keeps, a look keeps.
-/

namespace BlockPool.Recycling.Home

variable {h h' : Home} {tokens : Tokens} {p : Pooled} {c : RecyclerConfig} {i : Inbound}
  {queue queue' : Queue} {sender : Nat} {haul : Haul}

/-- The items that wait at a stack. -/
def entries (h : Home) : List Pooled :=
  h.stack.entries ++ h.inbound.flatMap (·.queue.waiting)

/-- The threads that write a queue towards a stack. -/
def senders (h : Home) : List Nat := h.inbound.filterMap (·.sender)

theorem entries_empty (recycler thread : Nat) (c : RecyclerConfig) :
    (empty recycler thread c).entries = [] := rfl

theorem inbound_mapInbound (h : Home) (f : Inbound → Inbound) :
    (h.mapInbound f).inbound = h.inbound.map f :=
  List.map_append.symm

-- ---------------------------------------------------------------------------
-- Items from other threads
-- ---------------------------------------------------------------------------

/-- The queue of a thread among the queues, where no two are of one thread. -/
theorem exists_inbound (hNodup : h.senders.Nodup) (hQueue : h.queueFrom? sender = some queue) :
    ∃ before after, h.inbound = before ++ ⟨some sender, queue⟩ :: after ∧
      ∀ i ∈ before ++ after, i.sender ≠ some sender := by
  obtain ⟨i, hFind, rfl⟩ := Option.map_eq_some_iff.mp hQueue
  obtain ⟨hSender, before, after, hSplit, hBefore⟩ := List.find?_eq_some_iff_append.mp hFind
  have hSame : i.sender = some sender := by simpa using hSender
  refine ⟨before, after, ?_, fun other hOther hEq => ?_⟩
  · rw [hSplit, ← hSame]
  · rcases List.mem_append.mp hOther with hIn | hIn
    · exact absurd (hBefore other hIn) (by simp [hEq])
    · -- another queue of the same thread further on would name it twice
      rw [senders, hSplit, List.filterMap_append, List.filterMap_cons_some hSame] at hNodup
      have hLater := (List.nodup_append.mp hNodup).2.1
      exact (List.nodup_cons.mp hLater).1 (List.mem_filterMap.mpr ⟨other, hIn, hEq⟩)

/-- Another queue in the place of a thread's. -/
theorem inbound_setQueueFrom {before after : List Inbound}
    (hSplit : h.inbound = before ++ ⟨some sender, queue⟩ :: after)
    (hOthers : ∀ i ∈ before ++ after, i.sender ≠ some sender) (queue' : Queue) :
    (h.setQueueFrom sender queue').inbound = before ++ ⟨some sender, queue'⟩ :: after := by
  have hKeep : ∀ others : List Inbound, (∀ i ∈ others, i ∈ before ++ after) →
      (others.map fun i => if i.sender = some sender then { i with queue := queue' } else i) =
        others := by
    intro others hIn
    refine (List.map_congr_left fun i hi => ?_).trans (List.map_id _)
    exact if_neg (hOthers i (hIn i hi))
  rw [setQueueFrom, inbound_mapInbound, hSplit, List.map_append, List.map_cons,
    hKeep before fun i hi => List.mem_append_left _ hi,
    hKeep after fun i hi => List.mem_append_right _ hi, if_pos rfl]

theorem addFrom?_eq_some (hAdd : h.addFrom? sender p = some h') :
    ∃ queue queue' budget, h.queueFrom? sender = some queue ∧
      queue.add p h.budget = some (queue', budget) ∧
        h' = { h.setQueueFrom sender queue' with budget } := by
  simp only [addFrom?, Option.bind_eq_bind, Option.bind_eq_some_iff, Option.pure_def,
    Option.some.injEq] at hAdd
  obtain ⟨queue, hQueue, ⟨queue', budget⟩, hAdd, rfl⟩ := hAdd
  exact ⟨queue, queue', budget, hQueue, hAdd, rfl⟩

theorem openFrom?_eq_some {linkCapacity : Nat}
    (hOpen : h.openFrom? sender linkCapacity p = some h') :
    ∃ queue budget, (Queue.fresh linkCapacity).add p (h.budget - linkCapacity) =
        some (queue, budget) ∧
      h' = { h with pending := h.pending ++ [⟨some sender, queue⟩], budget } := by
  unfold openFrom? at hOpen
  split at hOpen
  · exact absurd hOpen (by simp)
  · simp only [Option.bind_eq_bind, Option.bind_eq_some_iff, Option.pure_def,
      Option.some.injEq] at hOpen
    obtain ⟨⟨queue, budget⟩, hAdd, rfl⟩ := hOpen
    exact ⟨queue, budget, hAdd, rfl⟩

/-- An item that was written into the queue of a thread waits beside the others. -/
theorem entries_addFrom? (hNodup : h.senders.Nodup) (hAdd : h.addFrom? sender p = some h') :
    h'.entries.Perm (p :: h.entries) ∧ h'.senders = h.senders := by
  obtain ⟨queue, queue', budget, hQueue, hAdded, rfl⟩ := addFrom?_eq_some hAdd
  obtain ⟨before, after, hSplit, hOthers⟩ := exists_inbound hNodup hQueue
  have hInbound := inbound_setQueueFrom hSplit hOthers queue'
  constructor
  · show (h.stack.entries ++ (h.setQueueFrom sender queue').inbound.flatMap _).Perm _
    rw [entries, hInbound, hSplit]
    simp only [List.flatMap_append, List.flatMap_cons, Queue.waiting_add hAdded,
      List.append_assoc, List.singleton_append]
    simp only [← List.append_assoc]
    exact List.perm_middle
  · show (h.setQueueFrom sender queue').inbound.filterMap _ = _
    rw [senders, hInbound, hSplit]
    simp only [List.filterMap_append, List.filterMap_cons]

/-- So does one that was written into a new queue. -/
theorem entries_openFrom? {linkCapacity : Nat}
    (hOpen : h.openFrom? sender linkCapacity p = some h') :
    h'.entries.Perm (p :: h.entries) ∧ h'.senders = h.senders ++ [sender] := by
  obtain ⟨queue, budget, hAdd, rfl⟩ := openFrom?_eq_some hOpen
  have hInbound : inbound { h with pending := h.pending ++ [⟨some sender, queue⟩], budget } =
      h.inbound ++ [⟨some sender, queue⟩] := (List.append_assoc ..).symm
  have hWaiting : queue.waiting = [p] := Queue.waiting_add hAdd
  constructor
  · rw [entries, hInbound, List.flatMap_append, List.flatMap_singleton, hWaiting,
      ← List.append_assoc]
    exact List.perm_append_singleton ..
  · rw [senders, hInbound, List.filterMap_append]
    rfl

-- ---------------------------------------------------------------------------
-- Looking for items
-- ---------------------------------------------------------------------------

/-- What a look does with the items that wait: each goes on waiting or is turned away. The threads
that write a queue stay the same. -/
structure Gathers (h : Home) (tokens : Tokens) (haul : Haul) : Prop where
  items : (haul.refused ++ haul.home.entries).Subperm h.entries
  tokens : tokens.Agree haul.tokens
  senders : haul.home.senders.Perm h.senders
  thread : haul.home.thread = h.thread
  recycler : haul.home.recycler = h.recycler

theorem gathers_refl (h : Home) (tokens : Tokens) : h.Gathers tokens ⟨false, h, tokens, []⟩ :=
  ⟨.refl _, .refl _, .refl _, rfl, rfl⟩

theorem Gathers.trans {first second : Haul} (hFirst : h.Gathers tokens first)
    (hSecond : first.home.Gathers first.tokens second) (found : Bool) :
    h.Gathers tokens { second with found, refused := first.refused ++ second.refused } where
  items := by
    refine List.Subperm.trans ?_ hFirst.items
    rw [List.append_assoc]
    exact (List.Subperm.refl _).append hSecond.items
  tokens := hFirst.tokens.trans hSecond.tokens
  senders := hSecond.senders.trans hFirst.senders
  thread := hSecond.thread.trans hFirst.thread
  recycler := hSecond.recycler.trans hFirst.recycler

/-- The queue at the cursor, and the others. -/
theorem inbound_perm (hAt : h.queues[h.cursor]? = some i) :
    h.inbound.Perm (i :: (h.queues.eraseIdx h.cursor ++ h.pending)) := by
  obtain ⟨hLt, rfl⟩ := List.getElem?_eq_some_iff.mp hAt
  exact (List.getElem_cons_eraseIdx_perm hLt).symm.append_right _

theorem inbound_afterTransfer (hAt : h.queues[h.cursor]? = some i) (t : Queue.Transfer) :
    (h.afterTransfer i t).inbound.Perm
      ({ i with queue := t.queue } :: (h.queues.eraseIdx h.cursor ++ h.pending)) :=
  (List.set_perm_cons_eraseIdx (List.getElem?_eq_some_iff.mp hAt).1 _).append_right _

/-- The items that wait, where those of one queue are set apart. -/
theorem entries_perm {others : List Inbound} (hPerm : h.inbound.Perm (i :: others)) :
    h.entries.Perm (h.stack.entries ++ i.queue.waiting ++ others.flatMap (·.queue.waiting)) := by
  rw [List.append_assoc]
  exact (hPerm.flatMap_right _).append_left _

theorem gathers_afterTransfer {t : Queue.Transfer} (hAt : h.queues[h.cursor]? = some i)
    (hReads : i.queue.Reads h.stack tokens t) (found : Bool) :
    h.Gathers tokens ⟨found, h.afterTransfer i t, t.tokens, t.refused⟩ where
  items := by
    have hAfter := entries_perm (inbound_afterTransfer hAt t)
    have hBefore := entries_perm (inbound_perm hAt)
    refine (hAfter.append_left _).subperm.trans (List.Subperm.trans ?_ hBefore.symm.subperm)
    rw [← List.append_assoc]
    exact hReads.items.append (List.Subperm.refl _)
  tokens := hReads.tokens
  senders := by
    have hAfter := (inbound_afterTransfer hAt t).filterMap (·.sender)
    have hBefore := (inbound_perm hAt).filterMap (·.sender)
    rw [List.filterMap_cons] at hAfter hBefore
    exact hAfter.trans hBefore.symm
  thread := rfl
  recycler := rfl

/-- A queue that is given up was drained; what it still held comes to nothing. -/
theorem gathers_afterRetiring {t : Queue.Transfer} (hAt : h.queues[h.cursor]? = some i)
    (hSender : i.sender = none) (hReads : i.queue.Reads h.stack tokens t) (found : Bool) :
    h.Gathers tokens ⟨found, h.afterRetiring t, t.tokens, t.refused ++ t.queue.waiting⟩ where
  items := by
    have hBefore := entries_perm (inbound_perm hAt)
    refine List.Subperm.trans ?_ hBefore.symm.subperm
    have hAll := hReads.items.append
      (List.Subperm.refl ((h.queues.eraseIdx h.cursor ++ h.pending).flatMap (·.queue.waiting)))
    refine List.Subperm.trans (List.Perm.subperm ?_) hAll
    show (t.refused ++ t.queue.waiting ++ (t.stack.entries ++ _)).Perm _
    simp only [List.append_assoc]
    exact (List.perm_append_comm_assoc ..).append_left _
  tokens := hReads.tokens
  senders := by
    refine List.Perm.trans ?_ ((inbound_perm hAt).filterMap _).symm
    rw [List.filterMap_cons_none hSender]
    exact .refl _
  thread := rfl
  recycler := rfl

/-- The cursor is nothing to the items. -/
theorem Gathers.setCursor (hGathers : h.Gathers tokens haul) (found : Bool) (cursor : Nat) :
    h.Gathers tokens ⟨found, { haul.home with cursor }, haul.tokens, haul.refused⟩ :=
  ⟨hGathers.items, hGathers.tokens, hGathers.senders, hGathers.thread, hGathers.recycler⟩

theorem Gathers.of_setCursor {cursor : Nat} (hGathers : { h with cursor }.Gathers tokens haul) :
    h.Gathers tokens haul :=
  ⟨hGathers.items, hGathers.tokens, hGathers.senders, hGathers.thread, hGathers.recycler⟩

/-- The queue of a thread that has exited is read, drained and given up. -/
theorem gathers_retire {first last : Queue.Transfer} (hAt : h.queues[h.cursor]? = some i)
    (hSender : i.sender = none) (hFirst : i.queue.Reads h.stack tokens first)
    (hLast : first.queue.Reads first.stack first.tokens last) (found : Bool) :
    h.Gathers tokens ⟨found, (h.afterTransfer i first).afterRetiring last, last.tokens,
      first.refused ++ last.refused ++ last.queue.waiting⟩ := by
  -- after the first transfer the queue is still the one at the cursor
  have hAgain : (h.afterTransfer i first).queues[(h.afterTransfer i first).cursor]? =
      some { i with queue := first.queue } :=
    List.getElem?_set_self (List.getElem?_eq_some_iff.mp hAt).1
  rw [List.append_assoc]
  exact (gathers_afterTransfer hAt hFirst found).trans
    (gathers_afterRetiring hAgain hSender hLast found) found

/-- A look brings what waited onto the stack, turns it away or leaves it, and makes no items. -/
theorem gathers_look (count : Nat) (h : Home) (tokens : Tokens) :
    h.Gathers tokens (look count h tokens) := by
  induction count generalizing h tokens with
  | zero => exact gathers_refl h tokens
  | succ count ih =>
    rw [look]
    split
    · exact gathers_refl h tokens
    · rename_i i hAt
      have hFirst := Queue.reads_transfer i.queue h.stack tokens
      generalize i.queue.transfer h.stack tokens = first at hFirst
      have hLast := Queue.reads_drain first.queue first.stack first.tokens
      have hVisited := gathers_afterTransfer hAt hFirst
      dsimp only
      split
      · exact hVisited true
      · split
        · exact (hVisited false).trans (ih ..).of_setCursor _
        · rename_i hGone
          have hRetired := gathers_retire hAt (by simpa using hGone) hFirst hLast
          split
          · exact hRetired true
          · exact (hRetired false).trans (ih ..) _

theorem inbound_adopt (h : Home) : h.adopt.inbound = h.inbound := List.append_nil _

theorem entries_adopt (h : Home) : h.adopt.entries = h.entries := by
  rw [entries, inbound_adopt]
  rfl

/-- The queue that the next look starts at: the one at the cursor, or the first one if the cursor is
past the end. -/
def start (h : Home) : Nat := if h.cursor ≥ h.inbound.length then 0 else h.cursor

/-- A look goes from its start to the last queue. -/
theorem scavenge_eq (h : Home) (tokens : Tokens) : h.scavenge tokens =
    let haul := look (h.inbound.length - h.start) { h.adopt with cursor := h.start } tokens
    if haul.found then haul else { haul with home := { haul.home with cursor := 0 } } := by
  unfold scavenge start
  dsimp only
  by_cases hPast : h.cursor ≥ h.inbound.length
  · rw [if_pos hPast, if_pos (show h.adopt.cursor ≥ h.adopt.queues.length from hPast)]
    rfl
  · rw [if_neg hPast, if_neg (show ¬ h.adopt.cursor ≥ h.adopt.queues.length from hPast)]
    rfl

theorem gathers_scavenge (h : Home) (tokens : Tokens) :
    h.Gathers tokens (h.scavenge tokens) := by
  have hAdopt : ∀ {haul}, h.adopt.Gathers tokens haul → h.Gathers tokens haul := by
    intro haul hGathers
    have hSenders : h.adopt.senders = h.senders := by rw [senders, inbound_adopt]; rfl
    exact ⟨h.entries_adopt ▸ hGathers.items, hGathers.tokens, hSenders ▸ hGathers.senders,
      hGathers.thread, hGathers.recycler⟩
  have hLook := hAdopt (gathers_look (h.inbound.length - h.start)
    { h.adopt with cursor := h.start } tokens).of_setCursor
  rw [scavenge_eq]
  dsimp only
  split
  · exact hLook
  · exact hLook.setCursor _ 0

/-- A property that every step of a look at the queues keeps. -/
structure LookKept (P : Home → Prop) : Prop where
  transfer : ∀ {h i} tokens, h.queues[h.cursor]? = some i → P h →
    P (h.afterTransfer i (i.queue.transfer h.stack tokens))
  retire : ∀ {h i} tokens, h.queues[h.cursor]? = some i → i.sender = none → P h →
    P (h.afterRetiring (i.queue.drain h.stack tokens))
  cursor : ∀ {h} cursor, P h → P { h with cursor }
  adopt : ∀ {h}, P h → P h.adopt

variable {P : Home → Prop}

/-- What every step of a look keeps the look keeps, wherever it ends. -/
theorem look_keeps (hKept : LookKept P) (count : Nat) (tokens : Tokens) (hP : P h) :
    P (look count h tokens).home := by
  induction count generalizing h tokens with
  | zero => exact hP
  | succ count ih =>
    rw [look]
    split
    · exact hP
    · rename_i i hAt
      have hVisited := hKept.transfer tokens hAt hP
      have hAgain := List.getElem?_set_self (a := { i with queue :=
        (i.queue.transfer h.stack tokens).queue }) (List.getElem?_eq_some_iff.mp hAt).1
      dsimp only
      split
      · exact hVisited
      · split
        · exact ih _ (hKept.cursor _ hVisited)
        · rename_i hGone
          have hRetired := hKept.retire (i.queue.transfer h.stack tokens).tokens hAgain
            (by simpa using hGone) hVisited
          split
          · exact hRetired
          · exact ih _ hRetired

/-- What every step of a look keeps, a look keeps. -/
theorem scavenge_keeps (hKept : LookKept P) (tokens : Tokens) (hP : P h) :
    P (h.scavenge tokens).home := by
  have hLook := look_keeps hKept (h.inbound.length - h.start) tokens
    (hKept.cursor h.start (hKept.adopt hP))
  rw [scavenge_eq]
  dsimp only
  split
  · exact hLook
  · exact hKept.cursor 0 hLook

end BlockPool.Recycling.Home
