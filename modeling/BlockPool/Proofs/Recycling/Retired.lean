import BlockPool.Proofs.Recycling.Filter
import BlockPool.Proofs.Recycling.Visible

/-!
# BlockPool — queues that are given up

A look gives up the queues that it comes to whose thread has exited, once a transfer from them
brings nothing. It drains them first, and drops what still waits after that.

Nothing still waits if there is no filter and the stack is not full. With a filter the drain may
end early: at a batch that the filter turned away whole. If the filter lets an item of each full
link through, that happens only where the stack is within a link of its bound; if it does not, it
may happen anywhere.

* `Retired` — a queue that is given up, as a look comes to it.
* `Home.retirements` — the queues that the next look gives up.
* `Home.numQueues_scavenge` — these are gone after it, and no others.
* `Recyclers.run_retired_drained` — what was read of them, after any run.
-/

namespace BlockPool.Recycling

/-- A queue of a thread that has exited, at the moment a look comes to it that gives it up. -/
structure Retired where
  queue : Queue
  stack : Stack
  tokens : Tokens

namespace Retired

variable {r : Retired} {c : RecyclerConfig}

/-- The transfer that brings nothing. -/
def first (r : Retired) : Queue.Transfer := r.queue.transfer r.stack r.tokens

/-- The drain that follows. -/
def last (r : Retired) : Queue.Transfer :=
  r.first.queue.drain r.first.stack r.first.tokens

/-- The items that were read and that the filter turned away. -/
def refused (r : Retired) : List Pooled := r.first.refused ++ r.last.refused

/-- The items that were not read. -/
def unread (r : Retired) : List Pooled := r.last.queue.waiting

/-- What was read of a queue that is given up, for the limits of its recycler. -/
structure Drains (r : Retired) (c : RecyclerConfig) : Prop where
  /-- Each item that waited is on the stack, was turned away or was not read. -/
  items : (r.refused ++ (r.last.stack.entries ++ r.unread)).Perm
    (r.stack.entries ++ r.queue.waiting)
  /-- All was read, or the stack is full, or the filter turned away all of the last batch. -/
  stops : r.unread = [] ∨ r.last.stack.size = c.maxCapacityPerThread ∨ r.last.TurnedAway
  /-- With a filter that lets an item of each full link through, all was read, or the stack is
  within a link of its bound. -/
  bounded : c.ratio ≤ c.linkCapacity →
    r.unread = [] ∨ c.maxCapacityPerThread < r.last.stack.size + c.linkCapacity
  /-- Without a filter, all was read, or the stack is full. -/
  unfiltered : c.ratio = 1 → r.unread = [] ∨ r.last.stack.size = c.maxCapacityPerThread

/-- The queue and the stack keep to the limits of their recycler. -/
structure Sound (r : Retired) (c : RecyclerConfig) : Prop where
  queue : r.queue.Sound
  stack : r.stack.Sound
  maxCapacity : r.stack.maxCapacity = c.maxCapacityPerThread
  ratio : r.stack.ratio = c.ratio
  linkCapacity : r.queue.linkCapacity = c.linkCapacity

/-- The queue of a thread that is gone is read to its end, unless the stack is full or the filter
turned a batch away. -/
theorem Sound.drains (h : r.Sound c) (hRatio : 0 < c.ratio) : r.Drains c := by
  have hFirst : r.first.queue.Sound := h.queue.transfer r.stack r.tokens
  have hStack : r.first.stack.Sound := Queue.sound_stack_transfer h.stack r.queue r.tokens
  have hSettled : r.first.queue.Settled r.first.stack := h.queue.settled_transfer h.stack r.tokens
  have hReads : r.queue.Reads r.stack r.tokens r.first := r.queue.reads_transfer r.stack r.tokens
  have hLast : r.first.queue.Reads r.first.stack r.first.tokens r.last :=
    r.first.queue.reads_drain r.first.stack r.first.tokens
  have hMax : r.first.stack.maxCapacity = c.maxCapacityPerThread :=
    hReads.maxCapacity.trans h.maxCapacity
  have hSameRatio : r.first.stack.ratio = c.ratio := hReads.ratio.trans h.ratio
  have hLink : r.first.queue.linkCapacity = c.linkCapacity :=
    hReads.linkCapacity.trans h.linkCapacity
  have hEnds : r.first.queue.Ends r.first.stack r.last :=
    hFirst.ends_drain hStack hSettled (hSameRatio ▸ hRatio) r.first.tokens
  have hStops := hEnds.stops
  have hBounded := hEnds.bounded
  rw [hMax] at hStops hBounded
  rw [hSameRatio, hLink] at hBounded
  refine ⟨?_, hStops, hBounded, fun hOne => ?_⟩
  -- all that waited is on the stack, was refused or is unread
  · have hTransfer : (r.first.refused ++ (r.first.stack.entries ++ r.first.queue.waiting)).Perm
        (r.stack.entries ++ r.queue.waiting) := h.queue.perm_transfer r.stack r.tokens
    have hDrain := hFirst.perm_drain r.first.stack r.first.tokens
    rw [refused, unread, last, List.append_assoc]
    exact (hDrain.append_left _).trans hTransfer
  · rcases hStops with hNone | hFull | ⟨s, tokens, batch, hSome, hShort, -⟩
    · exact .inl hNone
    · exact .inr hFull
    · -- without a filter no batch is turned away
      have hRatioLast : r.last.stack.ratio = 1 := hLast.ratio.trans (hSameRatio.trans hOne)
      rw [hRatioLast, Nat.lt_one_iff] at hShort
      exact absurd (List.length_eq_zero_iff.mp hShort) hSome

end Retired

namespace Home

variable {h : Home} {tokens : Tokens} {c : RecyclerConfig} {i : Inbound}

-- ---------------------------------------------------------------------------
-- The queues that a look gives up
-- ---------------------------------------------------------------------------

/-- The queues that a look over so many queues gives up. -/
def retired : Nat → Home → Tokens → List Retired
  | 0, _, _ => []
  | count + 1, h, tokens =>
    match h.queues[h.cursor]? with
    | none => []
    | some i =>
      let first := i.queue.transfer h.stack tokens
      let after := h.afterTransfer i first
      if first.moved then []
      else if i.sender.isSome then
        retired count { after with cursor := h.cursor + 1 } first.tokens
      else
        let last := first.queue.drain after.stack first.tokens
        ⟨i.queue, h.stack, tokens⟩ ::
          if last.moved then [] else retired count (after.afterRetiring last) last.tokens

/-- The queues that the next look gives up. -/
def retirements (h : Home) (tokens : Tokens) : List Retired :=
  retired (h.inbound.length - h.start) { h.adopt with cursor := h.start } tokens

theorem numQueues_eq_length (h : Home) : h.numQueues = h.queues.length + h.pending.length :=
  List.length_append

theorem numQueues_afterTransfer (h : Home) (i : Inbound) (t : Queue.Transfer) :
    (h.afterTransfer i t).numQueues = h.numQueues := by
  rw [numQueues_eq_length, numQueues_eq_length]
  show (h.queues.set h.cursor _).length + h.pending.length = _
  rw [List.length_set]

theorem numQueues_afterRetiring (hLt : h.cursor < h.queues.length) (t : Queue.Transfer) :
    (h.afterRetiring t).numQueues + 1 = h.numQueues := by
  rw [numQueues_eq_length, numQueues_eq_length]
  show (h.queues.eraseIdx h.cursor).length + h.pending.length + 1 = _
  rw [List.length_eraseIdx_of_lt hLt]
  omega

/-- A look leaves as many queues as there were, less those it retires. -/
theorem numQueues_look (count : Nat) (h : Home) (tokens : Tokens) :
    (look count h tokens).home.numQueues + (retired count h tokens).length = h.numQueues := by
  induction count generalizing h tokens with
  | zero => rfl
  | succ count ih =>
    rw [look, retired]
    cases hAt : h.queues[h.cursor]? with
    | none => rfl
    | some i =>
      have hLt := (List.getElem?_eq_some_iff.mp hAt).1
      have hVisited := h.numQueues_afterTransfer i (i.queue.transfer h.stack tokens)
      dsimp only
      split
      · exact hVisited
      · split
        · exact (ih ..).trans hVisited
        · generalize (i.queue.transfer h.stack tokens) = first at hVisited
          have hLt' : (h.afterTransfer i first).cursor <
              (h.afterTransfer i first).queues.length := by
            show h.cursor < (h.queues.set h.cursor _).length
            rwa [List.length_set]
          -- one queue goes, and the look ends there or goes on with the others
          have hGone := numQueues_afterRetiring hLt'
            (first.queue.drain (h.afterTransfer i first).stack first.tokens)
          rw [List.length_cons]
          split
          · simp only [List.length_nil]
            omega
          · have hOthers := ih ((h.afterTransfer i first).afterRetiring
              (first.queue.drain (h.afterTransfer i first).stack first.tokens))
              (first.queue.drain (h.afterTransfer i first).stack first.tokens).tokens
            dsimp only
            omega

/-- Those that a look gives up are gone after it. -/
theorem numQueues_scavenge (h : Home) (tokens : Tokens) :
    (h.scavenge tokens).home.numQueues + (h.retirements tokens).length = h.numQueues := by
  have hLook :=
    numQueues_look (h.inbound.length - h.start) { h.adopt with cursor := h.start } tokens
  have hSame : ({ h.adopt with cursor := h.start } : Home).numQueues = h.numQueues :=
    congrArg List.length h.inbound_adopt
  rw [hSame] at hLook
  rw [scavenge_eq]
  dsimp only
  split
  · exact hLook
  · exact hLook

/-- They are queues ahead of the look, and of threads that have exited. -/
theorem retired_sublist (count : Nat) (h : Home) (tokens : Tokens) :
    ((retired count h tokens).map fun r => (⟨none, r.queue⟩ : Inbound)).Sublist
      (h.queues.drop h.cursor) := by
  induction count generalizing h tokens with
  | zero => exact List.nil_sublist _
  | succ count ih =>
    rw [retired]
    cases hAt : h.queues[h.cursor]? with
    | none => exact List.nil_sublist _
    | some i =>
      obtain ⟨hLt, hGet⟩ := List.getElem?_eq_some_iff.mp hAt
      rw [List.drop_eq_getElem_cons hLt, hGet]
      dsimp only
      split
      · exact List.nil_sublist _
      · split
        · have hOthers := ih { h.afterTransfer i (i.queue.transfer h.stack tokens) with
            cursor := h.cursor + 1 } (i.queue.transfer h.stack tokens).tokens
          -- a queue that stays is passed, and the others lie behind it
          have hDrop : (h.queues.set h.cursor
              { i with queue := (i.queue.transfer h.stack tokens).queue }).drop (h.cursor + 1) =
                h.queues.drop (h.cursor + 1) := List.drop_set_of_lt (Nat.lt_succ_self _)
          exact (hDrop ▸ hOthers).cons i
        · rename_i hGone
          have hSender : i = ⟨none, i.queue⟩ := by
            rw [Option.not_isSome_iff_eq_none] at hGone
            rw [← hGone]
          generalize (i.queue.transfer h.stack tokens) = first
          rw [List.map_cons, ← hSender]
          refine List.Sublist.cons_cons i ?_
          split
          · exact List.nil_sublist _
          · have hOthers := ih ((h.afterTransfer i first).afterRetiring
              (first.queue.drain (h.afterTransfer i first).stack first.tokens))
              (first.queue.drain (h.afterTransfer i first).stack first.tokens).tokens
            -- one that goes makes room for those behind it, so the cursor stands still
            have hDrop : ((h.queues.set h.cursor { i with queue := first.queue }).eraseIdx
                h.cursor).drop h.cursor = h.queues.drop (h.cursor + 1) := by
              rw [List.eraseIdx_set_eq, List.eraseIdx_eq_take_drop_succ,
                List.drop_left' (by simp; omega)]
            exact hDrop ▸ hOthers

theorem retirements_sublist (h : Home) (tokens : Tokens) :
    ((h.retirements tokens).map fun r => (⟨none, r.queue⟩ : Inbound)).Sublist h.ahead :=
  retired_sublist _ { h.adopt with cursor := h.start } tokens

/-- A look comes to them within the limits of the recycler. -/
theorem sound_retired (count : Nat) (hSound : h.Sound c) (tokens : Tokens) :
    ∀ r ∈ retired count h tokens, r.Sound c := by
  induction count generalizing h tokens with
  | zero => exact fun r hr => absurd hr List.not_mem_nil
  | succ count ih =>
    rw [retired]
    cases hAt : h.queues[h.cursor]? with
    | none => exact fun r hr => absurd hr List.not_mem_nil
    | some i =>
      have hVisited := (lookKept_sound c).transfer tokens hAt hSound
      have hAgain := List.getElem?_set_self (a := { i with queue :=
        (i.queue.transfer h.stack tokens).queue }) (List.getElem?_eq_some_iff.mp hAt).1
      dsimp only
      split
      · exact fun r hr => absurd hr List.not_mem_nil
      · split
        · exact ih ((lookKept_sound c).cursor _ hVisited) _
        · rename_i hGone
          -- the others are looked at within the limits as well, from where it went
          have hRetired := (lookKept_sound c).retire (i.queue.transfer h.stack tokens).tokens
            hAgain (by simpa using hGone) hVisited
          intro r hr
          rcases List.mem_cons.mp hr with rfl | hOther
          · obtain ⟨hShape, hLink⟩ :=
              hSound.queues i (List.mem_append_left _ (List.mem_of_getElem? hAt))
            exact ⟨hShape, hSound.stack, hSound.maxCapacity, hSound.ratio, hLink⟩
          · split at hOther
            · exact absurd hOther List.not_mem_nil
            · exact ih hRetired _ r hOther

theorem Sound.drains_retirements (hSound : h.Sound c) (hRatio : 0 < c.ratio) (tokens : Tokens) :
    ∀ r ∈ h.retirements tokens, r.Drains c := by
  intro r hr
  have hKept := (lookKept_sound c).cursor h.start ((lookKept_sound c).adopt hSound)
  exact (sound_retired _ hKept tokens r hr).drains hRatio

end Home

namespace Recyclers

variable {s : Recyclers} {thread recycler : Nat}

-- ---------------------------------------------------------------------------
-- What a thread gives up
-- ---------------------------------------------------------------------------

/-- The queues that a thread gives up when it looks for items. -/
def retirements (s : Recyclers) (thread recycler : Nat) : List Retired :=
  (s.stackOf thread recycler).retirements s.tokens

/-- The stack of a thread has lost so many of its queues. -/
def Loses (s s' : Recyclers) (thread recycler count : Nat) : Prop :=
  ∃ after, s'.home? (s.ensureHome thread recycler).1 = some after ∧
    after.numQueues + count = (s.stackOf thread recycler).numQueues

/-- The queues that a look gives up are gone after it, and no others. -/
theorem loses_scavenge (s : Recyclers) (thread recycler : Nat) :
    s.Loses (s.scavenge (.thread thread) recycler).2 thread recycler
      (s.retirements thread recycler).length := by
  have hLooked := home?_scavengeHome (s.home?_ensureHome thread recycler)
  have hQueues := (s.stackOf thread recycler).numQueues_scavenge s.tokens
  rw [s.tokens_ensureHome] at hLooked
  exact ⟨_, hLooked, hQueues⟩

/-- So it is where a thread with an empty stack gets an item. -/
theorem loses_get (hEnabled : (s.config recycler).isDisabled = false)
    (hStack : (s.stackOf thread recycler).stack.entries = []) :
    s.Loses (s.get (.thread thread) recycler).2 thread recycler
      (s.retirements thread recycler).length := by
  obtain ⟨after, hAfter, hQueues⟩ := s.loses_scavenge thread recycler
  obtain ⟨id, s', hRefill, home, hHome, -, -, hLent⟩ := get_of_enabled hEnabled thread
  obtain ⟨hId, hState⟩ := Prod.mk.inj (hRefill.symm.trans (refill_of_empty hStack))
  have hSame : after = home := by
    rw [hId, hState] at hHome
    exact Option.some.inj (hAfter.symm.trans hHome)
  rw [hSame] at hQueues
  rw [Loses, ← hId]
  rcases hLent with ⟨p, entries, -, hGet⟩ | ⟨-, hGet⟩
  · refine ⟨{ home with stack := { home.stack with entries } }, ?_, hQueues⟩
    rw [hGet]
    show (s'.setHome id _).home? id = _
    rw [home?_setHome (lt_size_of_home? hHome), if_pos rfl]
  · refine ⟨home, ?_, hQueues⟩
    rw [hGet]
    show s'.home? id = _
    exact hHome

/-- After any run: the queues that a thread gives up when it looks for items are queues towards its
stack whose threads have exited, and they are gone after the look. Of each of them all was read, or
the stack was full, or the filter turned away all of the last batch. With a filter that lets an item
of each full link through, all was read, or the stack was within a link of its bound; and without a
filter, all was read, or the stack was full. -/
theorem run_retired_drained (configs : Array RecyclerConfig) (ops : List Op)
    (thread recycler : Nat) (hValid : ((create configs).config recycler).validate = .ok ()) :
    let s := (create configs).run ops
    let c := (create configs).config recycler
    let home := s.stackOf thread recycler
    let retired := s.retirements thread recycler
    (∀ r ∈ retired, r.Drains c) ∧
    (retired.map fun r => (⟨none, r.queue⟩ : Inbound)).Sublist home.inbound ∧
    s.Loses (s.scavenge (.thread thread) recycler).2 thread recycler retired.length ∧
    (c.isDisabled = false → home.stack.entries = [] →
      s.Loses (s.get (.thread thread) recycler).2 thread recycler retired.length) := by
  intro s c home retired
  have hSound : home.Sound c :=
    sound_run configs ops thread recycler (RecyclerConfig.linkCapacity_pos hValid)
  refine ⟨hSound.drains_retirements (RecyclerConfig.ratio_pos hValid) s.tokens,
    (home.retirements_sublist s.tokens).trans (List.drop_sublist ..),
    s.loses_scavenge thread recycler, fun hEnabled hStack => loses_get ?_ hStack⟩
  rw [config_run]
  exact hEnabled

/-- One recycler with a filter. -/
def filtered (ratio : Nat) : Array RecyclerConfig := #[{ RecyclerConfig.defaults 1 with ratio }]

/-- A thread lends some items and gives the first of them back, which its filter lets through.
Another one gives the others back, and exits. -/
def exitedAfter (count : Nat) : List Op :=
  (List.range (count + 1)).map (fun _ => .get (.thread 0) 0) ++
    (List.range (count + 1)).map (fun i =>
      .recycle (.thread (if i = 0 then 0 else 1)) 0 ⟨.plain i, .live i⟩) ++ [.exit 1]

theorem run_retired_drained_after_fifteen :
    ∃ r, ((create (filtered 16)).run (exitedAfter 15)).retirements 0 0 = [r] ∧
      r.queue.waiting.length = 15 ∧ r.last.stack.size = 1 ∧ r.unread = [] := by
  have hSeen : (((create (filtered 16)).run (exitedAfter 15)).retirements 0 0).map (fun r =>
      (r.queue.waiting.length, r.last.stack.size)) = [(15, 1)] := by decide +kernel
  obtain ⟨r, hRetired, hBoth⟩ := List.map_eq_singleton_iff.mp hSeen
  obtain ⟨hWaiting, hSize⟩ := Prod.mk.inj hBoth
  obtain ⟨hDrains, -⟩ := run_retired_drained (filtered 16) (exitedAfter 15) 0 0 rfl
  have hBounded := (hDrains r (hRetired ▸ List.mem_singleton_self r)).bounded (by decide)
  refine ⟨r, hRetired, hWaiting, hSize, hBounded.resolve_right ?_⟩
  rw [hSize]
  decide

/-- A filter that lets one of sixty-four items through turns away all of the first two links, and
the two that follow them are dropped unread, although the stack is all but empty. -/
theorem retired_unread_after_sixty_four :
    let s := (create (filtered 64)).run (exitedAfter 64)
    (∃ r ∈ s.retirements 0 0, r.queue.waiting.length = 64 ∧ r.unread.length = 32 ∧
      r.last.stack.size < (s.config 0).maxCapacityPerThread) ∧
    (s.scavenge (.thread 0) 0).1 = false ∧
      ((s.scavenge (.thread 0) 0).2.stackOf 0 0).numQueues = 0 := by
  decide +kernel

end Recyclers

end BlockPool.Recycling
