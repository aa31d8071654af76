import BlockPool.Proofs.Recycling.Bounds
import BlockPool.Proofs.Recycling.Lent

/-!
# BlockPool — what a look at the queues finds

Without a filter, a look at the queues towards an empty stack brings something exactly if something
waits in one of the queues that it covers. These are not always all: a look goes from the cursor to
the end, and the cursor stays at a queue that brought something. A look that brings nothing leaves
everything where it was and starts over with the first queue the next time, so of two looks in a row
one finds what waits.

* `Home.ahead` — the queues that the next look covers.
* `Home.sees_scavenge` — what the look finds.
* `Recyclers.run_waiting_visible` — what threads see of it, after any run.
-/

namespace BlockPool.Recycling

namespace Home

variable {h h' : Home} {tokens : Tokens} {c : RecyclerConfig} {i : Inbound}
  {queues : List Inbound} {haul : Haul}

/-- The queues that the next look covers. -/
def ahead (h : Home) : List Inbound := h.inbound.drop h.start

theorem ahead_of_cursor_zero (hCursor : h.cursor = 0) : h.ahead = h.inbound := by
  rw [ahead, start, hCursor, ite_self, List.drop_zero]

/-- A queue holds something. -/
def AnyWaits (queues : List Inbound) : Prop := ∃ i ∈ queues, i.queue.waiting ≠ []

instance (queues : List Inbound) : Decidable (AnyWaits queues) :=
  inferInstanceAs (Decidable (∃ i ∈ queues, i.queue.waiting ≠ []))

/-- What a look at some queues towards an empty stack comes to. -/
inductive Sees (h : Home) (queues : List Inbound) (haul : Haul) : Prop where
  /-- One of the queues holds something, and the stack has got it. -/
  | brings (hFound : haul.found = true) (hWaits : AnyWaits queues)
      (hStack : haul.home.stack.entries ≠ [])
  /-- The queues hold nothing, and what waits goes on waiting. -/
  | nothing (hFound : haul.found = false) (hNone : ∀ i ∈ queues, i.queue.waiting = [])
      (hStack : haul.home.stack.entries = []) (hRefused : haul.refused = [])
      (hEntries : haul.home.entries.Perm h.entries)

/-- A queue that held nothing is left with nothing. -/
theorem entries_afterTransfer_nothing {t : Queue.Transfer} (hAt : h.queues[h.cursor]? = some i)
    (hStack : h.stack.entries = []) (hNone : i.queue.waiting = [])
    (hAfter : t.stack.entries = []) (hLeft : t.queue.waiting = []) :
    (h.afterTransfer i t).entries.Perm h.entries := by
  have hBefore := entries_perm (inbound_perm hAt)
  have hNow := entries_perm (inbound_afterTransfer hAt t)
  rw [hStack, hNone] at hBefore
  rw [show (h.afterTransfer i t).stack.entries = [] from hAfter, hLeft] at hNow
  exact hNow.trans hBefore.symm

theorem entries_afterRetiring_nothing {t : Queue.Transfer} (hAt : h.queues[h.cursor]? = some i)
    (hStack : h.stack.entries = []) (hNone : i.queue.waiting = [])
    (hAfter : t.stack.entries = []) : (h.afterRetiring t).entries.Perm h.entries := by
  have hBefore := entries_perm (inbound_perm hAt)
  rw [hStack, hNone] at hBefore
  rw [entries, show (h.afterRetiring t).stack.entries = [] from hAfter]
  exact hBefore.symm

/-- A look passes over a queue that holds nothing; that of a thread that is gone goes too. -/
theorem look_passes (hSound : h.Sound c) (hAt : h.queues[h.cursor]? = some i)
    (hStack : h.stack.entries = []) (hNone : i.queue.waiting = []) (count : Nat)
    (tokens : Tokens) : ∃ h' tokens', look (count + 1) h tokens = look count h' tokens' ∧
      h'.Sound c ∧ h'.stack.entries = [] ∧
        h'.queues.drop h'.cursor = h.queues.drop (h.cursor + 1) ∧ h'.entries.Perm h.entries := by
  have hMoved := Queue.moved_transfer_nothing hStack hNone tokens
  have hReads := i.queue.reads_transfer h.stack tokens
  have hVisited := (lookKept_sound c).transfer tokens hAt hSound
  rw [look, hAt]
  dsimp only
  generalize i.queue.transfer h.stack tokens = first at hMoved hReads hVisited
  obtain ⟨hRefused, hAfter, hLeft⟩ := hReads.nothing hStack hNone
  have hEntries := entries_afterTransfer_nothing hAt hStack hNone hAfter hLeft
  have hLt := (List.getElem?_eq_some_iff.mp hAt).1
  rw [hMoved, hRefused, if_neg (by simp)]
  split
  · refine ⟨{ h.afterTransfer i first with cursor := h.cursor + 1 }, first.tokens, rfl,
      (lookKept_sound c).cursor _ hVisited, hAfter, ?_, hEntries⟩
    exact List.drop_set_of_lt (Nat.lt_succ_self _)
  · rename_i hGone
    have hAgain : (h.afterTransfer i first).queues[(h.afterTransfer i first).cursor]? =
        some { i with queue := first.queue } := List.getElem?_set_self hLt
    have hRetired := (lookKept_sound c).retire first.tokens hAgain
      (by simpa using hGone) hVisited
    -- the queue that goes is read once more, and brings nothing
    have hStill : (first.queue.drain (h.afterTransfer i first).stack first.tokens).moved = false :=
      Queue.moved_drain_nothing hAfter hLeft _
    obtain ⟨hLost, hDrained, hNothing⟩ :=
      (first.queue.reads_drain (h.afterTransfer i first).stack first.tokens).nothing hAfter hLeft
    rw [hStill, hLost, hNothing, if_neg (by simp)]
    refine ⟨_, _, rfl, hRetired, hDrained, ?_,
      (entries_afterRetiring_nothing hAgain hAfter hLeft hDrained).trans hEntries⟩
    show ((h.queues.set h.cursor _).eraseIdx h.cursor).drop h.cursor = _
    rw [List.eraseIdx_set_eq, List.eraseIdx_eq_take_drop_succ, List.drop_left' (by simp; omega)]

/-- A look from the cursor to the end, towards an empty stack and without a filter. -/
theorem sees_look (count : Nat) (tokens : Tokens) (hSound : h.Sound c) (hRatio : c.ratio = 1)
    (hRoom : 1 ≤ c.maxCapacityPerThread) (hStack : h.stack.entries = [])
    (hCount : (h.queues.drop h.cursor).length = count) :
    h.Sees (h.queues.drop h.cursor) (look count h tokens) := by
  induction count generalizing h tokens with
  | zero =>
    rw [List.length_eq_zero_iff.mp hCount]
    exact .nothing rfl (fun _ hi => absurd hi (by simp)) hStack rfl (.refl _)
  | succ count ih =>
    have hLt : h.cursor < h.queues.length := by rw [List.length_drop] at hCount; omega
    have hAt : h.queues[h.cursor]? = some h.queues[h.cursor] := List.getElem?_eq_getElem hLt
    rw [List.drop_eq_getElem_cons hLt] at hCount ⊢
    generalize h.queues[h.cursor] = i at hAt hCount
    by_cases hNone : i.queue.waiting = []
    -- the first queue is passed over, and the rest is one look less
    · obtain ⟨h', tokens', hLook, hSound', hStack', hDrop, hEntries⟩ :=
        look_passes hSound hAt hStack hNone count tokens
      have hRest := ih tokens' hSound' hStack' (by rw [hDrop]; simpa using hCount)
      rw [hDrop] at hRest
      rw [hLook]
      cases hRest with
      | brings hFound hWaits hGot =>
        obtain ⟨j, hj, hWaiting⟩ := hWaits
        exact .brings hFound ⟨j, List.mem_cons_of_mem _ hj, hWaiting⟩ hGot
      | nothing hFound hOthers hStill hRefused hSame =>
        refine .nothing hFound (fun j hj => ?_) hStill hRefused (hSame.trans hEntries)
        rcases List.mem_cons.mp hj with rfl | hOther
        · exact hNone
        · exact hOthers j hOther
    · -- the queue holds something, and the stack has got it
      obtain ⟨hShape, -⟩ := hSound.queues i (List.mem_append_left _ (List.mem_of_getElem? hAt))
      have hSize : h.stack.size = 0 := by rw [Stack.size, hStack, List.length_nil]
      have hFree : h.stack.size < h.stack.maxCapacity := by rw [hSize, hSound.maxCapacity]; omega
      have hMoved :=
        (hShape.moved_iff hSound.stack (hSound.ratio.trans hRatio) hFree tokens).mpr hNone
      have hGrown : (i.queue.transfer h.stack tokens).stack.size ≠ h.stack.size :=
        of_decide_eq_true hMoved
      rw [look, hAt]
      dsimp only
      rw [hMoved, if_pos rfl]
      refine .brings rfl ⟨i, List.mem_cons_self, hNone⟩ fun hEmpty => hGrown ?_
      rw [hSize]
      exact List.length_eq_zero_iff.mpr hEmpty

/-- What a look finds, towards an empty stack and without a filter. After one that finds nothing the
next one covers all queues. -/
theorem sees_scavenge (hSound : h.Sound c) (hRatio : c.ratio = 1)
    (hRoom : 1 ≤ c.maxCapacityPerThread) (hStack : h.stack.entries = []) (tokens : Tokens) :
    h.Sees h.ahead (h.scavenge tokens) ∧
      ((h.scavenge tokens).found = false → (h.scavenge tokens).home.cursor = 0) := by
  have hSees := sees_look (h.inbound.length - h.start) tokens
    ((lookKept_sound c).cursor h.start ((lookKept_sound c).adopt hSound)) hRatio hRoom hStack
    List.length_drop
  rw [scavenge_eq]
  dsimp only
  cases hSees with
  | brings hFound hWaits hGot =>
    rw [if_pos hFound]
    exact ⟨.brings hFound hWaits hGot, fun hNot => absurd hFound (by simp [hNot])⟩
  | nothing hFound hNone hStill hRefused hSame =>
    rw [hFound, if_neg (by simp)]
    exact ⟨.nothing rfl hNone hStill hRefused (h.entries_adopt ▸ hSame), fun _ => rfl⟩

/-- If nothing came of a look that brought nothing, the next one finds what waits. -/
theorem Sees.missed (hSees : h.Sees queues haul) (hFound : haul.found = false)
    (hWaits : AnyWaits h.inbound) : AnyWaits haul.home.inbound := by
  cases hSees with
  | brings hSome => exact absurd hSome (by simp [hFound])
  | nothing hNot hNone hStack hRefused hEntries =>
    by_contra hGone
    have hNothing : haul.home.entries = [] := by
      rw [entries, hStack, List.nil_append, List.flatMap_eq_nil_iff]
      exact fun i hi => by_contra fun hSome => hGone ⟨i, hi, hSome⟩
    obtain ⟨i, hi, hWaiting⟩ := hWaits
    have hEmpty : h.entries = [] := List.Perm.eq_nil (hNothing ▸ hEntries).symm
    rw [entries, List.append_eq_nil_iff, List.flatMap_eq_nil_iff] at hEmpty
    exact hWaiting (hEmpty.2 i hi)

end Home

namespace Recyclers

variable {s s' : Recyclers} {home home' : Home} {c : RecyclerConfig} {thread recycler : Nat}

/-- The stack of a thread, which is made if there is none. -/
def stackOf (s : Recyclers) (thread recycler : Nat) : Home := (s.ensureHome thread recycler).2.1

-- ---------------------------------------------------------------------------
-- What a thread finds
-- ---------------------------------------------------------------------------

/-- After a look the stack of the thread is as the look left it. -/
theorem stackOf_of_look (s : Recyclers) (thread recycler : Nat)
    (hSame : s'.homes = ((s.ensureHome thread recycler).2.2.look (s.ensureHome thread recycler).1
      (s.stackOf thread recycler)).homes) :
    s'.stackOf thread recycler = ((s.stackOf thread recycler).scavenge
      (s.ensureHome thread recycler).2.2.tokens).home := by
  have hGathers := (s.stackOf thread recycler).gathers_scavenge
    (s.ensureHome thread recycler).2.2.tokens
  obtain ⟨hThread, hRecycler, -⟩ := s.ensureHome_cases thread recycler
  have hAgain := ensureHome_again (hGathers.thread.trans hThread)
    (hGathers.recycler.trans hRecycler) hSame
  rw [stackOf, hAgain]

theorem scavengeHome_of_nothing {id : Nat} (hRefused : (home.scavenge s.tokens).refused = []) :
    (s.scavengeHome id home).2 = s.look id home := by
  unfold scavengeHome
  dsimp only
  rw [hRefused]
  rfl

theorem refill_of_empty (hStack : (s.stackOf thread recycler).stack.entries = []) :
    s.refill thread recycler = ((s.ensureHome thread recycler).1,
      ((s.ensureHome thread recycler).2.2.scavengeHome (s.ensureHome thread recycler).1
        (s.stackOf thread recycler)).2) := by
  have hEmpty : (s.ensureHome thread recycler).2.1.stack.isEmpty = true :=
    List.isEmpty_iff.mpr hStack
  unfold refill
  dsimp only
  rw [if_pos hEmpty]
  rfl

/-- The stack is still empty, and what waited for it is ahead of the next look. -/
def AllAhead (before after : Home) : Prop :=
  after.stack.entries = [] ∧ (Home.AnyWaits before.inbound → Home.AnyWaits after.ahead)

section Unfiltered

variable (hSound : (s.stackOf thread recycler).Sound c) (hRatio : c.ratio = 1)
  (hRoom : 1 ≤ c.maxCapacityPerThread) (hStack : (s.stackOf thread recycler).stack.entries = [])

include hSound hRatio hRoom hStack

/-- A look finds something exactly if a queue ahead holds something. -/
theorem found_iff (tokens : Tokens) : ((s.stackOf thread recycler).scavenge tokens).found = true ↔
    Home.AnyWaits (s.stackOf thread recycler).ahead := by
  obtain ⟨hSees, -⟩ := Home.sees_scavenge hSound hRatio hRoom hStack tokens
  cases hSees with
  | brings hFound hWaits hGot => exact iff_of_true hFound hWaits
  | nothing hFound hNone hStill hRefused hEntries =>
    refine iff_of_false (by simp [hFound]) ?_
    rintro ⟨i, hi, hWaiting⟩
    exact hWaiting (hNone i hi)

/-- It leaves an empty stack exactly if it finds nothing. -/
theorem found_iff_ne_nil (tokens : Tokens) :
    ((s.stackOf thread recycler).scavenge tokens).found = true ↔
      ((s.stackOf thread recycler).scavenge tokens).home.stack.entries ≠ [] := by
  obtain ⟨hSees, -⟩ := Home.sees_scavenge hSound hRatio hRoom hStack tokens
  cases hSees with
  | brings hFound hWaits hGot => exact iff_of_true hFound hGot
  | nothing hFound hNone hStill => exact iff_of_false (by simp [hFound]) (by simp [hStill])

/-- After one that found nothing, the next one covers all that waits. -/
theorem allAhead_of_nothing (hFound : ((s.stackOf thread recycler).scavenge
      (s.ensureHome thread recycler).2.2.tokens).found = false)
    (hSame : s'.homes = ((s.ensureHome thread recycler).2.2.scavengeHome
      (s.ensureHome thread recycler).1 (s.stackOf thread recycler)).2.homes) :
    AllAhead (s.stackOf thread recycler) (s'.stackOf thread recycler) := by
  obtain ⟨hSees, hCursor⟩ := Home.sees_scavenge hSound hRatio hRoom hStack
    (s.ensureHome thread recycler).2.2.tokens
  have hMissed := hSees.missed hFound
  cases hSees with
  | brings hSome => exact absurd hSome (by simp [hFound])
  | nothing _ hNone hStill hRefused hEntries =>
    rw [scavengeHome_of_nothing hRefused] at hSame
    rw [AllAhead, stackOf_of_look s thread recycler hSame,
      Home.ahead_of_cursor_zero (hCursor hFound)]
    exact ⟨hStill, hMissed⟩

/-- Looking for items tells whether a queue ahead held something. If none did, the next look covers
all that waits. -/
theorem scavenge_exact :
    ((s.scavenge (.thread thread) recycler).1 = true ↔
        Home.AnyWaits (s.stackOf thread recycler).ahead) ∧
      ((s.scavenge (.thread thread) recycler).1 = false →
        AllAhead (s.stackOf thread recycler)
          ((s.scavenge (.thread thread) recycler).2.stackOf thread recycler)) :=
  ⟨found_iff hSound hRatio hRoom hStack _,
    fun hFound => allAhead_of_nothing hSound hRatio hRoom hStack hFound rfl⟩

/-- So does getting an item: if one did, an item comes that waited, and else a new one. -/
theorem get_exact (hEnabled : (s.config recycler).isDisabled = false) :
    ((s.get (.thread thread) recycler).2.made = s.made ↔
        Home.AnyWaits (s.stackOf thread recycler).ahead) ∧
      ((s.get (.thread thread) recycler).2.made = s.made →
        (s.get (.thread thread) recycler).1 ∈ (s.stackOf thread recycler).entries) ∧
      ((s.get (.thread thread) recycler).2.made ≠ s.made →
        AllAhead (s.stackOf thread recycler)
          ((s.get (.thread thread) recycler).2.stackOf thread recycler)) := by
  obtain ⟨id, s', hRefill, home, hHome, -, -, hLent⟩ := get_of_enabled hEnabled thread
  have hMade : s'.made = s.made := by
    have hKept := (kept_made s.made).refill thread recycler rfl
    rwa [hRefill] at hKept
  obtain ⟨hId, hAfter⟩ := Prod.mk.inj (hRefill.symm.trans (refill_of_empty hStack))
  have hAt : home = ((s.stackOf thread recycler).scavenge
      (s.ensureHome thread recycler).2.2.tokens).home := by
    have hLooked := home?_scavengeHome (s.home?_ensureHome thread recycler)
    rw [hId, hAfter] at hHome
    exact Option.some.inj (hHome.symm.trans hLooked)
  have hGot := found_iff_ne_nil hSound hRatio hRoom hStack (s.ensureHome thread recycler).2.2.tokens
  rw [← hAt] at hGot
  rw [← found_iff hSound hRatio hRoom hStack (s.ensureHome thread recycler).2.2.tokens]
  -- after the look the stack has something on top, or nothing was found
  rcases hLent with ⟨p, entries, hEntries, hGet⟩ | ⟨hEmpty, hGet⟩
  · rw [hGet]
    have hOwn := mem_entries_of_refill hRefill hHome (hEntries ▸ List.mem_cons_self)
    exact ⟨iff_of_true hMade (hGot.mpr (by simp [hEntries])), fun _ => hOwn,
      fun hNew => absurd hMade hNew⟩
  · rw [hGet]
    have hNew : (s'.makeFor recycler id).2.made ≠ s.made := hMade ▸ Nat.succ_ne_self _
    have hNothing := mt hGot.mp (not_not.mpr hEmpty)
    exact ⟨iff_of_false hNew hNothing, fun hOld => absurd hOld hNew, fun _ =>
      allAhead_of_nothing hSound hRatio hRoom hStack (by simpa using hNothing)
        (show s'.homes = _ from congrArg homes hAfter)⟩

end Unfiltered

/-- After any run, without a filter and where the stack of a thread is empty: a look finds
something, and an item that is got is one that waited and not a new one, exactly if a queue ahead
holds something. If any queue holds something, one of two looks finds it, and one of two items that
are got is such an item. -/
theorem run_waiting_visible (configs : Array RecyclerConfig) (ops : List Op)
    (thread recycler : Nat) (hValid : ((create configs).config recycler).validate = .ok ())
    (hRatio : ((create configs).config recycler).ratio = 1)
    (hRoom : 1 ≤ ((create configs).config recycler).maxCapacityPerThread)
    (hStack : (((create configs).run ops).stackOf thread recycler).stack.entries = []) :
    let s := (create configs).run ops
    let home := s.stackOf thread recycler
    let looked := s.scavenge (.thread thread) recycler
    let got := s.get (.thread thread) recycler
    (looked.1 = true ↔ Home.AnyWaits home.ahead) ∧
    (got.2.made = s.made ↔ Home.AnyWaits home.ahead) ∧
    (got.2.made = s.made → got.1 ∈ home.entries) ∧
    (Home.AnyWaits home.inbound →
      (looked.1 = true ∨ (looked.2.scavenge (.thread thread) recycler).1 = true) ∧
      (got.2.made = s.made ∨
        (got.2.get (.thread thread) recycler).2.made = got.2.made)) := by
  intro s home looked got
  have hPos := RecyclerConfig.linkCapacity_pos hValid
  have hSound := sound_run configs ops thread recycler hPos
  have hNext : ∀ op, ((s.step op).stackOf thread recycler).Sound
      ((create configs).config recycler) := by
    intro op
    have hRun := sound_run configs (ops ++ [op]) thread recycler hPos
    rwa [run, List.foldl_append] at hRun
  have hEnabled : ∀ ops, (((create configs).run ops).config recycler).isDisabled = false := by
    intro ops
    rw [config_run, RecyclerConfig.isDisabled]
    simpa using Nat.ne_of_gt hRoom
  obtain ⟨hLooked, hMissed⟩ := scavenge_exact hSound hRatio hRoom hStack
  obtain ⟨hGot, hOwn, hPassed⟩ := get_exact hSound hRatio hRoom hStack (hEnabled ops)
  refine ⟨hLooked, hGot, hOwn, fun hWaits => ⟨?_, ?_⟩⟩
  -- a look that finds nothing puts the cursor back, and all queues are ahead
  · cases hFound : looked.1 with
    | true => exact .inl rfl
    | false =>
      obtain ⟨hStill, hAhead⟩ := hMissed hFound
      have hAgain := hNext (.scavenge (.thread thread) recycler)
      exact .inr ((scavenge_exact hAgain hRatio hRoom hStill).1.mpr (hAhead hWaits))
  -- a new item was made after such a look, so the next one comes from a queue
  · by_cases hMade : got.2.made = s.made
    · exact .inl hMade
    · obtain ⟨hStill, hAhead⟩ := hPassed hMade
      have hAgain := hNext (.get (.thread thread) recycler)
      have hEnabled' := hEnabled (ops ++ [.get (.thread thread) recycler])
      rw [run, List.foldl_append] at hEnabled'
      exact .inr ((get_exact hAgain hRatio hRoom hStill hEnabled').1.mpr (hAhead hWaits))

/-- One recycler, without a filter. -/
def unfiltered : Array RecyclerConfig := #[{ RecyclerConfig.defaults 1 with ratio := 1 }]

/-- A thread lends two items, and two others give back one each. -/
def givenBack : List Op :=
  [.get (.thread 0) 0, .get (.thread 0) 0, .recycle (.thread 1) 0 ⟨.plain 0, .live 0⟩,
    .recycle (.thread 2) 0 ⟨.plain 1, .live 1⟩]

/-- Then it lends both again, and the first of them comes back once more. -/
def givenBackAgain : List Op := givenBack ++
  [.get (.thread 0) 0, .get (.thread 0) 0, .recycle (.thread 1) 0 ⟨.plain 0, .live 0⟩]

theorem run_waiting_visible_given_back :
    let s := (create unfiltered).run givenBack
    (s.scavenge (.thread 0) 0).1 = true ∧ (s.get (.thread 0) 0).2.made = s.made := by
  have hExact := run_waiting_visible unfiltered givenBack 0 0 rfl rfl (by decide)
    (by decide +kernel)
  have hAhead : Home.AnyWaits (((create unfiltered).run givenBack).stackOf 0 0).ahead := by
    decide +kernel
  exact ⟨hExact.1.mpr hAhead, hExact.2.1.mpr hAhead⟩

/-- The cursor is at the queue of the second thread then, and the look does not come to that of the
first one. -/
theorem waiting_missed_given_back_again :
    let s := (create unfiltered).run givenBackAgain
    (s.config 0).ratio = 1 ∧ 1 ≤ (s.config 0).maxCapacityPerThread ∧
      (s.stackOf 0 0).stack.entries = [] ∧ Home.AnyWaits (s.stackOf 0 0).inbound ∧
        (s.scavenge (.thread 0) 0).1 = false ∧ (s.get (.thread 0) 0).2.made = s.made + 1 := by
  decide +kernel

end Recyclers

end BlockPool.Recycling
