import BlockPool.Recycling.Queue
import BlockPool.Proofs.Recycling.Stack
import Mathlib.Data.List.Perm.Subperm

/-!
# BlockPool — what a queue carries

An item that a queue accepts waits behind those that were accepted before. A transfer reads some of
what waits into a stack, which keeps an item or turns it away; no item comes out twice, and none
that was not in.

In a queue that was only ever added to and read, every link but the last is full, and of every link
but the first nothing was read. So something waits in the first link, or in the one that follows it,
whenever anything waits at all.

* `Queue.Sound` — the shape of such a queue.
* `Queue.Reads` — what a transfer, or several, do with the items.
* `Queue.Sound.moved_iff` — without a filter, a transfer to a stack with room brings something
  exactly if something waits.
-/

namespace BlockPool.Recycling.Queue

variable {q q' : Queue} {s : Stack} {tokens : Tokens} {p : Pooled} {budget budget' : Nat}

theorem waiting_eq (q : Queue) : q.waiting = q.front.waiting ++ q.rest.flatMap (·.waiting) := rfl

/-- What every reachable queue satisfies. -/
structure Sound (q : Queue) : Prop where
  capacity_pos : 0 < q.linkCapacity
  written_le : ∀ link ∈ q.links, link.written ≤ q.linkCapacity
  /-- Every link but the last is full. -/
  full : ∀ link ∈ q.links.dropLast, link.written = q.linkCapacity
  /-- Every link but the first is yet to be read. -/
  unread : ∀ link ∈ q.rest, link.read = 0 ∧ link.waiting ≠ []

theorem sound_fresh {linkCapacity : Nat} (h : 0 < linkCapacity) : (fresh linkCapacity).Sound where
  capacity_pos := h
  written_le link hLink := by
    obtain rfl := List.mem_singleton.mp hLink
    exact Nat.zero_le _
  full link hLink := absurd hLink (by simp [fresh, links])
  unread link hLink := absurd hLink (by simp [fresh])

-- ---------------------------------------------------------------------------
-- Adding
-- ---------------------------------------------------------------------------

theorem add_eq_some (h : q.add p budget = some (q', budget')) :
    (q.back.written = q.linkCapacity ∧ q.linkCapacity ≤ budget ∧
      q' = { q with rest := q.rest ++ [{ waiting := [p] }] } ∧
        budget' = budget - q.linkCapacity) ∨
    (q.back.written ≠ q.linkCapacity ∧
      q' = q.modifyBack (fun link => { link with waiting := link.waiting ++ [p] }) ∧
        budget' = budget) := by
  unfold add at h
  split at h
  · rename_i hFull
    split at h
    · exact absurd h (by simp)
    · rename_i hBudget
      rw [Option.some.injEq, Prod.mk.injEq] at h
      exact .inl ⟨hFull, Nat.le_of_not_lt hBudget, h.1.symm, h.2.symm⟩
  · rename_i hRoom
    rw [Option.some.injEq, Prod.mk.injEq] at h
    exact .inr ⟨hRoom, h.1.symm, h.2.symm⟩

/-- The link that is written comes last. -/
theorem exists_links (q : Queue) : ∃ before, q.links = before ++ [q.back] := by
  rcases List.eq_nil_or_concat q.rest with hNil | ⟨before, last, hRest⟩
  · exact ⟨[], by simp [links, back, hNil]⟩
  · rw [List.concat_eq_append] at hRest
    exact ⟨q.front :: before, by simp [links, back, hRest]⟩

theorem waiting_back_sublist (q : Queue) : q.back.waiting.Sublist q.waiting := by
  obtain ⟨before, hLinks⟩ := q.exists_links
  rw [waiting, hLinks, List.flatMap_append, List.flatMap_singleton]
  exact List.sublist_append_right ..

theorem links_modifyBack {before : List Link} (h : q.links = before ++ [q.back])
    (f : Link → Link) : (q.modifyBack f).links = before ++ [f q.back] := by
  rcases List.eq_nil_or_concat q.rest with hNil | ⟨others, last, hRest⟩
  · have hFront : q.back = q.front := by simp [back, hNil]
    rw [links, hNil, hFront] at h
    obtain rfl : before = [] := by simpa using congrArg List.length h
    simp [links, modifyBack, hNil, hFront]
  · rw [List.concat_eq_append] at hRest
    have hLast : q.back = last := by simp [back, hRest]
    rw [links, hRest, hLast, ← List.cons_append] at h
    obtain ⟨rfl, -⟩ := List.append_inj' h rfl
    simp [links, modifyBack, hRest, hLast]

theorem mem_rest_modifyBack {f : Link → Link} {link : Link} (h : link ∈ (q.modifyBack f).rest) :
    link ∈ q.rest ∨ (q.back ∈ q.rest ∧ link = f q.back) := by
  unfold modifyBack at h
  split at h
  · exact .inl h
  · rename_i last hLast
    have hBack : q.back = last := by rw [back, List.getLastD_eq_getLast?, hLast, Option.getD_some]
    rcases List.mem_append.mp h with hBefore | hNew
    · exact .inl (List.dropLast_subset _ hBefore)
    · rw [hBack]
      exact .inr ⟨List.mem_of_getLast? hLast, List.mem_singleton.mp hNew⟩

theorem linkCapacity_modifyBack (q : Queue) (f : Link → Link) :
    (q.modifyBack f).linkCapacity = q.linkCapacity := by
  unfold modifyBack
  split <;> rfl

/-- An accepted item waits behind the others. -/
theorem waiting_add (h : q.add p budget = some (q', budget')) : q'.waiting = q.waiting ++ [p] := by
  obtain ⟨before, hLinks⟩ := q.exists_links
  rcases add_eq_some h with ⟨-, -, rfl, -⟩ | ⟨-, rfl, -⟩
  · show (q.links ++ [({ waiting := [p] } : Link)]).flatMap Link.waiting = q.waiting ++ [p]
    rw [List.flatMap_append, List.flatMap_singleton, waiting]
  · rw [waiting, links_modifyBack hLinks, waiting, hLinks]
    simp only [List.flatMap_append, List.flatMap_singleton, List.append_assoc]

theorem linkCapacity_add (h : q.add p budget = some (q', budget')) :
    q'.linkCapacity = q.linkCapacity := by
  rcases add_eq_some h with ⟨-, -, rfl, -⟩ | ⟨-, rfl, -⟩
  · rfl
  · exact linkCapacity_modifyBack ..

/-- The shape of a queue by its full links and the last one. -/
theorem sound_of_links (before : List Link) (last : Link) (hPos : 0 < q.linkCapacity)
    (hLinks : q.links = before ++ [last])
    (hFull : ∀ link ∈ before, link.written = q.linkCapacity)
    (hLast : last.written ≤ q.linkCapacity)
    (hUnread : ∀ link ∈ q.rest, link.read = 0 ∧ link.waiting ≠ []) : q.Sound where
  capacity_pos := hPos
  written_le link hLink := by
    rw [hLinks] at hLink
    rcases List.mem_append.mp hLink with hBefore | hEnd
    · exact Nat.le_of_eq (hFull link hBefore)
    · rw [List.mem_singleton.mp hEnd]
      exact hLast
  full link hLink := by
    rw [hLinks, List.dropLast_concat] at hLink
    exact hFull link hLink
  unread := hUnread

/-- Only the last link takes items, and another one follows once it is full. -/
theorem Sound.add (h : q.Sound) (hAdd : q.add p budget = some (q', budget')) : q'.Sound := by
  obtain ⟨before, hLinks⟩ := q.exists_links
  have hBefore : ∀ link ∈ before, link.written = q.linkCapacity := fun link hLink =>
    h.full link (by rwa [hLinks, List.dropLast_concat])
  rcases add_eq_some hAdd with ⟨hFull, -, rfl, -⟩ | ⟨hRoom, rfl, -⟩
  · -- another link follows one that is full
    refine sound_of_links q.links { waiting := [p] } h.capacity_pos rfl
      (fun link hLink => ?_) h.capacity_pos (fun link hLink => ?_)
    · rw [hLinks] at hLink
      rcases List.mem_append.mp hLink with hOld | hBack
      · exact hBefore link hOld
      · rw [List.mem_singleton.mp hBack]
        exact hFull
    · rcases List.mem_append.mp hLink with hOld | hNew
      · exact h.unread link hOld
      · obtain rfl := List.mem_singleton.mp hNew
        exact ⟨rfl, by simp⟩
  · -- the last link takes one more
    have hCapacity := linkCapacity_modifyBack q
      (fun link => { link with waiting := link.waiting ++ [p] })
    refine sound_of_links before _ (hCapacity.symm ▸ h.capacity_pos) (links_modifyBack hLinks _)
      (fun link hLink => hCapacity.symm ▸ hBefore link hLink) ?_ (fun link hLink => ?_)
    · have hLe := h.written_le q.back (by rw [hLinks]; simp)
      rw [hCapacity]
      simp only [Link.written, List.length_append, List.length_singleton] at hLe hRoom ⊢
      omega
    · rcases mem_rest_modifyBack hLink with hOld | ⟨hBack, rfl⟩
      · exact h.unread link hOld
      · exact ⟨(h.unread _ hBack).1, by simp⟩

-- ---------------------------------------------------------------------------
-- Leaving a link
-- ---------------------------------------------------------------------------

theorem linkCapacity_advance (q : Queue) : q.advance.1.linkCapacity = q.linkCapacity := by
  unfold advance
  split
  · split <;> rfl
  · rfl

/-- What waits after a link is left was waiting before. -/
theorem waiting_advance_sublist (q : Queue) : q.advance.1.waiting.Sublist q.waiting := by
  unfold advance
  split
  · rename_i next rest hRest
    split
    · rw [waiting_eq q, hRest]
      exact List.sublist_append_right ..
    · exact .refl _
  · exact .refl _

/-- A first link that was read to its end goes, if another one follows it. -/
theorem Sound.advance (h : q.Sound) : q.advance.1.Sound ∧ q.advance.1.waiting = q.waiting := by
  unfold Queue.advance
  split
  · rename_i next rest hRest
    split
    · rename_i hRead
      have hLinks : q.links = q.front :: next :: rest := by rw [links, hRest]
      refine ⟨⟨h.capacity_pos, fun link hLink => ?_, fun link hLink => ?_, fun link hLink => ?_⟩,
        ?_⟩
      · exact h.written_le link (hLinks ▸ List.mem_cons_of_mem _ hLink)
      · refine h.full link ?_
        rw [hLinks, List.dropLast_cons_cons]
        exact List.mem_cons_of_mem _ hLink
      · exact h.unread link (hRest ▸ List.mem_cons_of_mem _ hLink)
      · -- all that was written into the link was read
        have hWritten := h.written_le q.front List.mem_cons_self
        rw [Link.written, hRead] at hWritten
        have hNone : q.front.waiting = [] := List.length_eq_zero_iff.mp (by omega)
        rw [waiting_eq q, hNone, hRest]
        rfl
    · exact ⟨h, rfl⟩
  · exact ⟨h, rfl⟩

/-- Once a link that was read to its end is left, something waits in the first link if anything
waits at all. -/
theorem Sound.front_advance (h : q.Sound) (hWaiting : q.waiting ≠ []) :
    q.advance.1.front.waiting ≠ [] := by
  unfold Queue.advance
  split
  · rename_i next rest hRest
    split
    · exact (h.unread next (hRest ▸ List.mem_cons_self)).2
    · rename_i hRead
      intro hNone
      have hFull := h.full q.front (by rw [links, hRest, List.dropLast_cons_cons]; simp)
      rw [Link.written, hNone] at hFull
      exact hRead hFull
  · rename_i hRest
    rw [waiting_eq, hRest] at hWaiting
    simpa using hWaiting

-- ---------------------------------------------------------------------------
-- Reading
-- ---------------------------------------------------------------------------

/-- The stack with room for what waits in the first link, as far as it may grow. -/
def makeRoom (q : Queue) (s : Stack) : Stack :=
  if q.front.waiting ≠ [] ∧ s.size + q.front.waiting.length > s.capacity then
    s.grow (s.size + q.front.waiting.length)
  else s

/-- The number of items that are read from the first link. -/
def batch (q : Queue) (s : Stack) : Nat :=
  min q.front.waiting.length ((q.makeRoom s).capacity - (q.makeRoom s).size)

/-- The queue after so many items of the first link were read. -/
def skip (q : Queue) (count : Nat) : Queue :=
  { q with front := ⟨q.front.read + count, q.front.waiting.drop count⟩ }

theorem waiting_take_skip (q : Queue) (count : Nat) :
    q.front.waiting.take count ++ (q.skip count).waiting = q.waiting := by
  rw [waiting_eq (q.skip count), waiting_eq q, ← List.append_assoc]
  show q.front.waiting.take count ++ q.front.waiting.drop count ++ _ = _
  rw [List.take_append_drop]
  rfl

/-- Reading from the first link changes how much of it was read, not how much was written. -/
theorem Sound.skip (h : q.Sound) {count : Nat} (hCount : count ≤ q.front.waiting.length) :
    (q.skip count).Sound := by
  have hWritten : (q.skip count).front.written = q.front.written := by
    show q.front.read + count + (q.front.waiting.drop count).length = _
    rw [List.length_drop, Link.written]
    omega
  refine ⟨h.capacity_pos, fun link hLink => ?_, fun link hLink => ?_, h.unread⟩
  · rcases List.mem_cons.mp hLink with rfl | hRest
    · exact hWritten ▸ h.written_le _ List.mem_cons_self
    · exact h.written_le link (List.mem_cons_of_mem _ hRest)
  · cases hRest : q.rest with
    | nil => simp [links, Queue.skip, hRest] at hLink
    | cons next rest =>
      have hLinks : q.links = q.front :: next :: rest := by rw [links, hRest]
      rw [show (q.skip count).links = (q.skip count).front :: next :: rest by
        rw [links, ← hRest]; rfl, List.dropLast_cons_cons] at hLink
      rcases List.mem_cons.mp hLink with rfl | hLater
      · rw [hWritten]
        exact h.full _ (by rw [hLinks, List.dropLast_cons_cons]; exact List.mem_cons_self)
      · refine h.full link ?_
        rw [hLinks, List.dropLast_cons_cons]
        exact List.mem_cons_of_mem _ hLater

/-- A transfer: a link that was read to its end is left, room is made, a batch is read, and the link
is left if that was its end. -/
theorem transfer_eq (q : Queue) (s : Stack) (tokens : Tokens) :
    let first := q.advance.1
    let received := (first.makeRoom s).receiveAll tokens (first.front.waiting.take (first.batch s))
    let left := if first.batch s = 0 then (first, 0) else (first.skip (first.batch s)).advance
    q.transfer s tokens = { moved := decide (received.2.1.size ≠ s.size), queue := left.1,
                            stack := received.2.1, tokens := received.2.2,
                            freed := q.advance.2 + left.2, refused := received.1 } := rfl

theorem moved_transfer (q : Queue) (s : Stack) (tokens : Tokens) :
    (q.transfer s tokens).moved = decide ((q.transfer s tokens).stack.size ≠ s.size) := rfl

/-- What reading does with the items: each comes to the stack, is turned away or goes on waiting.
Tokens say what they said, and the bounds of the stack stay as they are. -/
structure Reads (q : Queue) (s : Stack) (tokens : Tokens) (t : Transfer) : Prop where
  items : (t.refused ++ (t.stack.entries ++ t.queue.waiting)).Subperm (s.entries ++ q.waiting)
  tokens : tokens.Agree t.tokens
  maxCapacity : t.stack.maxCapacity = s.maxCapacity
  ratio : t.stack.ratio = s.ratio
  linkCapacity : t.queue.linkCapacity = q.linkCapacity

theorem makeRoom_frame (q : Queue) (s : Stack) :
    q.makeRoom s = { s with capacity := (q.makeRoom s).capacity } := by
  unfold makeRoom
  split <;> rfl

/-- A transfer puts items that waited onto the stack or turns them away, and leaves the rest. -/
theorem reads_transfer (q : Queue) (s : Stack) (tokens : Tokens) :
    q.Reads s tokens (q.transfer s tokens) := by
  rw [transfer_eq]
  have hRoom := makeRoom_frame q.advance.1 s
  obtain ⟨hSame, hAgree⟩ := (q.advance.1.makeRoom s).receiveAll_frame tokens
    (q.advance.1.front.waiting.take (q.advance.1.batch s))
  have hPerm := (q.advance.1.makeRoom s).receiveAll_perm tokens
    (q.advance.1.front.waiting.take (q.advance.1.batch s))
  generalize hReceived : (q.advance.1.makeRoom s).receiveAll tokens
    (q.advance.1.front.waiting.take (q.advance.1.batch s)) = received at hSame hAgree hPerm
  have hEntries : (q.advance.1.makeRoom s).entries = s.entries := by rw [hRoom]
  rw [hEntries] at hPerm
  have hLeft : ((if q.advance.1.batch s = 0 then (q.advance.1, 0)
      else (q.advance.1.skip (q.advance.1.batch s)).advance).1.waiting).Sublist
        (q.advance.1.skip (q.advance.1.batch s)).waiting := by
    split
    · rename_i hNone
      rw [hNone]
      exact .refl _
    · exact waiting_advance_sublist _
  refine ⟨?_, hAgree, ?_, ?_, ?_⟩
  · dsimp only
    rw [← List.append_assoc]
    -- what was read and what is left are what waited in the links that remain
    have hAll := hPerm.subperm.append hLeft.subperm
    have hRead := waiting_take_skip q.advance.1 (q.advance.1.batch s)
    refine hAll.trans ?_
    refine (List.perm_append_comm.append_right _).subperm.trans ?_
    rw [List.append_assoc, hRead]
    exact (List.Subperm.refl _).append (waiting_advance_sublist q).subperm
  · dsimp only
    rw [hSame, hRoom]
  · dsimp only
    rw [hSame, hRoom]
  · dsimp only
    split
    · exact linkCapacity_advance q
    · exact (linkCapacity_advance _).trans (linkCapacity_advance q)

theorem Reads.trans {first second : Transfer} (h : q.Reads s tokens first)
    (h' : first.queue.Reads first.stack first.tokens second) (moved : Bool) (freed : Nat) :
    q.Reads s tokens { second with moved, freed, refused := first.refused ++ second.refused } where
  items := by
    refine List.Subperm.trans ?_ h.items
    rw [List.append_assoc]
    exact (List.Subperm.refl _).append h'.items
  tokens := h.tokens.trans h'.tokens
  maxCapacity := h'.maxCapacity.trans h.maxCapacity
  ratio := h'.ratio.trans h.ratio
  linkCapacity := h'.linkCapacity.trans h.linkCapacity

theorem reads_drainWithin (steps : Nat) (q : Queue) (s : Stack) (tokens : Tokens) :
    q.Reads s tokens (q.drainWithin steps s tokens) := by
  induction steps generalizing q s tokens with
  | zero => exact ⟨.refl _, .refl _, rfl, rfl, rfl⟩
  | succ steps ih =>
    have hFirst := reads_transfer q s tokens
    simp only [drainWithin]
    split
    · exact hFirst.trans (ih ..) _ _
    · exact hFirst

theorem reads_drain (q : Queue) (s : Stack) (tokens : Tokens) :
    q.Reads s tokens (q.drain s tokens) :=
  reads_drainWithin ..

/-- Where nothing waits and nothing is on the stack, reading leaves it like that. -/
theorem Reads.nothing {t : Transfer} (h : q.Reads s tokens t) (hStack : s.entries = [])
    (hWaiting : q.waiting = []) : t.refused = [] ∧ t.stack.entries = [] ∧ t.queue.waiting = [] := by
  have hLength := h.items.length_le
  rw [hStack, hWaiting] at hLength
  simp only [List.length_append, List.length_nil] at hLength
  exact ⟨List.length_eq_zero_iff.mp (by omega), List.length_eq_zero_iff.mp (by omega),
    List.length_eq_zero_iff.mp (by omega)⟩

/-- Then nothing moves. -/
theorem moved_transfer_nothing (hStack : s.entries = []) (hWaiting : q.waiting = [])
    (tokens : Tokens) : (q.transfer s tokens).moved = false := by
  obtain ⟨-, hAfter, -⟩ := (reads_transfer q s tokens).nothing hStack hWaiting
  rw [moved_transfer, Stack.size, hAfter, Stack.size, hStack]
  rfl

theorem moved_drain_nothing (hStack : s.entries = []) (hWaiting : q.waiting = [])
    (tokens : Tokens) : (q.drain s tokens).moved = false := by
  have hMoved := moved_transfer_nothing hStack hWaiting tokens
  simp only [drain, drainWithin, hMoved]
  exact hMoved

-- ---------------------------------------------------------------------------
-- Bounds
-- ---------------------------------------------------------------------------

theorem Sound.transfer (h : q.Sound) (s : Stack) (tokens : Tokens) :
    (q.transfer s tokens).queue.Sound := by
  obtain ⟨hFirst, -⟩ := h.advance
  rw [transfer_eq]
  dsimp only
  split
  · exact hFirst
  · exact (hFirst.skip (Nat.min_le_left ..)).advance.1

theorem sound_makeRoom (hs : s.Sound) (q : Queue) : (q.makeRoom s).Sound := by
  unfold makeRoom
  split
  · exact hs.grow _
  · exact hs

theorem batch_le (hs : s.Sound) (q : Queue) :
    (q.makeRoom s).size + q.batch s ≤ (q.makeRoom s).capacity := by
  have hSize := (sound_makeRoom hs q).size_le
  unfold batch
  omega

theorem sound_stack_transfer (hs : s.Sound) (q : Queue) (tokens : Tokens) :
    (q.transfer s tokens).stack.Sound := by
  have hRoom := batch_le hs q.advance.1
  rw [transfer_eq]
  refine (sound_makeRoom hs _).receiveAll ?_ _
  rw [List.length_take]
  omega

theorem Sound.drainWithin (h : q.Sound) (hs : s.Sound) (steps : Nat) (tokens : Tokens) :
    (q.drainWithin steps s tokens).queue.Sound ∧ (q.drainWithin steps s tokens).stack.Sound := by
  induction steps generalizing q s tokens with
  | zero => exact ⟨h, hs⟩
  | succ steps ih =>
    have hFirst := h.transfer s tokens
    have hStack := sound_stack_transfer hs q tokens
    simp only [Queue.drainWithin]
    split
    · exact ih hFirst hStack _
    · exact ⟨hFirst, hStack⟩

-- ---------------------------------------------------------------------------
-- Transfers that bring something
-- ---------------------------------------------------------------------------

theorem batch_pos (hs : s.Sound) (hRoom : s.size < s.maxCapacity)
    (hWaiting : q.front.waiting ≠ []) : 0 < q.batch s := by
  have hLength := List.length_pos_iff.mpr hWaiting
  have hFree : (q.makeRoom s).size < (q.makeRoom s).capacity := by
    unfold makeRoom
    split
    · exact Stack.size_lt_grow hs hRoom _
    · rename_i hFits
      rw [not_and, Nat.not_lt] at hFits
      exact Nat.lt_of_lt_of_le (by omega) (hFits hWaiting)
  unfold batch
  omega

/-- Without a filter, all that is read comes to the stack. -/
theorem size_transfer (hs : s.Sound) (hRatio : s.ratio = 1) (q : Queue) (tokens : Tokens) :
    (q.transfer s tokens).stack.size = s.size + q.advance.1.batch s := by
  have hRoom := batch_le hs q.advance.1
  have hBatch : (q.advance.1.front.waiting.take (q.advance.1.batch s)).length =
      q.advance.1.batch s := by
    rw [List.length_take]
    exact Nat.min_eq_left (Nat.min_le_left ..)
  have hRatio' : (q.advance.1.makeRoom s).ratio = 1 := by rw [makeRoom_frame, hRatio]
  have hKept : ((q.advance.1.makeRoom s).receiveAll tokens
      (q.advance.1.front.waiting.take (q.advance.1.batch s))).1 = [] :=
    Stack.receiveAll_of_room hRatio' (by omega) tokens
  have hLength := ((q.advance.1.makeRoom s).receiveAll_perm tokens
    (q.advance.1.front.waiting.take (q.advance.1.batch s))).length_eq
  have hEntries : (q.advance.1.makeRoom s).entries = s.entries := by rw [makeRoom_frame]
  rw [hKept, List.nil_append, List.length_append, hBatch, hEntries] at hLength
  exact hLength.trans (Nat.add_comm ..)

/-- Without a filter, a transfer to a stack that may hold more brings something exactly if something
waits. -/
theorem Sound.moved_iff (h : q.Sound) (hs : s.Sound) (hRatio : s.ratio = 1)
    (hRoom : s.size < s.maxCapacity) (tokens : Tokens) :
    (q.transfer s tokens).moved = true ↔ q.waiting ≠ [] := by
  rw [moved_transfer, decide_eq_true_eq, size_transfer hs hRatio]
  constructor
  · intro hBatch hNone
    obtain ⟨-, hSame⟩ := h.advance
    rw [hNone, waiting_eq, List.append_eq_nil_iff] at hSame
    simp [batch, hSame.1] at hBatch
  · intro hWaiting
    have hPos := batch_pos hs hRoom (h.front_advance hWaiting)
    omega

end BlockPool.Recycling.Queue
