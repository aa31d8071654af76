import BlockPool.Proofs.Recycling.Bounds
import BlockPool.Proofs.Total

/-!
# BlockPool — the budget of a stack

The queues towards a stack share a budget of slots. A queue takes its first link out of it, and
another link when its last one is full; it gives a link back when that was read to its end and
another one follows, and all that it has when it is given up. So what is left of the budget and the
links of all queues are always the whole budget; and as an item that waits takes up a slot, no more
items wait than the budget has slots.

* `Queue.cost_add`, `Queue.cost_transfer` — what a queue takes from the budget and gives back.
* `Home.Balanced` — what is left and what is taken are the whole budget.
* `Recyclers.run_budget_conserved` — they always are.
-/

namespace BlockPool.Recycling

namespace Queue

variable {q q' : Queue} {p : Pooled} {budget budget' : Nat}

-- ---------------------------------------------------------------------------
-- What a queue takes and gives back
-- ---------------------------------------------------------------------------

theorem numLinks_modifyBack (q : Queue) (f : Link → Link) :
    (q.modifyBack f).numLinks = q.numLinks := by
  unfold modifyBack numLinks
  split
  · rfl
  · rename_i last hLast
    have hPos : 0 < q.rest.length := List.length_pos_of_mem (List.mem_of_getLast? hLast)
    simp only [List.length_append, List.length_dropLast, List.length_singleton]
    omega

/-- The slots that a queue gets when an item is added are those that the budget loses. -/
theorem cost_add (h : q.add p budget = some (q', budget')) :
    budget' + q'.cost = budget + q.cost := by
  rcases add_eq_some h with ⟨-, hBudget, rfl, rfl⟩ | ⟨-, rfl, rfl⟩
  · have hLinks : numLinks { q with rest := q.rest ++ [{ waiting := [p] }] } = q.numLinks + 1 := by
      rw [numLinks, List.length_append]
      rfl
    rw [cost, hLinks, Nat.succ_mul, cost]
    show budget - q.linkCapacity + (q.numLinks * q.linkCapacity + q.linkCapacity) =
      budget + q.numLinks * q.linkCapacity
    omega
  · rw [cost, numLinks_modifyBack, linkCapacity_modifyBack, cost]

theorem cost_advance (q : Queue) : q.advance.2 + q.advance.1.cost = q.cost := by
  unfold advance
  split
  · rename_i next rest hRest
    split
    · have hLinks : q.numLinks = rest.length + 1 + 1 := by rw [numLinks, hRest]; rfl
      rw [cost, cost, hLinks, Nat.succ_mul, Nat.add_comm]
      rfl
    · exact Nat.zero_add _
  · exact Nat.zero_add _

/-- The slots that reading gives back are those that the queue loses. -/
theorem cost_transfer (q : Queue) (s : Stack) (tokens : Tokens) :
    (q.transfer s tokens).freed + (q.transfer s tokens).queue.cost = q.cost := by
  have hFirst := q.cost_advance
  have hLast := (q.advance.1.skip (q.advance.1.batch s)).cost_advance
  have hSkip : (q.advance.1.skip (q.advance.1.batch s)).cost = q.advance.1.cost := rfl
  rw [transfer_eq]
  dsimp only
  split
  · exact hFirst
  · omega

theorem cost_drainWithin (steps : Nat) (q : Queue) (s : Stack) (tokens : Tokens) :
    (q.drainWithin steps s tokens).freed + (q.drainWithin steps s tokens).queue.cost = q.cost := by
  induction steps generalizing q s tokens with
  | zero => exact Nat.zero_add _
  | succ steps ih =>
    have hFirst := q.cost_transfer s tokens
    have hOthers := ih (q.transfer s tokens).queue (q.transfer s tokens).stack
      (q.transfer s tokens).tokens
    rw [drainWithin]
    dsimp only
    split
    · show (q.transfer s tokens).freed + (drainWithin ..).freed + (drainWithin ..).queue.cost =
        q.cost
      omega
    · exact hFirst

/-- Each item that waits in a queue takes up one of its slots. -/
theorem Sound.length_waiting_le (h : q.Sound) : q.waiting.length ≤ q.cost := by
  have hLinks : ∀ links : List Link, (∀ link ∈ links, link.written ≤ q.linkCapacity) →
      (links.flatMap (·.waiting)).length ≤ links.length * q.linkCapacity := by
    intro links hWritten
    induction links with
    | nil => exact Nat.zero_le _
    | cons link rest ih =>
      have hFirst := hWritten link List.mem_cons_self
      have hRest := ih fun other hOther => hWritten other (List.mem_cons_of_mem _ hOther)
      rw [Link.written] at hFirst
      rw [List.flatMap_cons, List.length_append, List.length_cons, Nat.succ_mul]
      omega
  exact hLinks q.links h.written_le

end Queue

namespace Home

variable {h h' : Home} {p : Pooled} {i : Inbound} {others : List Inbound} {c : RecyclerConfig}
  {sender : Nat}

-- ---------------------------------------------------------------------------
-- What is left and what is taken
-- ---------------------------------------------------------------------------

/-- What is left of the budget and the slots of all queues are the whole budget. -/
def Balanced (h : Home) (c : RecyclerConfig) : Prop := h.budget + h.cost = c.sharedCapacity

theorem cost_of_perm (hPerm : h.inbound.Perm (i :: others)) :
    h.cost = i.queue.cost + total (others.map (·.queue.cost)) :=
  total_perm (hPerm.map _)

theorem cost_adopt (h : Home) : h.adopt.cost = h.cost := by
  rw [cost, inbound_adopt]
  rfl

theorem balanced_empty (recycler thread : Nat) (c : RecyclerConfig) :
    (empty recycler thread c).Balanced c := rfl

theorem Balanced.add (hBalanced : h.Balanced c) (hNodup : h.senders.Nodup)
    (hAdd : h.addFrom? sender p = some h') : h'.Balanced c := by
  obtain ⟨queue, queue', budget, hQueue, hAdded, rfl⟩ := addFrom?_eq_some hAdd
  obtain ⟨before, after, hSplit, hOthers⟩ := exists_inbound hNodup hQueue
  have hCost := Queue.cost_add hAdded
  have hBefore := cost_of_perm (.trans (.of_eq hSplit) List.perm_middle)
  have hAfter := cost_of_perm (.trans (.of_eq (inbound_setQueueFrom hSplit hOthers queue'))
    List.perm_middle)
  show budget + (h.setQueueFrom sender queue').cost = c.sharedCapacity
  rw [Balanced, hBefore] at hBalanced
  rw [hAfter]
  dsimp only at hBalanced ⊢
  omega

/-- A queue is opened only if the budget has room for a link. -/
theorem le_budget_of_openFrom? {linkCapacity : Nat}
    (hOpen : h.openFrom? sender linkCapacity p = some h') : linkCapacity ≤ h.budget := by
  unfold openFrom? at hOpen
  split at hOpen
  · exact absurd hOpen (by simp)
  · rename_i hRoom
    exact Nat.le_of_not_lt hRoom

theorem Balanced.opens (hBalanced : h.Balanced c) {linkCapacity : Nat}
    (hOpen : h.openFrom? sender linkCapacity p = some h') : h'.Balanced c := by
  have hRoom := le_budget_of_openFrom? hOpen
  obtain ⟨queue, budget, hAdded, rfl⟩ := openFrom?_eq_some hOpen
  have hCost := Queue.cost_add hAdded
  have hFresh : (Queue.fresh linkCapacity).cost = linkCapacity := Nat.one_mul _
  have hInbound : inbound { h with pending := h.pending ++ [⟨some sender, queue⟩], budget } =
      h.inbound ++ [⟨some sender, queue⟩] := (List.append_assoc ..).symm
  have hAfter := cost_of_perm (.trans (.of_eq hInbound) (List.perm_append_singleton ..))
  rw [Balanced, hAfter]
  show budget + (queue.cost + h.cost) = c.sharedCapacity
  rw [Balanced] at hBalanced
  omega

/-- Looking at the queues gives back what it reads, and no more. -/
theorem lookKept_balanced (c : RecyclerConfig) : LookKept fun h => h.Balanced c where
  transfer {h i} tokens hAt hBalanced := by
    have hCost := i.queue.cost_transfer h.stack tokens
    have hBefore := cost_of_perm (inbound_perm hAt)
    have hAfter := cost_of_perm (inbound_afterTransfer hAt (i.queue.transfer h.stack tokens))
    rw [Balanced, hBefore] at hBalanced
    rw [Balanced, hAfter]
    show h.budget + (i.queue.transfer h.stack tokens).freed + _ = c.sharedCapacity
    dsimp only
    omega
  retire {h i} tokens hAt _ hBalanced := by
    have hCost := i.queue.cost_drainWithin (i.queue.waiting.length + 1) h.stack tokens
    have hBefore := cost_of_perm (inbound_perm hAt)
    rw [Balanced, hBefore] at hBalanced
    show h.budget + (i.queue.drain h.stack tokens).freed + (i.queue.drain h.stack tokens).queue.cost
      + total ((h.queues.eraseIdx h.cursor ++ h.pending).map (·.queue.cost)) = c.sharedCapacity
    rw [Queue.drain]
    omega
  cursor _ hBalanced := hBalanced
  adopt {h} hBalanced := by
    rw [Balanced, cost_adopt]
    exact hBalanced

theorem Balanced.forget (hBalanced : h.Balanced c) (thread : Nat) :
    (h.forgetSender thread).Balanced c := by
  have hSame : (h.forgetSender thread).cost = h.cost := by
    rw [cost, inbound_forgetSender, List.map_map, cost]
    congr 1
    refine List.map_congr_left fun i _ => ?_
    show (if i.sender = some thread then ({ i with sender := none } : Inbound)
      else i).queue.cost = _
    split <;> rfl
  rw [Balanced, hSame]
  exact hBalanced

-- ---------------------------------------------------------------------------
-- What waits
-- ---------------------------------------------------------------------------

/-- The slots of all queues, link by link. -/
theorem Sound.cost_eq (hSound : h.Sound c) :
    h.cost = c.linkCapacity * total (h.inbound.map (·.queue.numLinks)) := by
  have hQueues : ∀ queues : List Inbound, (∀ i ∈ queues, i.queue.linkCapacity = c.linkCapacity) →
      total (queues.map (·.queue.cost)) =
        c.linkCapacity * total (queues.map (·.queue.numLinks)) := by
    intro queues hSame
    induction queues with
    | nil => rfl
    | cons i rest ih =>
      have hRest := ih fun j hj => hSame j (List.mem_cons_of_mem _ hj)
      rw [List.map_cons, List.map_cons, total_cons, total_cons, Nat.mul_add, hRest, Queue.cost,
        hSame i List.mem_cons_self, Nat.mul_comm]
  exact hQueues h.inbound fun i hi => (hSound.queues i hi).2

/-- No more items wait in the queues than those have slots. -/
theorem Sound.length_waiting_le (hSound : h.Sound c) :
    (h.inbound.flatMap (·.queue.waiting)).length ≤ h.cost := by
  have hQueues : ∀ queues : List Inbound, (∀ i ∈ queues, i.queue.Sound) →
      (queues.flatMap (·.queue.waiting)).length ≤ total (queues.map (·.queue.cost)) := by
    intro queues hShape
    induction queues with
    | nil => exact Nat.le_refl _
    | cons i rest ih =>
      have hFirst := (hShape i List.mem_cons_self).length_waiting_le
      have hRest := ih fun j hj => hShape j (List.mem_cons_of_mem _ hj)
      rw [List.flatMap_cons, List.length_append, List.map_cons, total_cons]
      omega
  exact hQueues h.inbound fun i hi => (hSound.queues i hi).1

end Home

namespace Recyclers

-- ---------------------------------------------------------------------------
-- Every stack, always
-- ---------------------------------------------------------------------------

theorem homeKept_balanced (config : Nat → RecyclerConfig) : HomeKept config fun home =>
    home.Balanced (config home.recycler) where
  empty recycler thread := Home.balanced_empty recycler thread _
  push hBalanced := hBalanced
  add hNodup hAdd hBalanced := by
    have hAfter := hBalanced.add hNodup hAdd
    obtain ⟨queue, queue', budget, -, -, rfl⟩ := Home.addFrom?_eq_some hAdd
    exact hAfter
  opens _ hOpen hBalanced := by
    have hAfter := hBalanced.opens hOpen
    obtain ⟨queue, budget, -, rfl⟩ := Home.openFrom?_eq_some hOpen
    exact hAfter
  scavenge {home tokens} hBalanced := by
    rw [(home.gathers_scavenge tokens).recycler]
    exact Home.scavenge_keeps (Home.lookKept_balanced _) tokens hBalanced
  pop _ hBalanced := hBalanced
  forget hBalanced := hBalanced.forget _

/-- After every run, a stack has its budget balanced and keeps to the bounds of its recycler. -/
theorem balanced_run (configs : Array RecyclerConfig) (ops : List Op) {id : Nat} {home : Home}
    (hHome : ((create configs).run ops).home? id = some home)
    (hValid : ((create configs).config home.recycler).validate = .ok ()) :
    home.Balanced ((create configs).config home.recycler) ∧
      home.Sound ((create configs).config home.recycler) := by
  have hBalanced := (homeKept_balanced (create configs).config).lasting.run ops
    (homes_create configs _)
  have hSound := (homeKept_sound (create configs).config).lasting.run ops (homes_create configs _)
  exact ⟨hBalanced.all id home hHome,
    hSound.all id home hHome (RecyclerConfig.linkCapacity_pos hValid)⟩

/-- After every run, what is left of the budget of a stack and the slots of all links of the queues
towards it, adopted or pending, are the whole budget. So no more than that is ever left, nothing was
ever taken that was not left, and no more items wait in the queues than the budget has slots. -/
theorem run_budget_conserved (configs : Array RecyclerConfig) (ops : List Op) (id : Nat)
    (home : Home) (hHome : ((create configs).run ops).home? id = some home)
    (hValid : ((create configs).config home.recycler).validate = .ok ()) :
    let c := (create configs).config home.recycler
    home.budget + c.linkCapacity * total (home.inbound.map (·.queue.numLinks)) =
        c.sharedCapacity ∧
      home.budget ≤ c.sharedCapacity ∧
        (home.inbound.flatMap (·.queue.waiting)).length ≤ c.sharedCapacity := by
  intro c
  obtain ⟨hBalanced, hSound⟩ := balanced_run configs ops hHome hValid
  have hWaiting := hSound.length_waiting_le
  have hWhole : home.budget + home.cost = c.sharedCapacity := hBalanced
  refine ⟨?_, ?_, ?_⟩
  · rw [← hSound.cost_eq]
    exact hBalanced
  · omega
  · omega

/-- A thread lends nineteen items; two others give seventeen and two of them back. -/
def givenBackByTwo : List Op :=
  (List.range 19).map (fun _ => .get (.thread 0) 0) ++
    (List.range 19).map fun i =>
      .recycle (.thread (if i < 17 then 1 else 2)) 0 ⟨.plain i, .live i⟩

theorem run_budget_conserved_by_two :
    ∃ home, ((create #[.defaults 1]).run givenBackByTwo).home? 0 = some home ∧
      total (home.inbound.map (·.queue.numLinks)) = 3 ∧ home.budget + 16 * 3 = 2048 := by
  have hConfig : ∀ recycler, (create #[.defaults 1]).config recycler = .defaults 1 := by
    intro recycler
    cases recycler with
    | zero => rfl
    | succ recycler => simp [config, create]
  have hLinks : (((create #[.defaults 1]).run givenBackByTwo).home? 0).map
      (fun home => total (home.inbound.map (·.queue.numLinks))) = some 3 := by decide +kernel
  obtain ⟨home, hHome, hThree⟩ := Option.map_eq_some_iff.mp hLinks
  obtain ⟨hWhole, -⟩ := run_budget_conserved #[.defaults 1] givenBackByTwo 0 home hHome
    (by rw [hConfig]; rfl)
  rw [hConfig, hThree] at hWhole
  exact ⟨home, hHome, hThree, hWhole⟩

end Recyclers

end BlockPool.Recycling
