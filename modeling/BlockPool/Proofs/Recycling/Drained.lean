import BlockPool.Proofs.Recycling.Budget

/-!
# BlockPool — drained queues

A queue that was read to its end is a single link, the one that is written. Its slots are given back
only once another link follows it, and another link follows only if the budget has room for it. So
where nothing waits in any queue towards a stack, the queues hold one link each, and an item that
comes next is kept if the link of its queue was not read to its end or if the budget has room for
one link more than there are queues. Otherwise it is not kept, and neither is any after it.

* `Queue.Sound.rest_of_drained` — a drained queue is a single link.
* `Home.Balanced.budget_of_drained` — what is left of the budget then.
* `Recyclers.run_drained_answer` — what becomes of the next item.
-/

namespace BlockPool.Recycling

variable {q : Queue} {p : Pooled} {c : RecyclerConfig}

-- ---------------------------------------------------------------------------
-- Drained queues
-- ---------------------------------------------------------------------------

/-- In a queue with several links, something waits in the last one. -/
theorem Queue.Sound.rest_of_drained (h : q.Sound) (hNone : q.waiting = []) : q.rest = [] := by
  cases hRest : q.rest with
  | nil => rfl
  | cons next rest =>
    have hNext : next ∈ q.rest := hRest ▸ List.mem_cons_self
    have hLinks := List.flatMap_eq_nil_iff.mp hNone
    exact absurd (hLinks next (List.mem_cons_of_mem _ hNext)) (h.unread next hNext).2

/-- An item is written unless the last link is full and the budget has no room for another one. -/
theorem Queue.isSome_add (q : Queue) (p : Pooled) (budget : Nat) :
    (q.add p budget).isSome = true ↔
      q.back.written ≠ q.linkCapacity ∨ q.linkCapacity ≤ budget := by
  unfold add
  split
  · rename_i hFull
    split
    · rename_i hSpent
      simp [hFull, hSpent]
    · rename_i hRoom
      simp [Nat.le_of_not_lt hRoom]
  · rename_i hRoom
    simp [hRoom]

namespace Home

variable {h : Home}

/-- Nothing waits in any queue towards the stack. -/
def Drained (h : Home) : Prop := ∀ i ∈ h.inbound, i.queue.waiting = []

instance (h : Home) : Decidable h.Drained :=
  inferInstanceAs (Decidable (∀ i ∈ h.inbound, i.queue.waiting = []))

/-- Drained queues take up one link each; what they leave of the budget is as much as others can
have. -/
theorem Balanced.budget_of_drained (hBalanced : h.Balanced c) (hSound : h.Sound c)
    (hDrained : h.Drained) : h.budget + c.linkCapacity * h.numQueues = c.sharedCapacity := by
  have hLinks : ∀ queues : List Inbound, (∀ i ∈ queues, i.queue.numLinks = 1) →
      total (queues.map (·.queue.numLinks)) = queues.length := by
    intro queues hSingle
    induction queues with
    | nil => rfl
    | cons i rest ih =>
      have hFirst := hSingle i List.mem_cons_self
      have hRest := ih fun j hj => hSingle j (List.mem_cons_of_mem _ hj)
      rw [List.map_cons, total_cons, hFirst, hRest, List.length_cons, Nat.add_comm]
  have hSingle : ∀ i ∈ h.inbound, i.queue.numLinks = 1 := by
    intro i hi
    rw [Queue.numLinks, (hSound.queues i hi).1.rest_of_drained (hDrained i hi)]
    rfl
  rw [Balanced, hSound.cost_eq, hLinks h.inbound hSingle] at hBalanced
  exact hBalanced

theorem isSome_addFrom? {sender : Nat} (hQueue : h.queueFrom? sender = some q) (p : Pooled) :
    (h.addFrom? sender p).isSome = (q.add p h.budget).isSome := by
  simp only [addFrom?, hQueue, Option.bind_eq_bind, Option.bind_some]
  cases q.add p h.budget <;> rfl

/-- Towards a stack with nothing in its queues, a thread can write into its queue if the link was
not read to its end or if the budget has room for one link more than there are queues. -/
theorem Balanced.isSome_addFrom?_of_drained {sender : Nat} (hBalanced : h.Balanced c)
    (hSound : h.Sound c) (hDrained : h.Drained) (hQueue : h.queueFrom? sender = some q)
    (p : Pooled) : (h.addFrom? sender p).isSome = true ↔
      q.front.read < c.linkCapacity ∨ c.linkCapacity * (h.numQueues + 1) ≤ c.sharedCapacity := by
  obtain ⟨i, hFind, rfl⟩ := Option.map_eq_some_iff.mp hQueue
  have hIn := List.mem_of_find?_eq_some hFind
  obtain ⟨hShape, hCapacity⟩ := hSound.queues i hIn
  have hBudget := hBalanced.budget_of_drained hSound hDrained
  have hBack : i.queue.back = i.queue.front := by
    rw [Queue.back, hShape.rest_of_drained (hDrained i hIn)]
    rfl
  have hWritten : i.queue.front.written = i.queue.front.read := by
    have hNone := List.flatMap_eq_nil_iff.mp (hDrained i hIn) i.queue.front List.mem_cons_self
    rw [Queue.Link.written, hNone]
    rfl
  have hLe := hShape.written_le i.queue.front List.mem_cons_self
  rw [isSome_addFrom? hQueue, Queue.isSome_add, hBack, hCapacity, hWritten, Nat.mul_succ]
  rw [hWritten, hCapacity] at hLe
  omega

end Home

namespace Recyclers

variable {s : Recyclers} {acc : Access} {home : Home} {id thread recycler : Nat}

-- ---------------------------------------------------------------------------
-- The next item
-- ---------------------------------------------------------------------------

/-- An item that is out goes over the queue that its thread writes, or is not kept. -/
theorem answer_offer_of_queued (hOut : s.tokens.Tells p.token recycler id false)
    (hHome : s.home? id = some home) (hThread : acc.thread = some thread)
    (hAway : home.thread ≠ thread) (hFree : home.recycler ∉ acc.busyRoutes)
    (hRoute : (s.routesOf thread home.recycler).lookup id = some .queued) :
    (s.offer acc recycler p).1.answer = .ok (home.addFrom? thread p).isSome := by
  have hSame : ({ s with tokens := s.tokens.markRecycled p.token } : Recyclers).routesOf thread
      home.recycler = s.routesOf thread home.recycler := rfl
  rw [offer_eq_offerAway hOut hHome hThread hAway, offerAway, if_neg (by simpa using hFree), hSame,
    hRoute]
  dsimp only
  cases home.addFrom? thread p <;> rfl

/-- After every run: where nothing waits in any queue towards a stack, an item of that stack that is
out and that another thread with a queue gives back is kept exactly if the link of the queue was not
read to its end or if the budget has room for one link more than there are queues. -/
theorem run_drained_answer (configs : Array RecyclerConfig) (ops : List Op) (id thread : Nat)
    (home : Home) (q : Queue) (p : Pooled)
    (hHome : ((create configs).run ops).home? id = some home)
    (hValid : ((create configs).config home.recycler).validate = .ok ())
    (hAway : home.thread ≠ thread) (hQueue : home.queueFrom? thread = some q)
    (hDrained : home.Drained)
    (hOut : ((create configs).run ops).tokens.Tells p.token home.recycler id false) :
    let c := (create configs).config home.recycler
    (((create configs).run ops).recycle (.thread thread) home.recycler p).1 =
      .ok (decide (q.front.read < c.linkCapacity ∨
        c.linkCapacity * (home.numQueues + 1) ≤ c.sharedCapacity)) := by
  intro c
  obtain ⟨hBalanced, hSound⟩ := balanced_run configs ops hHome hValid
  have hLinked : ((create configs).run ops).Linked :=
    lasting_linked.run ops (linked_create configs)
  have hSender : thread ∈ home.senders := by
    obtain ⟨i, hFind, -⟩ := Option.map_eq_some_iff.mp hQueue
    have hSame := List.find?_some hFind
    exact List.mem_filterMap.mpr ⟨i, List.mem_of_find?_eq_some hFind, by simpa using hSame⟩
  have hAnswer : (((create configs).run ops).offer (Access.ofCaller (.thread thread))
      home.recycler p).1.answer = .ok (home.addFrom? thread p).isSome :=
    answer_offer_of_queued hOut hHome rfl hAway List.not_mem_nil
      (hLinked.queued id home hHome thread hSender)
  have hKept := hBalanced.isSome_addFrom?_of_drained hSound hDrained hQueue p
  refine hAnswer.trans (congrArg Except.ok ?_)
  rw [Bool.eq_iff_iff, hKept, decide_eq_true_iff]

/-- One recycler whose stacks hold up to thirty-two items each, of which sixteen may wait in
queues: a single link. -/
def singleLink : Array RecyclerConfig :=
  #[{ RecyclerConfig.defaults 1 with ratio := 1, maxCapacityPerThread := 32 }]

/-- A thread lends seventeen items, another one gives some of them back, and the first one looks
for them. -/
def drainedAfter (count : Nat) : List Op :=
  (List.range 17).map (fun _ => .get (.thread 0) 0) ++
    (List.range count).map (fun i => .recycle (.thread 1) 0 ⟨.plain i, .live i⟩) ++
    [.scavenge (.thread 0) 0]

theorem run_drained_answer_after_fifteen :
    (((create singleLink).run (drainedAfter 15)).recycle (.thread 1) 0
      ⟨.plain 16, .live 16⟩).1 = .ok true := by
  have hState : (((create singleLink).run (drainedAfter 15)).home? 0).any (fun home =>
      home.thread ≠ 1 ∧ home.recycler = 0 ∧ home.Drained ∧
        (home.queueFrom? 1).any fun q => q.front.read < 16) = true := by decide +kernel
  have hOut : ((create singleLink).run (drainedAfter 15)).tokens.Tells (.live 16) 0 0 false :=
    ⟨false, by decide +kernel⟩
  obtain ⟨home, hHome, hSeen⟩ := (Option.any_eq_true ..).mp hState
  obtain ⟨hAway, hRecycler, hDrained, hQueue⟩ := of_decide_eq_true hSeen
  obtain ⟨q, hQueue, hRoom⟩ := (Option.any_eq_true ..).mp hQueue
  have hAnswer := run_drained_answer singleLink (drainedAfter 15) 0 1 home q ⟨.plain 16, .live 16⟩
    hHome (by rw [hRecycler]; rfl) hAway hQueue hDrained (by rw [hRecycler]; exact hOut)
  rw [hRecycler] at hAnswer
  rw [hAnswer, decide_eq_true (.inl (of_decide_eq_true hRoom))]

/-- After sixteen the link is read to its end, and the next item is turned away, although nothing
waits and the stack has room. -/
theorem drained_refuses_after_sixteen :
    let s := (create singleLink).run (drainedAfter 16)
    (∃ home, s.home? 0 = some home ∧ home.thread ≠ 1 ∧ home.recycler = 0 ∧
      (home.queueFrom? 1).isSome = true ∧ home.Drained ∧ home.stack.size < 32) ∧
      s.tokens.Tells (.live 16) 0 0 false ∧
        (s.recycle (.thread 1) 0 ⟨.plain 16, .live 16⟩).1 = .ok false := by
  have hState : (((create singleLink).run (drainedAfter 16)).home? 0).any (fun home =>
      home.thread ≠ 1 ∧ home.recycler = 0 ∧ (home.queueFrom? 1).isSome = true ∧ home.Drained ∧
        home.stack.size < 32) = true := by decide +kernel
  obtain ⟨home, hHome, hSeen⟩ := (Option.any_eq_true ..).mp hState
  exact ⟨⟨home, hHome, of_decide_eq_true hSeen⟩, ⟨false, by decide +kernel⟩, by decide +kernel⟩

end Recyclers

end BlockPool.Recycling
