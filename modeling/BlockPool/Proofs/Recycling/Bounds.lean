import BlockPool.Proofs.Recycling.Homes

/-!
# BlockPool — the bounds of every stack

Every stack keeps to the bounds of its recycler, and so does every queue towards it, as long as a
link has slots at all.

* `Home.Sound` — a stack within the bounds of its recycler, and queues of the shape that adding and
  reading give them.
* `Recyclers.sound_run` — every stack is like that after every run.
-/

namespace BlockPool

/-- A link of a recycler that was checked has slots. -/
theorem RecyclerConfig.linkCapacity_pos {c : RecyclerConfig} (hValid : c.validate = .ok ()) :
    0 < c.linkCapacity := by
  unfold validate at hValid
  split at hValid
  · exact absurd hValid (by simp)
  · split at hValid
    · exact absurd hValid (by simp)
    · split at hValid
      · exact absurd hValid (by simp)
      · rename_i hLink
        rw [not_or, Nat.not_lt] at hLink
        exact Nat.lt_of_lt_of_le (by decide) hLink.1

namespace Recycling

namespace Home

variable {h h' : Home} {tokens : Tokens} {p : Pooled} {c : RecyclerConfig} {i : Inbound}
  {stack : Stack} {queues pending : List Inbound} {sender : Nat}

/-- What every reachable stack satisfies, for the limits of its recycler. -/
structure Sound (h : Home) (c : RecyclerConfig) : Prop where
  stack : h.stack.Sound
  maxCapacity : h.stack.maxCapacity = c.maxCapacityPerThread
  ratio : h.stack.ratio = c.ratio
  queues : ∀ i ∈ h.inbound, i.queue.Sound ∧ i.queue.linkCapacity = c.linkCapacity

theorem sound_empty (recycler thread : Nat) (c : RecyclerConfig) :
    (empty recycler thread c).Sound c :=
  ⟨Stack.sound_empty c, rfl, rfl, fun _ hi => absurd hi (by simp [inbound, empty])⟩

theorem Sound.push (hSound : h.Sound c) (tokens : Tokens) (p : Pooled) :
    Sound { h with stack := (h.stack.push tokens p).2.1 } c := by
  obtain ⟨-, hMax, hRatio, -⟩ := h.stack.push_frame tokens p
  exact ⟨hSound.stack.push tokens p, hMax.trans hSound.maxCapacity, hRatio.trans hSound.ratio,
    hSound.queues⟩

theorem Sound.pop {entries : List Pooled} (hSound : h.Sound c)
    (hEntries : h.stack.entries = p :: entries) :
    Sound { h with stack := { h.stack with entries } } c := by
  refine ⟨⟨?_, hSound.stack.capacity_le, hSound.stack.capacity_pos⟩, hSound.maxCapacity,
    hSound.ratio, hSound.queues⟩
  have hSize := hSound.stack.size_le
  rw [Stack.size, hEntries, List.length_cons] at hSize
  exact Nat.le_of_succ_le hSize

theorem Sound.add (hSound : h.Sound c) (hAdd : h.addFrom? sender p = some h') : h'.Sound c := by
  obtain ⟨queue, queue', budget, hQueue, hAdded, rfl⟩ := addFrom?_eq_some hAdd
  obtain ⟨own, hFind, rfl⟩ := Option.map_eq_some_iff.mp hQueue
  obtain ⟨hShape, hCapacity⟩ := hSound.queues own (List.mem_of_find?_eq_some hFind)
  refine ⟨hSound.stack, hSound.maxCapacity, hSound.ratio, fun i hi => ?_⟩
  have hIn : i ∈ (h.setQueueFrom sender queue').inbound := hi
  rw [setQueueFrom, inbound_mapInbound] at hIn
  obtain ⟨before, hBefore, rfl⟩ := List.mem_map.mp hIn
  split
  · exact ⟨hShape.add hAdded, (Queue.linkCapacity_add hAdded).trans hCapacity⟩
  · exact hSound.queues before hBefore

theorem Sound.opens (hSound : h.Sound c) (hPos : 0 < c.linkCapacity)
    (hOpen : h.openFrom? sender c.linkCapacity p = some h') : h'.Sound c := by
  obtain ⟨queue, budget, hAdded, rfl⟩ := openFrom?_eq_some hOpen
  refine ⟨hSound.stack, hSound.maxCapacity, hSound.ratio, fun i hi => ?_⟩
  have hIn : i ∈ h.inbound ++ [⟨some sender, queue⟩] := by
    rw [inbound, List.append_assoc]
    exact hi
  rcases List.mem_append.mp hIn with hOld | hNew
  · exact hSound.queues i hOld
  · rw [List.mem_singleton.mp hNew]
    exact ⟨(Queue.sound_fresh hPos).add hAdded, Queue.linkCapacity_add hAdded⟩

/-- Looking at the queues keeps within bounds. -/
theorem lookKept_sound (c : RecyclerConfig) : LookKept fun h => h.Sound c where
  transfer {h i} tokens hAt hSound := by
    obtain ⟨hShape, hCapacity⟩ :=
      hSound.queues i (List.mem_append_left _ (List.mem_of_getElem? hAt))
    have hReads := i.queue.reads_transfer h.stack tokens
    refine ⟨Queue.sound_stack_transfer hSound.stack _ _,
      hReads.maxCapacity.trans hSound.maxCapacity, hReads.ratio.trans hSound.ratio,
      fun j hj => ?_⟩
    rcases List.mem_cons.mp ((inbound_afterTransfer hAt _).subset hj) with rfl | hOther
    · exact ⟨hShape.transfer h.stack tokens, hReads.linkCapacity.trans hCapacity⟩
    · exact hSound.queues j ((inbound_perm hAt).symm.subset (List.mem_cons_of_mem _ hOther))
  retire {h i} tokens hAt _ hSound := by
    obtain ⟨hShape, -⟩ := hSound.queues i (List.mem_append_left _ (List.mem_of_getElem? hAt))
    have hReads := i.queue.reads_drain h.stack tokens
    refine ⟨(hShape.drainWithin hSound.stack _ _).2, hReads.maxCapacity.trans hSound.maxCapacity,
      hReads.ratio.trans hSound.ratio, fun j hj => ?_⟩
    exact hSound.queues j ((inbound_perm hAt).symm.subset (List.mem_cons_of_mem _ hj))
  cursor _ hSound := ⟨hSound.stack, hSound.maxCapacity, hSound.ratio, hSound.queues⟩
  adopt {h} hSound := by
    refine ⟨hSound.stack, hSound.maxCapacity, hSound.ratio, fun i hi => hSound.queues i ?_⟩
    rwa [inbound_adopt] at hi

theorem Sound.forget (hSound : h.Sound c) (thread : Nat) : (h.forgetSender thread).Sound c := by
  refine ⟨hSound.stack, hSound.maxCapacity, hSound.ratio, fun i hi => ?_⟩
  rw [inbound_forgetSender] at hi
  obtain ⟨before, hBefore, rfl⟩ := List.mem_map.mp hi
  split
  · exact hSound.queues before hBefore
  · exact hSound.queues before hBefore

end Home

namespace Recyclers

variable {thread recycler : Nat}

/-- Every change of a stack keeps it within the bounds of its recycler. -/
theorem homeKept_sound (config : Nat → RecyclerConfig) : HomeKept config fun home =>
    0 < (config home.recycler).linkCapacity → home.Sound (config home.recycler) where
  empty recycler thread _ := Home.sound_empty recycler thread _
  push hSound hPos := (hSound hPos).push _ _
  add _ hAdd hSound hPos := by
    obtain ⟨queue, queue', budget, -, -, rfl⟩ := Home.addFrom?_eq_some hAdd
    exact (hSound hPos).add hAdd
  opens _ hOpen hSound hPos := by
    obtain ⟨queue, budget, -, rfl⟩ := Home.openFrom?_eq_some hOpen
    exact (hSound hPos).opens hPos hOpen
  scavenge {home tokens} hSound hPos := by
    have hSame := (home.gathers_scavenge tokens).recycler
    rw [hSame] at hPos ⊢
    exact Home.scavenge_keeps (Home.lookKept_sound _) tokens (hSound hPos)
  pop hEntries hSound hPos := (hSound hPos).pop hEntries
  forget hSound hPos := (hSound hPos).forget _

/-- The limits of recyclers do not change. -/
theorem config_run (configs : Array RecyclerConfig) (ops : List Op) :
    ((create configs).run ops).config = (create configs).config :=
  ((homeKept_sound (create configs).config).lasting.run ops (homes_create configs _)).config

/-- After every run, the stack of a thread is within the bounds of its recycler. -/
theorem sound_run (configs : Array RecyclerConfig) (ops : List Op) (thread recycler : Nat)
    (hPos : 0 < ((create configs).config recycler).linkCapacity) :
    (((create configs).run ops).ensureHome thread recycler).2.1.Sound
      ((create configs).config recycler) := by
  have hKept := homeKept_sound (create configs).config
  have hRun := hKept.lasting.run ops (homes_create configs _)
  have hEntered := hKept.enter hRun thread recycler
  obtain ⟨-, hRecycler, -⟩ := ((create configs).run ops).ensureHome_cases thread recycler
  have hSound := hEntered.all _ _ (((create configs).run ops).home?_ensureHome thread recycler)
  rw [hRecycler] at hSound
  exact hSound hPos

end Recyclers

end Recycling

end BlockPool
