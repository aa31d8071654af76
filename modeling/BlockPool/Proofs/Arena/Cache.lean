import BlockPool.Arena.Cache
import BlockPool.Proofs.Arena.Exchange
import BlockPool.Proofs.Store.Ring

/-!
# BlockPool — an arena behind a cache

The blocks that a cache holds are still owed by its arena. A cache that hands one out, or takes one
in, changes nothing in the arena; a trim gives some of them back. A queue holds blocks of one size
only, so a block that comes out of a queue has the size that was asked for.

* `Cache.Sound` — every held block was carved from a chunk and is in the queue for its size.
* `Cache.servedSize` — the one size that a queue is for.
* `Arena.Behind` — an arena owes what its cache holds and what others hold.
* `Arena.Behind.allocateCached`, `Arena.Behind.freeCached`, `Arena.Behind.trim` — and goes on to.
-/

namespace BlockPool

/-- The blocks of a queue, oldest first. -/
def CacheQueue.held (q : CacheQueue) : List Block := q.blocks.toList

-- ---------------------------------------------------------------------------
-- Lists of lists
-- ---------------------------------------------------------------------------

/-- Putting one list in place of another in a list of lists. -/
theorem flatMap_set_perm {α β : Type} (f : α → List β) {xs : List α} {i : Nat} {x : α} (y : α)
    (h : xs[i]? = some x) : (f x ++ (xs.set i y).flatMap f).Perm (f y ++ xs.flatMap f) := by
  induction xs generalizing i with
  | nil => simp at h
  | cons first rest ih =>
    cases i with
    | zero =>
      obtain rfl : first = x := by simpa using h
      rw [List.set_cons_zero, List.flatMap_cons, List.flatMap_cons, ← List.append_assoc,
        ← List.append_assoc]
      exact List.perm_append_comm.append_right _
    | succ i =>
      rw [List.set_cons_succ, List.flatMap_cons, List.flatMap_cons]
      refine List.perm_append_comm_assoc .. |>.trans ?_
      refine (List.Perm.append_left _ (ih (by simpa using h))).trans ?_
      exact List.perm_append_comm_assoc ..

namespace Cache

variable {c c' : Cache} {g : Geometry} {k : SizeClass} {size i : Nat} {q q' : CacheQueue}
  {block : Block} {config : PoolConfig}

/-- Every queue, tiny sizes first. -/
def queues (c : Cache) : List CacheQueue := c.tiny.toList ++ c.small.toList ++ c.normal.toList

/-- Every held block. -/
def blocks (c : Cache) : List Block := c.queues.flatMap (·.held)

theorem exists_queuesOf (h : q ∈ c.queues) :
    ∃ (k : SizeClass) (i : Nat), (c.queuesOf k)[i]? = some q := by
  have hPart : ∀ k, q ∈ (c.queuesOf k).toList →
      ∃ (k : SizeClass) (i : Nat), (c.queuesOf k)[i]? = some q := by
    intro k hMem
    obtain ⟨i, hAt⟩ := List.mem_iff_getElem?.mp hMem
    exact ⟨k, i, by rwa [Array.getElem?_toList] at hAt⟩
  rcases List.mem_append.mp h with hFront | hNormal
  · rcases List.mem_append.mp hFront with hTiny | hSmall
    · exact hPart .tiny hTiny
    · exact hPart .small hSmall
  · exact hPart .normal hNormal

/-- What every reachable cache of an arena of a geometry satisfies. -/
structure Sound (c : Cache) (g : Geometry) : Prop where
  geometry : c.geometry = g
  holds : ∀ (k : SizeClass) (i : Nat) (q : CacheQueue), (c.queuesOf k)[i]? = some q →
    q.blocks.Holds q.held
  filed : ∀ (k : SizeClass) (i : Nat) (q : CacheQueue), (c.queuesOf k)[i]? = some q →
    ∀ b ∈ q.held, b.isPooled = true ∧ g.Carved b.capacity ∧ g.sizeClass b.capacity = k ∧
      c.queueIndex? k b.capacity = some i

/-- Every queue stands for a list of blocks. -/
def Rings (c : Cache) : Prop :=
  ∀ (k : SizeClass) (i : Nat) (q : CacheQueue), (c.queuesOf k)[i]? = some q →
    q.blocks.Holds q.held

theorem Sound.rings (h : c.Sound g) : c.Rings := h.holds

-- ---------------------------------------------------------------------------
-- A queue for each size
-- ---------------------------------------------------------------------------

/-- The size of the blocks in a queue: the multiples of the quantum, then the powers of two from the
tiny limit on, then those from a page on. -/
def servedSize (g : Geometry) (k : SizeClass) (index : Nat) : Nat :=
  match k with
  | .tiny => index * Geometry.tinyQuantum
  | .small => Geometry.tinyLimit * 2 ^ index
  | .normal => g.pageSize * 2 ^ index
  | .huge => 0

/-- A size that a queue is for is the one size that the queue serves. -/
theorem eq_servedSize (hg : g.WellFormed) (hGeometry : c.geometry = g) (h : g.Carved size)
    (hClass : g.sizeClass size = k) (hIndex : c.queueIndex? k size = some i) :
    size = servedSize g k i := by
  cases k with
  | tiny =>
    -- tiny sizes are the multiples of the quantum, the others powers of two
    obtain ⟨m, rfl⟩ := h.exists_of_tiny (Geometry.lt_of_sizeClass_tiny hClass)
    simp only [queueIndex?, Geometry.tinyIndex, Geometry.tinyQuantum, Option.some.injEq] at hIndex
    show m * 16 = i * 16
    omega
  | small =>
    obtain ⟨m, hm, -, rfl⟩ := h.exists_of_tiny_le (Geometry.le_of_sizeClass_small hClass)
    simp only [queueIndex?, Geometry.smallIndex_two_pow hm, Option.some.injEq] at hIndex
    obtain rfl := hIndex
    rw [servedSize, show Geometry.tinyLimit = 2 ^ 9 by decide, ← pow_add]
    congr 1
    omega
  | normal =>
    obtain ⟨m, hm, -, rfl⟩ := h.exists_of_page_le hg (Geometry.pageSize_le_of_sizeClass hClass)
    simp only [queueIndex?, Nat.log2_two_pow, hGeometry] at hIndex
    split at hIndex
    · exact absurd hIndex (by simp)
    · obtain rfl := Option.some.inj hIndex
      rw [servedSize, hg.pageSize_eq, ← pow_add]
      congr 1
      omega
  | huge => exact absurd hIndex (by simp [queueIndex?])

/-- Two sizes with the same queue are the same size. -/
theorem eq_of_queueIndex? (hg : g.WellFormed) (hGeometry : c.geometry = g) {size' : Nat}
    (h : g.Carved size) (h' : g.Carved size') (hClass : g.sizeClass size = k)
    (hClass' : g.sizeClass size' = k) (hIndex : c.queueIndex? k size = some i)
    (hIndex' : c.queueIndex? k size' = some i) : size = size' :=
  (eq_servedSize hg hGeometry h hClass hIndex).trans
    (eq_servedSize hg hGeometry h' hClass' hIndex').symm

-- ---------------------------------------------------------------------------
-- One queue changes
-- ---------------------------------------------------------------------------

theorem queuesOf_setQueue (c : Cache) (k : SizeClass) (i : Nat) (q : CacheQueue)
    (other : SizeClass) :
    (c.setQueue k i q).queuesOf other =
      if other = k then (c.queuesOf k).setIfInBounds i q else c.queuesOf other := by
  cases k <;> cases other <;> simp [setQueue, setQueues, queuesOf]

theorem queueIndex?_setQueue (c : Cache) (k : SizeClass) (i : Nat) (q : CacheQueue)
    (other : SizeClass) (size : Nat) :
    (c.setQueue k i q).queueIndex? other size = c.queueIndex? other size := by
  cases k <;> cases other <;> rfl

/-- A queue in place of another: what was in the one goes, and what is in the other comes. -/
theorem blocks_setQueue_perm (h : (c.queuesOf k)[i]? = some q) (q' : CacheQueue) :
    (q.held ++ (c.setQueue k i q').blocks).Perm (q'.held ++ c.blocks) := by
  have hSet : ∀ queues : Array CacheQueue, queues[i]? = some q →
      (q.held ++ (queues.setIfInBounds i q').toList.flatMap (·.held)).Perm
        (q'.held ++ queues.toList.flatMap (·.held)) := by
    intro queues hAt
    rw [Array.toList_setIfInBounds]
    exact flatMap_set_perm _ q' (by simpa using hAt)
  rw [List.perm_iff_count]
  intro b
  have hCount := List.perm_iff_count.mp (hSet (c.queuesOf k) h) b
  cases k with
  | huge => exact absurd h (by simp [queuesOf])
  | _ =>
    simp only [blocks, queues, setQueue, setQueues, queuesOf, List.flatMap_append,
      List.count_append] at hCount ⊢
    omega

/-- Where another queue was put in, it is found, and everywhere else what was there before. -/
theorem of_getElem?_setQueue {other : SizeClass} {j : Nat}
    (h : ((c.setQueue k i q').queuesOf other)[j]? = some q) :
    (other = k ∧ j = i ∧ q = q') ∨
      (¬ (other = k ∧ j = i) ∧ (c.queuesOf other)[j]? = some q) := by
  rw [queuesOf_setQueue] at h
  split at h
  · rename_i hOther
    subst hOther
    rw [Array.getElem?_setIfInBounds] at h
    split at h
    · rename_i hj
      split at h
      · exact .inl ⟨rfl, hj.symm, (Option.some.inj h).symm⟩
      · exact absurd h (by simp)
    · rename_i hj
      exact .inr ⟨fun hBoth => hj hBoth.2.symm, h⟩
  · rename_i hOther
    exact .inr ⟨fun hBoth => hOther hBoth.1, h⟩

theorem Sound.setQueue (h : c.Sound g) (hHolds : q'.blocks.Holds q'.held)
    (hFiled : ∀ b ∈ q'.held, b.isPooled = true ∧ g.Carved b.capacity ∧
      g.sizeClass b.capacity = k ∧ c.queueIndex? k b.capacity = some i) :
    (c.setQueue k i q').Sound g := by
  refine ⟨?_, fun other j q hAt => ?_, fun other j q hAt b hb => ?_⟩
  · rw [← h.geometry]
    cases k <;> rfl
  · rcases of_getElem?_setQueue hAt with ⟨rfl, rfl, rfl⟩ | ⟨-, hBefore⟩
    · exact hHolds
    · exact h.holds other j q hBefore
  · rw [queueIndex?_setQueue]
    rcases of_getElem?_setQueue hAt with ⟨rfl, rfl, rfl⟩ | ⟨-, hBefore⟩
    · exact hFiled b hb
    · exact h.filed other j q hBefore b hb

theorem queueFor?_eq_some (h : c.queueFor? k size = some (i, q)) :
    c.queueIndex? k size = some i ∧ (c.queuesOf k)[i]? = some q := by
  simp only [queueFor?, Option.bind_eq_bind, Option.bind_eq_some_iff, Option.pure_def,
    Option.some.injEq, Prod.mk.injEq] at h
  obtain ⟨j, hIndex, queue, hQueue, rfl, rfl⟩ := h
  exact ⟨hIndex, hQueue⟩

/-- Takes a block of a size out, if there is one. -/
def fetch (c : Cache) (k : SizeClass) (size : Nat) : Option Block × Cache :=
  match c.queueFor? k size with
  | none => (none, c)
  | some (index, queue) =>
    match queue.take? with
    | none => (none, c)
    | some (block, queue) => (some block, c.setQueue k index queue)

theorem take_eq (c : Cache) (a : Arena) (k : SizeClass) (size : Nat) :
    c.take a k size =
      if (c.fetch k size).2.attempts + 1 ≥ (c.fetch k size).2.trimInterval then
        ((c.fetch k size).1, ({ (c.fetch k size).2 with attempts := 0 } : Cache).trim a)
      else ((c.fetch k size).1,
        { (c.fetch k size).2 with attempts := (c.fetch k size).2.attempts + 1 }, a) := by
  unfold take fetch
  rfl

theorem take_fst (c : Cache) (a : Arena) (k : SizeClass) (size : Nat) :
    (c.take a k size).1 = (c.fetch k size).1 := by
  rw [take_eq]
  split <;> rfl

/-- Taking a block out changes neither the count of calls nor the interval. -/
theorem counts_fetch (c : Cache) (k : SizeClass) (size : Nat) :
    (c.fetch k size).2.attempts = c.attempts ∧
      (c.fetch k size).2.trimInterval = c.trimInterval := by
  unfold fetch
  split
  · exact ⟨rfl, rfl⟩
  · split
    · exact ⟨rfl, rfl⟩
    · cases k <;> exact ⟨rfl, rfl⟩

theorem Sound.setAttempts (h : c.Sound g) (attempts : Nat) :
    ({ c with attempts } : Cache).Sound g :=
  ⟨h.geometry, h.holds, h.filed⟩

/-- Either nothing comes out, or the oldest block of the queue for the size does, and is counted. -/
theorem Rings.fetch_cases (h : c.Rings) (k : SizeClass) (size : Nat) :
    c.fetch k size = (none, c) ∨ ∃ i q q' first rest, c.queueIndex? k size = some i ∧
      (c.queuesOf k)[i]? = some q ∧ q.held = first :: rest ∧ q'.blocks.Holds rest ∧
        q'.blocks.capacity = q.blocks.capacity ∧ q'.hits = q.hits + 1 ∧
          c.fetch k size = (some first, c.setQueue k i q') := by
  unfold Cache.fetch
  split
  · exact .inl rfl
  · rename_i i q hQueue
    obtain ⟨hIndex, hAt⟩ := queueFor?_eq_some hQueue
    have hHolds := h k i q hAt
    cases hHeld : q.held with
    | nil =>
      rw [hHeld] at hHolds
      rw [CacheQueue.take?, hHolds.pop_nil]
      exact .inl rfl
    | cons first rest =>
      rw [hHeld] at hHolds
      obtain ⟨ring, hPop, hRest, hCapacity⟩ := hHolds.pop_cons
      rw [CacheQueue.take?, hPop]
      exact .inr ⟨i, q, ⟨ring, q.hits + 1⟩, first, rest, hIndex, hAt, hHeld, hRest, hCapacity, rfl,
        rfl⟩

/-- What comes out and what is left is what was held. -/
theorem Rings.fetch_perm (h : c.Rings) (k : SizeClass) (size : Nat) :
    ((c.fetch k size).1.toList ++ (c.fetch k size).2.blocks).Perm c.blocks := by
  rcases h.fetch_cases k size with hNone |
    ⟨i, q, q', first, rest, -, hAt, hHeld, hRest, -, -, hSome⟩
  · rw [hNone]
    exact .refl _
  · rw [hSome]
    have hLeft : q'.held = rest := hRest.toList_eq
    have hPerm := blocks_setQueue_perm hAt q'
    rw [hHeld, hLeft] at hPerm
    exact (List.perm_append_left_iff rest).mp (List.perm_middle.trans hPerm)

/-- The oldest block of a queue comes out, and it has the size that was asked for. -/
theorem Sound.fetch (h : c.Sound g) (hg : g.WellFormed) (hSize : g.Carved size)
    (hClass : g.sizeClass size = k) :
    (c.fetch k size).2.Sound g ∧ ((c.fetch k size).1.toList ++ (c.fetch k size).2.blocks).Perm
        c.blocks ∧ ∀ block, (c.fetch k size).1 = some block → block.capacity = size := by
  refine ⟨?_, h.rings.fetch_perm k size, ?_⟩
  -- the queue without its first block, or the cache as it was
  · rcases h.rings.fetch_cases k size with hNone |
      ⟨i, q, q', first, rest, -, hAt, hHeld, hRest, -, -, hSome⟩
    · rw [hNone]
      exact h
    · rw [hSome]
      have hFiled := h.filed k i q hAt
      rw [hHeld] at hFiled
      have hLeft : q'.held = rest := hRest.toList_eq
      refine h.setQueue ?_ ?_
      · rw [hLeft]
        exact hRest
      · rw [hLeft]
        exact fun b hb => hFiled b (List.mem_cons_of_mem _ hb)
  · intro block hBlock
    rcases h.rings.fetch_cases k size with hNone |
      ⟨i, q, q', first, rest, hIndex, hAt, hHeld, -, -, -, hSome⟩
    · rw [hNone] at hBlock
      exact absurd hBlock (by simp)
    · rw [hSome] at hBlock
      obtain rfl : first = block := Option.some.inj hBlock
      have hFiled := h.filed k i q hAt
      rw [hHeld] at hFiled
      -- it was filed there, and a queue serves one size
      obtain ⟨-, hCarved, hSame, hPlace⟩ := hFiled first List.mem_cons_self
      exact eq_of_queueIndex? hg h.geometry hCarved hSize hSame hClass hPlace hIndex

/-- A block that is taken in goes behind the others in the queue for its size. -/
theorem Rings.of_park? (h : c.Rings) (hPark : c.park? k block = some c') :
    block.isPooled = true ∧ ∃ i q q', c.queueIndex? k block.capacity = some i ∧
      (c.queuesOf k)[i]? = some q ∧ q'.blocks.Holds (q.held ++ [block]) ∧
        q'.blocks.capacity = q.blocks.capacity ∧ q'.hits = q.hits ∧ c' = c.setQueue k i q' := by
  unfold park? at hPark
  split at hPark
  · rename_i hPooled
    split at hPark
    · exact absurd hPark (by simp)
    · rename_i i q hQueue
      obtain ⟨hIndex, hAt⟩ := queueFor?_eq_some hQueue
      obtain ⟨q', hPush, rfl⟩ := Option.map_eq_some_iff.mp hPark
      unfold CacheQueue.park? at hPush
      split at hPush
      · rename_i ring hRing
        obtain rfl := Option.some.inj hPush
        obtain ⟨-, hHolds, hCapacity⟩ := (h k i q hAt).of_push hRing
        exact ⟨hPooled, i, q, ⟨ring, q.hits⟩, hIndex, hAt, hHolds, hCapacity, rfl, rfl⟩
      · exact absurd hPush (by simp)
  · exact absurd hPark (by simp)

theorem Rings.park_perm (h : c.Rings) (hPark : c.park? k block = some c') :
    c'.blocks.Perm (block :: c.blocks) := by
  obtain ⟨-, i, q, q', -, hAt, hHolds, -, -, rfl⟩ := h.of_park? hPark
  have hNow : q'.held = q.held ++ [block] := hHolds.toList_eq
  have hPerm := blocks_setQueue_perm hAt q'
  rw [hNow, List.append_assoc] at hPerm
  exact (List.perm_append_left_iff q.held).mp hPerm

/-- A block that the cache takes in is held beside the others. -/
theorem Sound.park (h : c.Sound g) (hCarved : block.isPooled = true → g.Carved block.capacity)
    (hPark : c.park? (g.sizeClass block.capacity) block = some c') :
    c'.Sound g ∧ c'.blocks.Perm (block :: c.blocks) := by
  have hPerm := h.rings.park_perm hPark
  obtain ⟨hPooled, i, q, q', hIndex, hAt, hHolds, -, -, rfl⟩ := h.rings.of_park? hPark
  have hNow : q'.held = q.held ++ [block] := hHolds.toList_eq
  refine ⟨h.setQueue ?_ ?_, hPerm⟩
  · rw [hNow]
    exact hHolds
  · rw [hNow]
    intro b hb
    rcases List.mem_append.mp hb with hOld | hNew
    · exact h.filed _ i q hAt b hOld
    · obtain rfl := List.mem_singleton.mp hNew
      exact ⟨hPooled, hCarved hPooled, rfl, hIndex⟩

-- ---------------------------------------------------------------------------
-- All queues change
-- ---------------------------------------------------------------------------

/-- An operation on a queue takes some blocks out and leaves the others. -/
def Splits (f : CacheQueue → List Block × CacheQueue) : Prop :=
  ∀ q : CacheQueue, q.blocks.Holds q.held →
    ((f q).1 ++ (f q).2.held).Perm q.held ∧ (f q).2.blocks.Holds (f q).2.held

theorem splits_trim : Splits CacheQueue.trim := by
  intro q hHolds
  obtain ⟨hOut, hLeft, -⟩ := hHolds.take (q.blocks.capacity - q.hits)
  have hHeld : q.trim.2.held = q.held.drop (q.blocks.capacity - q.hits) := hLeft.toList_eq
  refine ⟨?_, ?_⟩
  · rw [hHeld, CacheQueue.trim, hOut]
    exact .of_eq (List.take_append_drop ..)
  · rw [hHeld]
    exact hLeft

theorem splits_drain : Splits CacheQueue.drain := by
  intro q hHolds
  obtain ⟨hOut, hLeft⟩ := hHolds.drain
  have hHeld : q.drain.2.held = [] := hLeft.toList_eq
  refine ⟨?_, ?_⟩
  · rw [hHeld, CacheQueue.drain, hOut, List.append_nil]
  · rw [hHeld]
    exact hLeft

theorem queuesOf_gather (c : Cache) (f : CacheQueue → List Block × CacheQueue) (k : SizeClass) :
    (c.gather f).2.queuesOf k = (c.queuesOf k).map fun q => (f q).2 := by
  cases k <;> simp [gather, queuesOf]

/-- What comes out of a cache and what is left is what was in it. -/
theorem Rings.gather_perm (h : c.Rings) {f : CacheQueue → List Block × CacheQueue}
    (hf : Splits f) : ((c.gather f).1 ++ (c.gather f).2.blocks).Perm c.blocks := by
  have hOut : (c.gather f).1 = c.queues.flatMap fun q => (f q).1 := by
    simp only [Cache.gather, queues, List.flatMap_append]
  have hLeft : (c.gather f).2.queues = c.queues.map fun q => (f q).2 := by
    simp only [Cache.gather, queues, List.map_append, Array.toList_map]
  have hHolds : ∀ q ∈ c.queues, q.blocks.Holds q.held := by
    intro q hq
    obtain ⟨k, i, hAt⟩ := exists_queuesOf hq
    exact h k i q hAt
  rw [blocks, hOut, hLeft, List.flatMap_map]
  refine (List.flatMap_append_perm ..).trans ?_
  exact List.Perm.flatMap_left _ fun q hq => (hf q (hHolds q hq)).1

theorem Sound.gather (h : c.Sound g) {f : CacheQueue → List Block × CacheQueue} (hf : Splits f) :
    ((c.gather f).1 ++ (c.gather f).2.blocks).Perm c.blocks ∧ (c.gather f).2.Sound g := by
  refine ⟨h.rings.gather_perm hf, h.geometry, fun k i q hAt => ?_, fun k i q hAt b hb => ?_⟩
  · rw [queuesOf_gather, Array.getElem?_map, Option.map_eq_some_iff] at hAt
    obtain ⟨q₀, hAt₀, rfl⟩ := hAt
    exact (hf q₀ (h.holds k i q₀ hAt₀)).2
  · rw [queuesOf_gather, Array.getElem?_map, Option.map_eq_some_iff] at hAt
    obtain ⟨q₀, hAt₀, rfl⟩ := hAt
    have hPerm := (hf q₀ (h.holds k i q₀ hAt₀)).1
    exact h.filed k i q₀ hAt₀ b (hPerm.mem_iff.mp (List.mem_append_right _ hb))

theorem Sound.blocks_drain (h : c.Sound g) : (c.gather CacheQueue.drain).2.blocks = [] := by
  refine List.flatMap_eq_nil_iff.mpr fun q hq => ?_
  obtain ⟨k, i, hAt⟩ := exists_queuesOf hq
  rw [queuesOf_gather, Array.getElem?_map, Option.map_eq_some_iff] at hAt
  obtain ⟨q₀, hAt₀, rfl⟩ := hAt
  exact (h.holds k i q₀ hAt₀).drain.2.toList_eq

-- ---------------------------------------------------------------------------
-- What a cache gives back
-- ---------------------------------------------------------------------------

/-- The blocks that a trim gives back. -/
def surplus (c : Cache) : List Block := (c.gather CacheQueue.trim).1

/-- The blocks that asking for a size gives back: those of a trim, if it is time for one. -/
def shed (c : Cache) (k : SizeClass) (size : Nat) : List Block :=
  if (c.fetch k size).2.attempts + 1 ≥ (c.fetch k size).2.trimInterval then
    (c.fetch k size).2.surplus
  else []

theorem arena_take (c : Cache) (a : Arena) (k : SizeClass) (size : Nat) :
    (c.take a k size).2.2 = release a (c.shed k size) := by
  rw [take_eq, shed]
  split <;> rfl

/-- What asking for a size gives back, what it hands out and what it leaves is what was held. -/
theorem Sound.take_perm (h : c.Sound g) (hg : g.WellFormed) (hSize : g.Carved size)
    (hClass : g.sizeClass size = k) (a : Arena) :
    (c.shed k size ++ ((c.take a k size).1.toList ++ (c.take a k size).2.1.blocks)).Perm
      c.blocks := by
  obtain ⟨hFetched, hPerm, -⟩ := h.fetch hg hSize hClass
  rw [take_eq, shed]
  split
  · have hTrimmed := ((hFetched.setAttempts 0).gather splits_trim).1
    exact (List.perm_append_comm_assoc ..).trans ((hTrimmed.append_left _).trans hPerm)
  · exact hPerm

-- ---------------------------------------------------------------------------
-- An empty cache
-- ---------------------------------------------------------------------------

theorem held_empty (size : Nat) : (CacheQueue.empty size).held = [] :=
  (Ring.holds_empty size).toList_eq

theorem eq_empty_of_array {size count : Nat} (h : (CacheQueue.array size count)[i]? = some q) :
    q = CacheQueue.empty size := by
  unfold CacheQueue.array at h
  split at h
  · exact absurd h (by simp)
  · exact (Array.mem_replicate.mp (Array.mem_of_getElem? h)).2

theorem exists_empty_of_queuesOf (h : ((empty g config).queuesOf k)[i]? = some q) :
    ∃ size, q = CacheQueue.empty size := by
  cases k with
  | huge => exact absurd h (by simp [queuesOf])
  | _ => exact ⟨_, eq_empty_of_array h⟩

theorem sound_empty (g : Geometry) (config : PoolConfig) : (empty g config).Sound g where
  geometry := rfl
  holds k i q hAt := by
    obtain ⟨size, rfl⟩ := exists_empty_of_queuesOf hAt
    rw [held_empty]
    exact Ring.holds_empty size
  filed k i q hAt b hb := by
    obtain ⟨size, rfl⟩ := exists_empty_of_queuesOf hAt
    rw [held_empty] at hb
    exact absurd hb (by simp)

theorem blocks_empty (g : Geometry) (config : PoolConfig) : (empty g config).blocks = [] := by
  refine List.flatMap_eq_nil_iff.mpr fun q hq => ?_
  obtain ⟨k, i, hAt⟩ := exists_queuesOf hq
  obtain ⟨size, rfl⟩ := exists_empty_of_queuesOf hAt
  exact held_empty size

/-- What a cache holds was carved from a chunk. -/
theorem Sound.isPooled_of_mem (h : c.Sound g) (hMem : block ∈ c.blocks) :
    block.isPooled = true := by
  obtain ⟨q, hQueue, hHeld⟩ := List.mem_flatMap.mp hMem
  obtain ⟨k, i, hAt⟩ := exists_queuesOf hQueue
  obtain ⟨hPooled, -⟩ := h.filed k i q hAt block hHeld
  exact hPooled

end Cache

namespace Arena

variable {a a' : Arena} {c c' : Cache} {g : Geometry} {k : SizeClass} {block : Block}
  {blocks rest : List Block} {result : Except ArenaError Block} {size : Nat}

-- ---------------------------------------------------------------------------
-- Blocks go back
-- ---------------------------------------------------------------------------

theorem geometry_release (a : Arena) (blocks : List Block) :
    (Cache.release a blocks).geometry = a.geometry := by
  induction blocks generalizing a with
  | nil => rfl
  | cons block blocks ih => exact (ih (a.free block).2).trans (geometry_free a block)

/-- The arena stays sound whatever is given back. -/
theorem Sound.sound_release (h : a.Sound) (blocks : List Block) :
    (Cache.release a blocks).Sound := by
  induction blocks generalizing a with
  | nil => exact h
  | cons block blocks ih => exact ih (h.free block)

/-- Giving owed blocks back one after the other leaves the others owed. -/
theorem Sound.release (h : a.Sound) (hOwes : a.Owes (blocks ++ rest)) :
    (Cache.release a blocks).Sound ∧ (Cache.release a blocks).geometry = a.geometry ∧
      (Cache.release a blocks).Owes rest := by
  refine ⟨h.sound_release blocks, geometry_release a blocks, ?_⟩
  induction blocks generalizing a with
  | nil => exact hOwes
  | cons block blocks ih =>
    obtain ⟨-, hTakes⟩ := h.takes_free hOwes
    exact ih hTakes.sound (hTakes.owes _ hOwes)

-- ---------------------------------------------------------------------------
-- An arena behind a cache
-- ---------------------------------------------------------------------------

/-- An arena behind a cache owes what the cache holds and what others hold. -/
structure Behind (a : Arena) (g : Geometry) (c : Cache) (rest : List Block) : Prop where
  geometry : a.geometry = g
  arena : a.Sound
  cache : c.Sound g
  owes : a.Owes (c.blocks ++ rest)

theorem Behind.wellFormed (h : a.Behind g c rest) : g.WellFormed := h.geometry ▸ h.arena.geometry

theorem Behind.perm (h : a.Behind g c rest) (hCache : c'.Sound g) {rest' : List Block}
    (hPerm : (c'.blocks ++ rest').Perm (c.blocks ++ rest)) : a.Behind g c' rest' :=
  ⟨h.geometry, h.arena, hCache, h.owes.perm hPerm.symm⟩

/-- What the arena hands out past the cache, others hold. -/
theorem Behind.of_serves (h : a.Behind g c rest) (hServes : a.Serves size result a') :
    a'.Behind g c (result.toOption.toList ++ rest) where
  geometry := hServes.geometry.trans h.geometry
  arena := hServes.sound
  cache := h.cache
  owes := (hServes.owes _ h.owes).perm (List.perm_append_comm_assoc ..)

theorem Behind.trim (h : a.Behind g c rest) : (c.trim a).2.Behind g (c.trim a).1 rest := by
  obtain ⟨hPerm, hCache⟩ := h.cache.gather Cache.splits_trim
  have hAll := hPerm.append_right rest
  rw [List.append_assoc] at hAll
  obtain ⟨hSound, hGeometry, hOwes⟩ := h.arena.release (h.owes.perm hAll.symm)
  exact ⟨hGeometry.trans h.geometry, hSound, hCache, hOwes⟩

theorem resembles_bindCache (a : Arena) : a.Resembles a.bindCache :=
  ⟨rfl, rfl, rfl, Nat.le_refl _⟩

theorem resembles_unbindCache (a : Arena) : a.Resembles a.unbindCache :=
  ⟨rfl, rfl, rfl, Nat.le_refl _⟩

theorem Behind.dissolve (h : a.Behind g c rest) :
    (c.dissolve a).geometry = g ∧ (c.dissolve a).Sound ∧ (c.dissolve a).Owes rest := by
  obtain ⟨hPerm, -⟩ := h.cache.gather Cache.splits_drain
  rw [h.cache.blocks_drain, List.append_nil] at hPerm
  obtain ⟨hSound, hGeometry, hOwes⟩ := h.arena.release
    (h.owes.perm (hPerm.append_right rest).symm)
  have hSame := resembles_unbindCache (Cache.release a (c.gather CacheQueue.drain).1)
  exact ⟨hSame.geometry.trans (hGeometry.trans h.geometry), hSame.sound hSound, hSame.owes hOwes⟩

/-- A cache hands out a block of the size that is asked for, or none, and may trim itself. -/
theorem Behind.take (h : a.Behind g c rest) (hSize : g.Carved size)
    (hClass : g.sizeClass size = k) :
    (c.take a k size).2.2.Behind g (c.take a k size).2.1 ((c.take a k size).1.toList ++ rest) ∧
      ∀ block, (c.take a k size).1 = some block → block.capacity = size := by
  obtain ⟨hCache, hPerm, hCapacity⟩ := h.cache.fetch h.wellFormed hSize hClass
  have hFetched : a.Behind g (c.fetch k size).2 ((c.fetch k size).1.toList ++ rest) := by
    refine h.perm hCache ?_
    rw [← List.append_assoc]
    exact (List.perm_append_comm.trans hPerm).append_right rest
  rw [Cache.take_eq]
  split
  · refine ⟨Behind.trim ?_, hCapacity⟩
    exact ⟨hFetched.geometry, hFetched.arena, hCache.setAttempts 0, hFetched.owes⟩
  · exact ⟨⟨hFetched.geometry, hFetched.arena, hCache.setAttempts _, hFetched.owes⟩, hCapacity⟩

theorem allocate_of_pos {request : Nat} (hPos : a.geometry.normalize request ≠ 0) :
    a.allocate request = a.allocateClass (a.geometry.sizeClass (a.geometry.normalize request))
      (a.geometry.normalize request) := by
  unfold allocate
  exact if_neg hPos

/-- Requests that no cache serves go past it. -/
theorem allocateCached_past {request : Nat} (hPast : a.geometry.normalize request = 0 ∨
      a.geometry.sizeClass (a.geometry.normalize request) = .huge) :
    a.allocateCached c request = ((a.allocate request).1, c, (a.allocate request).2) := by
  unfold Arena.allocateCached allocate
  dsimp only
  split
  · rfl
  · rename_i hPos
    rw [hPast.resolve_left hPos]
    rfl

/-- Other requests ask the cache first, and the arena after a miss. -/
theorem allocateCached_via {request : Nat} (hPos : a.geometry.normalize request ≠ 0)
    (hClass : a.geometry.sizeClass (a.geometry.normalize request) = k) (hSmall : k ≠ .huge) :
    a.allocateCached c request =
      match c.take a k (a.geometry.normalize request) with
      | (some block, c', a') => (.ok block, c', a')
      | (none, c', a') => ((a'.allocate request).1, c', (a'.allocate request).2) := by
  -- the arena that a miss asks has the same geometry
  have hGeometry : (c.take a k (a.geometry.normalize request)).2.2.geometry = a.geometry := by
    rw [Cache.arena_take, geometry_release]
  have hAsk := allocate_of_pos (hGeometry ▸ hPos)
  rw [hGeometry, hClass] at hAsk
  unfold Arena.allocateCached
  dsimp only
  rw [if_neg hPos, hClass]
  rcases hTake : c.take a k (a.geometry.normalize request) with ⟨block?, c', a'⟩
  rw [hTake] at hAsk
  cases k with
  | huge => exact absurd rfl hSmall
  | _ =>
    cases block? with
    | none => simp only [hAsk]
    | some block => rfl

/-- A request that goes through the cache is served like one that does not. -/
theorem Behind.allocateCached (h : a.Behind g c rest) (request : Nat) :
    (a.allocateCached c request).2.2.Behind g (a.allocateCached c request).2.1
        ((a.allocateCached c request).1.toOption.toList ++ rest) ∧
      ∀ block, (a.allocateCached c request).1 = .ok block →
        block.capacity = g.normalize request := by
  obtain rfl := h.geometry
  by_cases hPast : a.geometry.normalize request = 0 ∨
      a.geometry.sizeClass (a.geometry.normalize request) = .huge
  · rw [allocateCached_past hPast]
    have hServes := h.arena.serves_allocate request
    exact ⟨h.of_serves hServes, hServes.capacity⟩
  · obtain ⟨hPos, hSmall⟩ := not_or.mp hPast
    have hCarved := h.wellFormed.carved_of_class hPos hSmall
    obtain ⟨hBehind, hCapacity⟩ := h.take hCarved rfl
    rw [allocateCached_via hPos rfl hSmall]
    split
    · rename_i hTake
      rw [hTake] at hBehind hCapacity
      refine ⟨hBehind, fun block hBlock => hCapacity block ?_⟩
      rw [Except.ok.inj hBlock]
    · rename_i c' a' hTake
      rw [hTake] at hBehind
      have hServes := hBehind.arena.serves_allocate request
      rw [hBehind.geometry] at hServes
      exact ⟨hBehind.of_serves hServes, hServes.capacity⟩

/-- The blocks that a request through a cache gives back. -/
def shed (a : Arena) (c : Cache) (request : Nat) : List Block :=
  let size := a.geometry.normalize request
  let k := a.geometry.sizeClass size
  if size = 0 ∨ k = .huge then [] else c.shed k size

/-- An arena was left alone, or asked once; what is out then is the rest and what came out. -/
def Passes (a : Arena) (rest : List Block) (a' : Arena) (blocks : List Block) : Prop :=
  (a' = a ∧ blocks.Perm rest) ∨
    ∃ request, a' = (a.allocate request).2 ∧
      blocks.Perm ((a.allocate request).1.toOption.toList ++ rest)

theorem Passes.perm_append (h : a.Passes rest a' blocks) {others blocks' : List Block}
    (hPerm : blocks'.Perm (blocks ++ others)) : a.Passes (rest ++ others) a' blocks' := by
  rcases h with ⟨hSame, hBlocks⟩ | ⟨request, hSame, hBlocks⟩
  · exact .inl ⟨hSame, hPerm.trans (hBlocks.append_right others)⟩
  · refine .inr ⟨request, hSame, ?_⟩
    rw [← List.append_assoc]
    exact hPerm.trans (hBlocks.append_right others)

/-- A request through a cache gives some held blocks back first, and then hands another one out or
passes itself on to the arena. -/
theorem Behind.passes_allocateCached (h : a.Behind g c rest) (request : Nat) :
    ∃ kept, (a.shed c request ++ kept).Perm c.blocks ∧
      Passes (Cache.release a (a.shed c request)) kept (a.allocateCached c request).2.2
        ((a.allocateCached c request).1.toOption.toList ++
          (a.allocateCached c request).2.1.blocks) := by
  unfold shed
  dsimp only
  split
  · rename_i hPast
    rw [allocateCached_past hPast]
    exact ⟨c.blocks, .refl _, .inr ⟨request, rfl, .refl _⟩⟩
  · rename_i hBoth
    obtain ⟨hPos, hSmall⟩ := not_or.mp hBoth
    have hCarved : g.Carved (a.geometry.normalize request) := by
      obtain ⟨rfl, hArena, -, -⟩ := h
      exact hArena.geometry.carved_of_class hPos hSmall
    have hClass : g.sizeClass (a.geometry.normalize request) =
        a.geometry.sizeClass (a.geometry.normalize request) := by rw [h.geometry]
    have hPerm := h.cache.take_perm h.wellFormed hCarved hClass a
    -- an answer from the cache leaves the arena alone, and a miss asks it
    rw [allocateCached_via hPos rfl hSmall, ← Cache.arena_take]
    refine ⟨_, hPerm, ?_⟩
    split
    · rename_i hTake
      rw [hTake]
      exact .inl ⟨rfl, .refl _⟩
    · rename_i hTake
      rw [hTake]
      exact .inr ⟨request, rfl, .refl _⟩

/-- A block that was carved from a chunk and is out has a size that chunks serve. -/
theorem Behind.carved (h : a.Behind g c (block :: rest)) (hPooled : block.isPooled = true) :
    g.Carved block.capacity := by
  have hMem : block ∈ c.blocks ++ block :: rest := by simp
  exact h.geometry ▸ h.arena.carved h.owes hMem hPooled

/-- A block that goes back through the cache is always taken. -/
theorem Behind.freeCached (h : a.Behind g c (block :: rest)) :
    (a.freeCached c block).1 = .ok () ∧
      (a.freeCached c block).2.2.Behind g (a.freeCached c block).2.1 rest := by
  unfold Arena.freeCached
  split
  · rename_i c' hPark
    rw [h.geometry] at hPark
    obtain ⟨hCache, hPerm⟩ := h.cache.park h.carved hPark
    refine ⟨rfl, h.perm hCache ((hPerm.append_right rest).trans ?_)⟩
    exact List.perm_middle.symm
  · obtain ⟨hDone, hTakes⟩ := h.arena.takes_free (h.owes.perm List.perm_middle)
    exact ⟨hDone, hTakes.geometry.trans h.geometry, hTakes.sound, h.cache,
      hTakes.owes _ (h.owes.perm List.perm_middle)⟩

end Arena

end BlockPool
