import BlockPool.Proofs.Arena.Parked
import BlockPool.Proofs.Arena.Recovered

/-!
# BlockPool — what a trim gives back, and when

A thread cache in front of an arena is asked for blocks, takes blocks in, and is trimmed. Others use
the arena past it. A `Front` is such a cache with a log of what it was asked. What a trim gives back
can be said from the log alone: of each queue as many blocks as it has room for, less those that it
handed out since the last trim, and no more than are parked. The call that completes an interval
trims the cache after it has taken its own block.

* `Front.step` — the cache, or the arena past it, is used once.
* `Front.surplus` — what a trim gives back, by the log.
* `Front.Sound.step_take` — a call takes its block, and then trims the cache if it is its turn.
* `Front.run_trims_surplus` — what every trim keeps to.
-/

namespace BlockPool

-- ---------------------------------------------------------------------------
-- One queue
-- ---------------------------------------------------------------------------

/-- A trim takes the oldest blocks out and leaves the others in order. -/
theorem CacheQueue.trim_eq {q : CacheQueue} (hHolds : q.blocks.Holds q.held) :
    q.trim.1 = q.held.take (q.blocks.capacity - q.hits) ∧
      q.trim.2.held = q.held.drop (q.blocks.capacity - q.hits) ∧
      q.trim.2.blocks.capacity = q.blocks.capacity ∧ q.trim.2.hits = 0 := by
  obtain ⟨hOut, hLeft, hCapacity⟩ := hHolds.take (q.blocks.capacity - q.hits)
  exact ⟨hOut, hLeft.toList_eq, hCapacity, rfl⟩

-- ---------------------------------------------------------------------------
-- What a cache was asked
-- ---------------------------------------------------------------------------

/-- What a cache was asked, as far as its trims depend on it. -/
inductive CacheEvent where
  /-- It was asked for a block, and handed one out of a queue of a class, or none. -/
  | asked (found : Option (SizeClass × Nat))
  /-- It was trimmed. -/
  | trimmed
deriving DecidableEq, Repr

/-- What a cache was asked, the last first. -/
abbrev CacheLog := List CacheEvent

namespace CacheLog

/-- How often the cache was asked for a block. -/
def asks : CacheLog → Nat
  | [] => 0
  | .asked _ :: earlier => asks earlier + 1
  | .trimmed :: earlier => asks earlier

/-- The blocks that a queue handed out since the last trim. -/
def reuses (k : SizeClass) (i : Nat) : CacheLog → Nat
  | [] => 0
  | .asked found :: earlier => reuses k i earlier + if found = some (k, i) then 1 else 0
  | .trimmed :: _ => 0

end CacheLog

/-- A cache in front of an arena, the blocks of the arena that are out and not in the cache, and
what the cache was asked. -/
structure Front where
  config : PoolConfig
  cache : Cache
  arena : Arena
  held : List Block
  log : CacheLog

namespace Front

/-- What may happen to the cache and to the arena behind it. -/
inductive Op where
  /-- The cache is asked for a block of a size. -/
  | take (k : SizeClass) (size : Nat)
  /-- The cache is given one of the blocks that are out, and keeps it if it can. -/
  | park (k : SizeClass) (block : Nat)
  /-- The cache is trimmed. -/
  | trim
  /-- The arena is asked for a block past the cache. -/
  | allocate (request : Nat)
  /-- A block goes back to the arena past the cache. -/
  | free (block : Nat)
  /-- Other caches come and go. -/
  | bind (numCaches : Nat)

variable {f : Front} {k : SizeClass} {size i : Nat} {q : CacheQueue} {block : Block}

/-- A new cache for an arena that was never asked for anything. -/
def opened (index : Nat) (g : Geometry) (supply : Supply) (config : PoolConfig) : Front :=
  ⟨config, Cache.empty g config, (Arena.empty index g supply).bindCache, [], []⟩

/-- After so many calls the cache is trimmed. -/
def interval (f : Front) : Nat := max f.config.cacheTrimInterval 1

/-- The queue that hands out a block of a size, if one does. -/
def place (f : Front) (k : SizeClass) (size : Nat) : Option (SizeClass × Nat) :=
  if (f.cache.take f.arena k size).1.isSome then (f.cache.queueIndex? k size).map (k, ·) else none

/-- The log after one more call, by the number of calls. -/
def logged (f : Front) (k : SizeClass) (size : Nat) : CacheLog :=
  let log := .asked (f.place k size) :: f.log
  if f.interval ∣ CacheLog.asks log then .trimmed :: log else log

/-- The cache or the arena is used once. What names no block does nothing. -/
def step (f : Front) : Op → Front
  | .take k size =>
    let (block?, cache, arena) := f.cache.take f.arena k size
    { f with cache, arena, held := block?.toList ++ f.held, log := f.logged k size }
  | .park k i =>
    match f.held[i]? with
    | none => f
    | some block =>
      match f.cache.park? k block with
      | none => f
      | some cache => { f with cache, held := f.held.eraseIdx i }
  | .trim =>
    let (cache, arena) := f.cache.trim f.arena
    { f with cache, arena, log := .trimmed :: f.log }
  | .allocate request =>
    let (result, arena) := f.arena.allocate request
    { f with arena, held := result.toOption.toList ++ f.held }
  | .free i =>
    match f.held[i]? with
    | none => f
    | some block => { f with arena := (f.arena.free block).2, held := f.held.eraseIdx i }
  | .bind numCaches => { f with arena := { f.arena with numCaches } }

/-- They are used again and again. -/
def run (f : Front) (ops : List Op) : Front := ops.foldl step f

/-- How many blocks of a queue a trim takes out: those that it has room for, less those handed out
since the last trim, of those that it holds. -/
def count (f : Front) (k : SizeClass) (i : Nat) (q : CacheQueue) : Nat :=
  min q.held.length (f.config.cacheSize k - f.log.reuses k i)

/-- What a trim gives back: of each queue the blocks that were parked first. -/
def surplus (f : Front) : List Block :=
  [SizeClass.tiny, .small, .normal].flatMap fun k =>
    (f.cache.queuesOf k).toList.zipIdx.flatMap fun (q, i) => q.held.take (f.count k i q)

/-- A call has taken its block, and has not yet seen whether it completes the interval. -/
def fetched (f : Front) (k : SizeClass) (size : Nat) : Front :=
  { f with
    cache := { (f.cache.fetch k size).2 with attempts := (f.log.asks + 1) % f.interval }
    held := (f.cache.fetch k size).1.toList ++ f.held
    log := .asked (f.place k size) :: f.log }

-- ---------------------------------------------------------------------------
-- What every use keeps
-- ---------------------------------------------------------------------------

/-- The cache says of itself what the log says of it, and the arena owes what is out. -/
structure Sound (f : Front) : Prop where
  rings : f.cache.Rings
  capacity : ∀ (k : SizeClass) (i : Nat) (q : CacheQueue), (f.cache.queuesOf k)[i]? = some q →
    q.blocks.capacity = f.config.cacheSize k
  hits : ∀ (k : SizeClass) (i : Nat) (q : CacheQueue), (f.cache.queuesOf k)[i]? = some q →
    q.hits = f.log.reuses k i
  interval : f.cache.trimInterval = f.interval
  attempts : f.cache.attempts = f.log.asks % f.interval
  pooled : ∀ b ∈ f.cache.blocks, b.isPooled = true
  arena : f.arena.Sound
  owes : f.arena.Owes (f.cache.blocks ++ f.held)

theorem interval_pos (f : Front) : 0 < f.interval :=
  Nat.lt_of_lt_of_le Nat.one_pos (Nat.le_max_right ..)

/-- An empty cache is sound: its rings are empty, no hit was counted and no block is parked. -/
theorem sound_opened {g : Geometry} (hg : g.WellFormed) (index : Nat) (supply : Supply)
    (config : PoolConfig) : (opened index g supply config).Sound where
  rings := (Cache.sound_empty g config).rings
  capacity k i q hAt := by
    cases k with
    | huge => exact absurd hAt (by simp [Cache.queuesOf])
    | _ =>
      rw [Cache.eq_empty_of_array hAt]
      exact Array.size_replicate
  hits k i q hAt := by
    obtain ⟨size, rfl⟩ := Cache.exists_empty_of_queuesOf hAt
    rfl
  interval := rfl
  attempts := (Nat.zero_mod _).symm
  pooled b hb := by
    have hNone : (opened index g supply config).cache.blocks = [] := Cache.blocks_empty g config
    rw [hNone] at hb
    exact absurd hb (by simp)
  arena := (Arena.resembles_bindCache _).sound (Arena.sound_empty index hg supply)
  owes := by
    show (Arena.empty index g supply).bindCache.Owes ((Cache.empty g config).blocks ++ [])
    rw [Cache.blocks_empty]
    exact (Arena.resembles_bindCache _).owes (Arena.owes_empty index g supply)

/-- A queue in place of another, for which the log says what the queue says. -/
theorem Sound.setQueue (h : f.Sound) {q' : CacheQueue} {log : CacheLog} {held : List Block}
    (hAt : (f.cache.queuesOf k)[i]? = some q) (hHolds : q'.blocks.Holds q'.held)
    (hCapacity : q'.blocks.capacity = q.blocks.capacity)
    (hHits : q'.hits = log.reuses k i)
    (hOthers : ∀ other j, ¬ (other = k ∧ j = i) → log.reuses other j = f.log.reuses other j)
    {attempts : Nat} (hAttempts : attempts = log.asks % f.interval)
    (hPooled : ∀ b ∈ (f.cache.setQueue k i q').blocks, b.isPooled = true)
    (hPerm : ((f.cache.setQueue k i q').blocks ++ held).Perm (f.cache.blocks ++ f.held)) :
    ({ f with
      cache := { f.cache.setQueue k i q' with attempts }
      held
      log } : Front).Sound where
  rings other j found hFound := by
    rcases Cache.of_getElem?_setQueue hFound with ⟨rfl, rfl, rfl⟩ | ⟨-, hBefore⟩
    · exact hHolds
    · exact h.rings other j found hBefore
  capacity other j found hFound := by
    rcases Cache.of_getElem?_setQueue hFound with ⟨rfl, rfl, rfl⟩ | ⟨-, hBefore⟩
    · exact hCapacity.trans (h.capacity _ _ q hAt)
    · exact h.capacity other j found hBefore
  hits other j found hFound := by
    rcases Cache.of_getElem?_setQueue hFound with ⟨rfl, rfl, rfl⟩ | ⟨hElse, hBefore⟩
    · exact hHits
    · exact (h.hits other j found hBefore).trans (hOthers other j hElse).symm
  -- a queue does not say how often the cache is trimmed
  interval := by
    refine Eq.trans ?_ h.interval
    cases k <;> rfl
  attempts := hAttempts
  pooled := hPooled
  arena := h.arena
  owes := h.owes.perm hPerm.symm

/-- The cache and what it holds, with another count of calls. -/
theorem Sound.of_log (h : f.Sound) {log : CacheLog}
    (hReuses : ∀ k i, log.reuses k i = f.log.reuses k i) {attempts : Nat}
    (hAttempts : attempts = log.asks % f.interval) :
    ({ f with cache := { f.cache with attempts }, log } : Front).Sound where
  rings := h.rings
  capacity := h.capacity
  hits k i q hAt := (h.hits k i q hAt).trans (hReuses k i).symm
  interval := h.interval
  attempts := hAttempts
  pooled := h.pooled
  arena := h.arena
  owes := h.owes

/-- A call that has taken its block. -/
theorem Sound.fetched (h : f.Sound) (k : SizeClass) (size : Nat) : (f.fetched k size).Sound := by
  have hPerm := h.rings.fetch_perm k size
  have hPooled : ∀ b ∈ (f.cache.fetch k size).2.blocks, b.isPooled = true := fun b hb =>
    h.pooled b (hPerm.mem_iff.mp (List.mem_append_right _ hb))
  have hPlace : f.place k size = if (f.cache.fetch k size).1.isSome then
      (f.cache.queueIndex? k size).map (k, ·) else none := by
    rw [place, Cache.take_fst]
  unfold Front.fetched
  -- the log counts a reuse where a queue does
  rcases h.rings.fetch_cases k size with hNone |
    ⟨i, q, q', first, rest, hIndex, hAt, hHeld, hRest, hCapacity, hHits, hSome⟩
  · rw [hNone] at hPlace ⊢
    refine h.of_log (fun k i => ?_) rfl
    rw [hPlace]
    rfl
  · rw [hSome] at hPlace hPerm hPooled ⊢
    have hFound : f.place k size = some (k, i) := by rw [hPlace, hIndex]; rfl
    refine h.setQueue hAt ?_ hCapacity ?_ (fun other j hElse => ?_) rfl hPooled ?_
    · rw [show q'.held = rest from hRest.toList_eq]
      exact hRest
    · rw [hHits, h.hits k i q hAt, hFound]
      show _ = f.log.reuses k i + if some (k, i) = some (k, i) then 1 else 0
      rw [if_pos rfl]
    · rw [hFound]
      show f.log.reuses other j + (if some (k, i) = some (other, j) then 1 else 0) = _
      rw [if_neg]
      · rfl
      · intro hSame
        obtain ⟨rfl, rfl⟩ := Prod.mk.inj (Option.some.inj hSame)
        exact hElse ⟨rfl, rfl⟩
    · rw [← List.append_assoc]
      exact (List.perm_append_comm.trans hPerm).append_right f.held

/-- After a trim each queue is where it was, trimmed. -/
theorem queue_trim (f : Front) (k : SizeClass) (i : Nat) :
    ((f.step .trim).cache.queuesOf k)[i]? =
      ((f.cache.queuesOf k)[i]?).map fun q => q.trim.2 := by
  show ((f.cache.gather CacheQueue.trim).2.queuesOf k)[i]? = _
  rw [Cache.queuesOf_gather, Array.getElem?_map]

/-- What a trim gives back and what it leaves is what was held. -/
theorem Sound.trim_perm (h : f.Sound) :
    (f.cache.surplus ++ (f.step .trim).cache.blocks).Perm f.cache.blocks :=
  h.rings.gather_perm Cache.splits_trim

/-- A trim gives back the blocks of each queue that were parked first, and counts anew. -/
theorem Sound.trim (h : f.Sound) : (f.step .trim).Sound where
  rings k i q hAt := by
    rw [queue_trim, Option.map_eq_some_iff] at hAt
    obtain ⟨q₀, hAt₀, rfl⟩ := hAt
    exact (Cache.splits_trim q₀ (h.rings k i q₀ hAt₀)).2
  capacity k i q hAt := by
    rw [queue_trim, Option.map_eq_some_iff] at hAt
    obtain ⟨q₀, hAt₀, rfl⟩ := hAt
    obtain ⟨-, -, hCapacity, -⟩ := CacheQueue.trim_eq (h.rings k i q₀ hAt₀)
    exact hCapacity.trans (h.capacity k i q₀ hAt₀)
  hits k i q hAt := by
    rw [queue_trim, Option.map_eq_some_iff] at hAt
    obtain ⟨q₀, hAt₀, rfl⟩ := hAt
    rfl
  interval := h.interval
  attempts := h.attempts
  pooled b hb := h.pooled b (h.trim_perm.mem_iff.mp (List.mem_append_right _ hb))
  arena := h.arena.sound_release _
  -- what is kept and what is held was owed beside the surplus
  owes := by
    have hAll := h.trim_perm.append_right f.held
    rw [List.append_assoc] at hAll
    exact (h.arena.release (h.owes.perm hAll.symm)).2.2

/-- A count that starts over once it reaches a number is the remainder of the one that does not. -/
theorem turn_cases {m : Nat} (hPos : 0 < m) (n : Nat) :
    (m ∣ n + 1 ∧ m ≤ n % m + 1 ∧ (n + 1) % m = 0) ∨
      (¬ m ∣ n + 1 ∧ n % m + 1 < m ∧ (n + 1) % m = n % m + 1) := by
  have hLt := Nat.mod_lt n hPos
  have hNext : (n + 1) % m = (n % m + 1) % m := (Nat.mod_add_mod n m 1).symm
  rw [Nat.dvd_iff_mod_eq_zero, hNext]
  by_cases hLast : n % m + 1 = m
  · rw [hLast, Nat.mod_self]
    exact .inl ⟨rfl, Nat.le_refl _, rfl⟩
  · have hEarly : n % m + 1 < m := by omega
    rw [Nat.mod_eq_of_lt hEarly]
    exact .inr ⟨Nat.succ_ne_zero _, hEarly, rfl⟩

/-- A call takes its block, and then trims the cache if it completes the interval. -/
theorem Sound.step_take (h : f.Sound) (k : SizeClass) (size : Nat) :
    f.step (.take k size) = if f.interval ∣ f.log.asks + 1 then (f.fetched k size).step .trim
      else f.fetched k size := by
  obtain ⟨hAttempts, hInterval⟩ := Cache.counts_fetch f.cache k size
  rw [h.attempts] at hAttempts
  rw [h.interval] at hInterval
  rcases turn_cases f.interval_pos f.log.asks with ⟨hDue, hLast, hNext⟩ | ⟨hEarly, hLess, hNext⟩
  · have hLog : f.logged k size = .trimmed :: .asked (f.place k size) :: f.log := if_pos hDue
    rw [if_pos hDue, Front.step, hLog, Cache.take_eq, hAttempts, hInterval, if_pos hLast]
    simp only [Front.step, Front.fetched, hNext]
  · have hLog : f.logged k size = .asked (f.place k size) :: f.log := if_neg hEarly
    rw [if_neg hEarly, Front.step, hLog, Cache.take_eq, hAttempts, hInterval,
      if_neg (Nat.not_le.mpr hLess)]
    simp only [Front.fetched, hNext]

/-- A block that is parked stands last in its queue, and no count changes. -/
theorem Sound.park (h : f.Sound) (k : SizeClass) (i : Nat) : (f.step (.park k i)).Sound := by
  unfold Front.step
  dsimp only
  split
  · exact h
  · rename_i block hHeld
    split
    · exact h
    · rename_i cache hPark
      have hPerm := h.rings.park_perm hPark
      -- only pooled blocks get this far
      obtain ⟨hPooled, j, q, q', -, hAt, hHolds, hCapacity, hHits, rfl⟩ := h.rings.of_park? hPark
      refine h.setQueue hAt ?_ hCapacity (hHits.trans (h.hits k j q hAt)) (fun _ _ _ => rfl)
        ?_ (fun b hb => ?_) ?_
      · rw [show q'.held = q.held ++ [block] from hHolds.toList_eq]
        exact hHolds
      · refine Eq.trans ?_ h.attempts
        cases k <;> rfl
      · rcases List.mem_cons.mp (hPerm.mem_iff.mp hb) with rfl | hOld
        · exact hPooled
        · exact h.pooled b hOld
      · refine (hPerm.append_right _).trans ?_
        obtain ⟨hLt, rfl⟩ := List.getElem?_eq_some_iff.mp hHeld
        exact List.perm_middle.symm.trans ((List.getElem_cons_eraseIdx_perm hLt).append_left _)

theorem Sound.free (h : f.Sound) (i : Nat) : (f.step (.free i)).Sound := by
  unfold Front.step
  dsimp only
  split
  · exact h
  · rename_i block hHeld
    obtain ⟨hLt, hBlock⟩ := List.getElem?_eq_some_iff.mp hHeld
    have hOut : (f.cache.blocks ++ f.held).Perm
        (block :: (f.cache.blocks ++ f.held.eraseIdx i)) := by
      rw [← hBlock]
      exact ((List.getElem_cons_eraseIdx_perm hLt).symm.append_left _).trans List.perm_middle
    have hOwes := h.owes.perm hOut
    obtain ⟨-, hTakes⟩ := h.arena.takes_free hOwes
    exact ⟨h.rings, h.capacity, h.hits, h.interval, h.attempts, h.pooled, hTakes.sound,
      hTakes.owes _ hOwes⟩

theorem Sound.step (h : f.Sound) (op : Op) : (f.step op).Sound := by
  cases op with
  | take k size =>
    rw [h.step_take]
    split
    · exact (h.fetched k size).trim
    · exact h.fetched k size
  | park k i => exact h.park k i
  | trim => exact h.trim
  | allocate request =>
    have hServes := h.arena.serves_allocate request
    refine ⟨h.rings, h.capacity, h.hits, h.interval, h.attempts, h.pooled, hServes.sound, ?_⟩
    exact (hServes.owes _ h.owes).perm (List.perm_append_comm_assoc ..)
  | free i => exact h.free i
  | bind numCaches =>
    have hSame : f.arena.Resembles { f.arena with numCaches } := ⟨rfl, rfl, rfl, Nat.le_refl _⟩
    exact ⟨h.rings, h.capacity, h.hits, h.interval, h.attempts, h.pooled, hSame.sound h.arena,
      hSame.owes h.owes⟩

theorem Sound.run (h : f.Sound) (ops : List Op) : (f.run ops).Sound := by
  induction ops generalizing f with
  | nil => exact h
  | cons op rest ih => exact ih (h.step op)

-- ---------------------------------------------------------------------------
-- What a trim gives back
-- ---------------------------------------------------------------------------

/-- What a trim takes out of a queue, and what it leaves there, by the log. -/
theorem Sound.trim_queue (h : f.Sound) (hAt : (f.cache.queuesOf k)[i]? = some q) :
    q.trim.1 = q.held.take (f.count k i q) ∧ q.trim.2.held = q.held.drop (f.count k i q) := by
  obtain ⟨hOut, hLeft, -⟩ := CacheQueue.trim_eq (h.rings k i q hAt)
  rw [h.capacity k i q hAt, h.hits k i q hAt] at hOut hLeft
  rw [hOut, hLeft, count]
  rcases Nat.le_total q.held.length (f.config.cacheSize k - f.log.reuses k i) with hAll | hSome
  · rw [Nat.min_eq_left hAll, List.take_of_length_le hAll, List.drop_of_length_le hAll,
      List.take_length, List.drop_length]
    exact ⟨rfl, rfl⟩
  · rw [Nat.min_eq_right hSome]
    exact ⟨rfl, rfl⟩

/-- What a trim gives back is what the log says. -/
theorem Sound.surplus_eq (h : f.Sound) : f.cache.surplus = f.surplus := by
  have hClass : ∀ k, ((f.cache.queuesOf k).toList.flatMap fun q => q.trim.1) =
      (f.cache.queuesOf k).toList.zipIdx.flatMap fun (q, i) => q.held.take (f.count k i q) := by
    intro k
    calc (f.cache.queuesOf k).toList.flatMap (fun q => q.trim.1)
        = ((f.cache.queuesOf k).toList.zipIdx.map Prod.fst).flatMap (fun q => q.trim.1) := by
          rw [List.zipIdx_map_fst]
      _ = (f.cache.queuesOf k).toList.zipIdx.flatMap (fun entry => entry.1.trim.1) :=
          List.flatMap_map ..
      _ = _ := by
          refine List.flatMap_congr fun entry hEntry => ?_
          have hAt := List.mem_zipIdx_iff_getElem?.mp hEntry
          rw [Array.getElem?_toList] at hAt
          exact (h.trim_queue hAt).1
  rw [Front.surplus, List.flatMap_cons, List.flatMap_cons, List.flatMap_cons, List.flatMap_nil,
    ← hClass .tiny, ← hClass .small, ← hClass .normal, List.append_nil, ← List.append_assoc]
  rfl

/-- No block is parked twice, and none that is parked is out elsewhere. -/
theorem Sound.parked_once (h : f.Sound) :
    f.cache.blocks.Nodup ∧ ∀ b ∈ f.cache.blocks, b ∉ f.held := by
  have hOnce := h.owes.once
  rw [List.filter_append, List.filter_eq_self.mpr h.pooled, List.nodup_append] at hOnce
  refine ⟨hOnce.1, fun b hb hHeld => ?_⟩
  exact hOnce.2.2 b hb b (List.mem_filter.mpr ⟨hHeld, h.pooled b hb⟩) rfl

/-- What the log says that a trim gives back, the arena recovers. -/
theorem Sound.recovers_trim (h : f.Sound) : f.arena.Recovers f.surplus
    ((f.step .trim).cache.blocks ++ f.held) (f.step .trim).arena := by
  have hPerm := h.trim_perm.append_right f.held
  rw [List.append_assoc, h.surplus_eq] at hPerm
  have hRecovers := h.arena.recovers_release (h.owes.perm hPerm.symm)
  rwa [← h.surplus_eq] at hRecovers ⊢

/-- What a trim does. -/
structure Trims (f : Front) : Prop where
  /-- Each queue loses the blocks that were parked first, keeps the others in their order, and
  counts anew. -/
  queues : ∀ (k : SizeClass) (i : Nat) (q : CacheQueue), (f.cache.queuesOf k)[i]? = some q →
    q.blocks.capacity = f.config.cacheSize k ∧ q.hits = f.log.reuses k i ∧
      ∃ q', ((f.step .trim).cache.queuesOf k)[i]? = some q' ∧
        q'.held = q.held.drop (f.count k i q) ∧ q'.hits = 0
  /-- The arena has the others back, one after the other: it owed what was parked and what is out,
  and owes what is still parked and what is out. -/
  recovers : f.arena.Recovers f.surplus ((f.step .trim).cache.blocks ++ f.held)
    (f.step .trim).arena
  /-- Each of them is a live block of the arena before the trim, and none afterwards. -/
  gone : ∀ b ∈ f.surplus, ∃ id handle, b.origin = .pooled id handle ∧
    f.arena.blockAt? id handle = some b ∧ (f.step .trim).arena.blockAt? id handle = none
  /-- None goes back twice, and what goes back is neither in the cache any more nor elsewhere. -/
  once : (f.surplus ++ (f.step .trim).cache.blocks).Perm f.cache.blocks ∧
    f.cache.blocks.Nodup ∧ ∀ b ∈ f.surplus, b ∉ f.held

theorem Sound.trims (h : f.Sound) : f.Trims where
  queues k i q hAt := by
    refine ⟨h.capacity k i q hAt, h.hits k i q hAt, q.trim.2, ?_, (h.trim_queue hAt).2, rfl⟩
    rw [queue_trim, hAt]
    rfl
  recovers := h.recovers_trim
  gone b hb := by
    have hParked := h.trim_perm.mem_iff.mp (List.mem_append_left _ (h.surplus_eq.symm ▸ hb))
    have hPooled := h.pooled b hParked
    cases hOrigin : b.origin with
    | unpooled => simp [Block.isPooled, hOrigin] at hPooled
    | pooled id handle => exact ⟨id, handle, rfl, h.recovers_trim.gone b hb id handle hOrigin⟩
  once := by
    have hPerm := h.trim_perm
    rw [h.surplus_eq] at hPerm
    refine ⟨hPerm, h.parked_once.1, fun b hb => ?_⟩
    exact h.parked_once.2 b (hPerm.mem_iff.mp (List.mem_append_left _ hb))

-- ---------------------------------------------------------------------------
-- When a cache is trimmed
-- ---------------------------------------------------------------------------

/-- What a call does. -/
structure Calls (f : Front) : Prop where
  /-- The call takes its block first; if it completes an interval, the cache is trimmed then. -/
  turn : ∀ k size, f.step (.take k size) =
    if f.interval ∣ f.log.asks + 1 then (f.fetched k size).step .trim else f.fetched k size
  trims : ∀ k size, (f.fetched k size).Trims
  missed : ∀ k size, (f.cache.take f.arena k size).1 = none → f.place k size = none ∧
    ∀ other, (f.fetched k size).cache.queuesOf other = f.cache.queuesOf other
  /-- The block that was parked first is handed out, and it neither goes back nor stays parked. -/
  handed : ∀ k size block, (f.cache.take f.arena k size).1 = some block →
    (∃ i q q', f.place k size = some (k, i) ∧ (f.cache.queuesOf k)[i]? = some q ∧
      ((f.fetched k size).cache.queuesOf k)[i]? = some q' ∧ q.held = block :: q'.held) ∧
      block ∉ (f.fetched k size).surplus ∧ block ∉ (f.step (.take k size)).cache.blocks

/-- What a call finds: nothing, or the oldest block of a queue. -/
theorem Sound.found_cases (h : f.Sound) (k : SizeClass) (size : Nat) :
    ((f.cache.take f.arena k size).1 = none ∧ f.place k size = none ∧
      ∀ other, (f.fetched k size).cache.queuesOf other = f.cache.queuesOf other) ∨
    ∃ block i q q', (f.cache.take f.arena k size).1 = some block ∧ f.place k size = some (k, i) ∧
      (f.cache.queuesOf k)[i]? = some q ∧
      ((f.fetched k size).cache.queuesOf k)[i]? = some q' ∧ q.held = block :: q'.held := by
  have hTake := Cache.take_fst f.cache f.arena k size
  have hQueues : ∀ other, (f.fetched k size).cache.queuesOf other =
      (f.cache.fetch k size).2.queuesOf other := by
    intro other
    cases other <;> rfl
  rcases h.rings.fetch_cases k size with hNone |
    ⟨i, q, q', first, rest, hIndex, hAt, hHeld, hRest, -, -, hSome⟩
  · rw [hNone] at hTake hQueues
    exact .inl ⟨hTake, by rw [place, hTake]; rfl, hQueues⟩
  · rw [hSome] at hTake hQueues
    refine .inr ⟨first, i, q, q', hTake, by rw [place, hTake, hIndex]; rfl, hAt, ?_, ?_⟩
    · have hLt := (Array.getElem?_eq_some_iff.mp hAt).1
      rw [hQueues, Cache.queuesOf_setQueue, if_pos rfl, Array.getElem?_setIfInBounds_self_of_lt hLt]
    · rw [hHeld, show q'.held = rest from hRest.toList_eq]

/-- A call trims when its turn has come, and hands a block out that nobody else has. -/
theorem Sound.calls (h : f.Sound) : f.Calls where
  turn := h.step_take
  trims k size := (h.fetched k size).trims
  missed k size hNone := by
    rcases h.found_cases k size with ⟨-, hMissed⟩ | ⟨block, -, -, -, hSome, -⟩
    · exact hMissed
    · rw [hNone] at hSome
      exact absurd hSome (by simp)
  handed k size block hBlock := by
    rcases h.found_cases k size with ⟨hNone, -⟩ | ⟨block', i, q, q', hSome, hFound⟩
    · rw [hNone] at hBlock
      exact absurd hBlock (by simp)
    · obtain rfl : block' = block := Option.some.inj (hSome.symm.trans hBlock)
      refine ⟨⟨i, q, q', hFound⟩, fun hSurplus => ?_, fun hParked => ?_⟩
      -- it is held before the trim, so it is not in the surplus
      · refine (h.fetched k size).trims.once.2.2 block' hSurplus ?_
        show block' ∈ (f.cache.fetch k size).1.toList ++ f.held
        rw [← Cache.take_fst f.cache f.arena, hBlock]
        exact List.mem_cons_self
      · refine (h.step (.take k size)).parked_once.2 block' hParked ?_
        show block' ∈ (f.cache.take f.arena k size).1.toList ++ f.held
        rw [hBlock]
        exact List.mem_cons_self

/-- Whatever a cache was asked, a trim gives back of each queue the blocks that it has room for and
did not hand out since the last trim, the longest parked first, each once; and a call trims the
cache exactly if it completes the interval, after it has taken its own block. -/
theorem run_trims_surplus {g : Geometry} (hg : g.WellFormed) (index : Nat) (supply : Supply)
    (config : PoolConfig) (ops : List Op) :
    ((opened index g supply config).run ops).Trims ∧
      ((opened index g supply config).run ops).Calls := by
  have hSound := (sound_opened hg index supply config).run ops
  exact ⟨hSound.trims, hSound.calls⟩

/-- A queue for two blocks, with two parked and one handed out: a trim would give the older one
back. The third call hands that one out instead, and leaves the trim nothing to give back. -/
theorem run_trims_surplus_third_call :
    (⟨4096, 1, 0⟩ : Geometry).WellFormed ∧
      let f := (opened 0 ⟨4096, 1, 0⟩ (fun _ => Provider.below (2 ^ 20))
        { numArenas := 1, tinyCacheSize := 2, cacheTrimInterval := 3 }).run
        [.allocate 48, .allocate 48, .allocate 48, .park .tiny 2, .park .tiny 1, .take .tiny 48,
          .park .tiny 1, .take .tiny 64]
      (f.Trims ∧ f.Calls) ∧ f.cache.blocks.map (·.offset) = [48, 96] ∧
        f.surplus.map (·.offset) = [48] ∧
        (f.step (.take .tiny 48)).cache.blocks.map (·.offset) = [96] ∧
        (f.step (.take .tiny 48)).log.head? = some .trimmed := by
  refine ⟨Geometry.wellFormed_two_pages, run_trims_surplus Geometry.wellFormed_two_pages .., ?_, ?_,
    ?_, ?_⟩
  · decide +kernel
  · decide +kernel
  · decide +kernel
  · decide +kernel

end Front

end BlockPool
