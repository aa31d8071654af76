import BlockPool.Buffer.Allocator
import BlockPool.Proofs.Arena.Cache

/-!
# BlockPool — what the arenas of an allocator owe

Every block that is out came from one of the arenas and is held by someone or parked in the cache of
some thread. An arena owes those of its own. Each operation concerns one arena, and one cache at
most that is bound to it; what the other arenas owe stays as it was.

* `Allocator.Sound` — each arena owes the blocks that are held and parked of it.
* `Allocator.Sound.allocateBlock`, `Allocator.Sound.freeBlock` — a block comes out, or goes back.
* `Allocator.Sound.trimCache`, `Allocator.Sound.exitThread` — caches give blocks back.
-/

namespace BlockPool

variable {g : Geometry} {index i j thread : Nat} {bound bound' : BoundCache} {block : Block}

-- ---------------------------------------------------------------------------
-- Blocks by arena
-- ---------------------------------------------------------------------------

/-- Those of some blocks that came from one arena. -/
def inArena (i : Nat) (held : List (Nat × Block)) : List Block :=
  (held.filter fun p => p.1 = i).map (·.2)

theorem inArena_append (i : Nat) (xs ys : List (Nat × Block)) :
    inArena i (xs ++ ys) = inArena i xs ++ inArena i ys := by
  rw [inArena, List.filter_append, List.map_append]
  rfl

theorem inArena_cons_self (i : Nat) (block : Block) (xs : List (Nat × Block)) :
    inArena i ((i, block) :: xs) = block :: inArena i xs := by
  rw [inArena, List.filter_cons_of_pos (by simp)]
  rfl

theorem inArena_cons_of_ne (h : j ≠ i) (block : Block) (xs : List (Nat × Block)) :
    inArena i ((j, block) :: xs) = inArena i xs := by
  rw [inArena, List.filter_cons_of_neg (by simpa using h)]
  rfl

theorem inArena_perm (i : Nat) {xs ys : List (Nat × Block)} (h : xs.Perm ys) :
    (inArena i xs).Perm (inArena i ys) :=
  (h.filter _).map _

theorem mem_inArena {ps : List (Nat × Block)} : block ∈ inArena i ps ↔ (i, block) ∈ ps := by
  simp [inArena]

theorem inArena_filter (i : Nat) (ps : List (Nat × Block)) :
    inArena i (ps.filter fun p => p.2.isPooled) = (inArena i ps).filter (·.isPooled) := by
  rw [inArena, inArena, List.filter_map, List.filter_filter, List.filter_filter]
  simp only [Bool.and_comm, Function.comp_def]

/-- What is there once in each arena is there once. -/
theorem nodup_of_inArena {ps : List (Nat × Block)} (h : ∀ p ∈ ps, (inArena p.1 ps).Nodup) :
    ps.Nodup := by
  induction ps with
  | nil => exact List.nodup_nil
  | cons p ps ih =>
    obtain ⟨i, block⟩ := p
    refine List.nodup_cons.mpr ⟨?_, ih ?_⟩
    · intro hAgain
      have hOnce := h (i, block) List.mem_cons_self
      rw [inArena_cons_self, List.nodup_cons] at hOnce
      exact hOnce.1 (mem_inArena.mpr hAgain)
    · intro q hq
      have hSublist : (inArena q.1 ps).Sublist (inArena q.1 ((i, block) :: ps)) :=
        ((List.sublist_cons_self ..).filter _).map _
      exact (h q (List.mem_cons_of_mem _ hq)).sublist hSublist

/-- The blocks parked in a cache, with their arena. -/
def BoundCache.parked (bound : BoundCache) : List (Nat × Block) :=
  bound.cache.blocks.map fun block => (bound.arena, block)

theorem inArena_parked_self (bound : BoundCache) :
    inArena bound.arena bound.parked = bound.cache.blocks := by
  rw [inArena, BoundCache.parked, List.filter_eq_self.mpr (by simp), List.map_map]
  exact List.map_id _

theorem inArena_parked_of_ne (h : bound.arena ≠ i) : inArena i bound.parked = [] := by
  rw [inArena, BoundCache.parked, List.filter_eq_nil_iff.mpr (by simp [h]), List.map_nil]

namespace Allocator

variable {a a' : Allocator} {held held' : List (Nat × Block)} {arena : Arena} {caller : Caller}

/-- The blocks parked in some caches. -/
def parkedIn (caches : List (Nat × BoundCache)) : List (Nat × Block) :=
  caches.flatMap fun entry => entry.2.parked

theorem inArena_parkedIn (i : Nat) (before after : List (Nat × BoundCache)) (thread : Nat)
    (bound : BoundCache) (held : List (Nat × Block)) :
    (inArena i (parkedIn (before ++ (thread, bound) :: after) ++ held)).Perm
      (inArena i bound.parked ++ inArena i (parkedIn (before ++ after) ++ held)) := by
  have hPerm : (parkedIn (before ++ (thread, bound) :: after)).Perm
      (bound.parked ++ parkedIn (before ++ after)) := List.perm_middle.flatMap_right _
  rw [← inArena_append, ← List.append_assoc]
  exact inArena_perm i (hPerm.append_right held)

/-- Each arena owes those blocks of its own that are held or parked. -/
structure Sound (a : Allocator) (g : Geometry) (held : List (Nat × Block)) : Prop where
  nonempty : 0 < a.arenas.size
  arena : ∀ i < a.arenas.size, (a.arenaAt i).geometry = g ∧ (a.arenaAt i).Sound ∧
    (a.arenaAt i).Owes (inArena i (parkedIn a.caches ++ held))
  threads : (a.caches.map (·.1)).Nodup
  cache : ∀ entry ∈ a.caches, entry.2.arena < a.arenas.size ∧ entry.2.cache.Sound g
  places : ∀ p ∈ held, p.1 < a.arenas.size

theorem Sound.wellFormed (h : a.Sound g held) : g.WellFormed := by
  obtain ⟨hGeometry, hArena, -⟩ := h.arena 0 h.nonempty
  exact hGeometry ▸ hArena.geometry

theorem Sound.perm (h : a.Sound g held) (hPerm : held.Perm held') : a.Sound g held' where
  nonempty := h.nonempty
  arena i hi := by
    obtain ⟨hGeometry, hSound, hOwes⟩ := h.arena i hi
    exact ⟨hGeometry, hSound, hOwes.perm (inArena_perm i (hPerm.append_left _))⟩
  threads := h.threads
  cache := h.cache
  places p hp := h.places p (hPerm.mem_iff.mpr hp)

-- ---------------------------------------------------------------------------
-- One arena changes
-- ---------------------------------------------------------------------------

theorem arenaAt_setArena (a : Allocator) (hIndex : index < a.arenas.size) (arena : Arena)
    (i : Nat) :
    (a.setArena index arena).arenaAt i = if i = index then arena else a.arenaAt i := by
  unfold setArena arenaAt
  simp only [Array.getD_eq_getD_getElem?, Array.getElem?_setIfInBounds]
  by_cases hi : index = i
  · subst hi
    simp [hIndex]
  · simp [hi, Ne.symm hi]

theorem size_setArena (a : Allocator) (index : Nat) (arena : Arena) :
    (a.setArena index arena).arenas.size = a.arenas.size :=
  Array.size_setIfInBounds

/-- Another state of one arena, of the caches and of what is held. -/
theorem Sound.replace (h : a.Sound g held) (hIndex : index < a.arenas.size)
    (hArenas : a'.arenas = (a.setArena index arena).arenas)
    (hArena : arena.geometry = g ∧ arena.Sound ∧
      arena.Owes (inArena index (parkedIn a'.caches ++ held')))
    (hOthers : ∀ i, i ≠ index → (inArena i (parkedIn a.caches ++ held)).Perm
      (inArena i (parkedIn a'.caches ++ held')))
    (hThreads : (a'.caches.map (·.1)).Nodup)
    (hCache : ∀ entry ∈ a'.caches, entry.2.arena < a.arenas.size ∧ entry.2.cache.Sound g)
    (hPlaces : ∀ p ∈ held', p.1 < a.arenas.size) : a'.Sound g held' := by
  have hSize : a'.arenas.size = a.arenas.size := by rw [hArenas, size_setArena]
  have hAt : ∀ i, a'.arenaAt i = if i = index then arena else a.arenaAt i := by
    intro i
    rw [← arenaAt_setArena a hIndex, arenaAt, hArenas]
    rfl
  refine ⟨hSize ▸ h.nonempty, fun i hi => ?_, hThreads, hSize ▸ hCache, hSize ▸ hPlaces⟩
  rw [hAt]
  split
  · rename_i hEq
    rw [hEq]
    exact hArena
  · rename_i hNe
    obtain ⟨hGeometry, hSound, hOwes⟩ := h.arena i (hSize ▸ hi)
    exact ⟨hGeometry, hSound, hOwes.perm (hOthers i hNe)⟩

/-- One arena hands out or gets back past the caches. -/
theorem Sound.setArena (h : a.Sound g held) (hIndex : index < a.arenas.size)
    (hArena : ∀ rest, (a.arenaAt index).Owes (inArena index held ++ rest) →
      arena.geometry = g ∧ arena.Sound ∧ arena.Owes (inArena index held' ++ rest))
    (hOthers : ∀ i, i ≠ index → inArena i held = inArena i held')
    (hPlaces : ∀ p ∈ held', p.1 < a.arenas.size) : (a.setArena index arena).Sound g held' := by
  have hOwes := (h.arena index hIndex).2.2
  rw [inArena_append] at hOwes
  obtain ⟨hGeometry, hSound, hAfter⟩ := hArena _ (hOwes.perm List.perm_append_comm)
  refine h.replace hIndex rfl ⟨hGeometry, hSound, ?_⟩ (fun i hNe => ?_) h.threads h.cache hPlaces
  · rw [inArena_append]
    exact hAfter.perm List.perm_append_comm
  · rw [inArena_append, inArena_append, hOthers i hNe]
    exact .refl _

-- ---------------------------------------------------------------------------
-- One cache changes
-- ---------------------------------------------------------------------------

/-- The cache of a thread among the others. -/
theorem exists_caches (hThreads : (a.caches.map (·.1)).Nodup)
    (hCache : a.cacheOf? thread = some bound) :
    ∃ before after, a.caches = before ++ (thread, bound) :: after ∧
      (∀ bound', (a.setCache thread bound').caches = before ++ (thread, bound') :: after) ∧
      (a.caches.filter fun entry => entry.1 ≠ thread) = before ++ after := by
  obtain ⟨before, after, hSplit, hBefore⟩ := List.lookup_eq_some_iff.mp hCache
  -- the look-up takes the first entry of the thread, and there is no second one
  have hNotBefore : ∀ entry ∈ before, entry.1 ≠ thread := by
    intro entry hEntry hEq
    have := hBefore entry hEntry
    simp [hEq] at this
  have hNotAfter : ∀ entry ∈ after, entry.1 ≠ thread := by
    intro entry hEntry hEq
    rw [hSplit, List.map_append, List.map_cons, List.nodup_append] at hThreads
    have hMem : entry.1 ∈ after.map (·.1) := List.mem_map_of_mem hEntry
    rw [hEq] at hMem
    exact (List.nodup_cons.mp hThreads.2.1).1 hMem
  refine ⟨before, after, hSplit, fun bound' => ?_, ?_⟩
  · have hKeep : ∀ entries : List (Nat × BoundCache), (∀ entry ∈ entries, entry.1 ≠ thread) →
        (entries.map fun entry => if entry.1 = thread then (thread, bound') else entry) =
          entries := by
      intro entries hEntries
      refine (List.map_congr_left fun entry hEntry => ?_).trans (List.map_id _)
      rw [if_neg (hEntries entry hEntry)]
      rfl
    rw [setCache, hSplit, List.map_append, List.map_cons, hKeep before hNotBefore,
      hKeep after hNotAfter, if_pos rfl]
  · rw [hSplit, List.filter_append, List.filter_cons_of_neg (by simp),
      List.filter_eq_self.mpr (by simpa using hNotBefore),
      List.filter_eq_self.mpr (by simpa using hNotAfter)]

theorem mem_caches_of_cacheOf? (hCache : a.cacheOf? thread = some bound) :
    (thread, bound) ∈ a.caches := by
  obtain ⟨before, after, hSplit, -⟩ := List.lookup_eq_some_iff.mp hCache
  rw [hSplit]
  exact List.mem_append_right _ List.mem_cons_self

theorem cacheOf?_setCache (hCache : a.cacheOf? thread = some bound) (bound' : BoundCache) :
    (a.setCache thread bound').cacheOf? thread = some bound' := by
  have hLookup : ∀ entries : List (Nat × BoundCache), entries.lookup thread = some bound →
      (entries.map fun entry => if entry.1 = thread then (thread, bound') else entry).lookup
        thread = some bound' := by
    intro entries hFound
    induction entries with
    | nil => exact absurd hFound (by simp)
    | cons entry rest ih =>
      obtain ⟨other, found⟩ := entry
      by_cases hSame : other = thread
      · simp [hSame]
      · have hKey : (thread == other) = false := by simpa using Ne.symm hSame
        rw [List.lookup_cons, hKey] at hFound
        rw [List.map_cons, if_neg hSame, List.lookup_cons, hKey]
        exact ih hFound
  exact hLookup a.caches hCache

/-- The arena that a cache is bound to stands behind it. -/
theorem Sound.behind (h : a.Sound g held) {before after : List (Nat × BoundCache)}
    (hCaches : a.caches = before ++ (thread, bound) :: after) :
    bound.arena < a.arenas.size ∧ (a.arenaAt bound.arena).Behind g bound.cache
      (inArena bound.arena (parkedIn (before ++ after) ++ held)) := by
  obtain ⟨hIndex, hCache⟩ := h.cache (thread, bound) (by simp [hCaches])
  obtain ⟨hGeometry, hSound, hOwes⟩ := h.arena bound.arena hIndex
  have hPerm := inArena_parkedIn bound.arena before after thread bound held
  rw [← hCaches, inArena_parked_self] at hPerm
  exact ⟨hIndex, hGeometry, hSound, hCache, hOwes.perm hPerm⟩

/-- A cache and its arena change together. -/
theorem Sound.withCache {ρ : Type} (h : a.Sound g held) (hCache : a.cacheOf? thread = some bound)
    (f : Cache → Arena → ρ × Cache × Arena)
    (hStep : ∀ rest, (a.arenaAt bound.arena).Behind g bound.cache
      (inArena bound.arena held ++ rest) →
        (f bound.cache (a.arenaAt bound.arena)).2.2.Behind g
          (f bound.cache (a.arenaAt bound.arena)).2.1 (inArena bound.arena held' ++ rest))
    (hOthers : ∀ i, i ≠ bound.arena → inArena i held = inArena i held')
    (hPlaces : ∀ p ∈ held', p.1 < a.arenas.size) :
    (a.withCache thread bound f).2.Sound g held' := by
  obtain ⟨before, after, hCaches, hSet, -⟩ := exists_caches h.threads hCache
  obtain ⟨hIndex, hBehind⟩ := h.behind hCaches
  rw [inArena_append] at hBehind
  -- what the other caches of the arena have parked is the rest that the step leaves alone
  have hAfter := hStep _ (hBehind.perm hBehind.cache (List.perm_append_comm.append_left _))
  set bound' : BoundCache :=
    { bound with cache := (f bound.cache (a.arenaAt bound.arena)).2.1 } with hBound
  have hNow : (a.withCache thread bound f).2.caches = before ++ (thread, bound') :: after :=
    hSet bound'
  have hParked : inArena bound.arena bound'.parked = bound'.cache.blocks :=
    inArena_parked_self bound'
  refine h.replace hIndex rfl ⟨hAfter.geometry, hAfter.arena, ?_⟩ (fun i hNe => ?_) ?_ ?_ hPlaces
  -- the arena of the cache, then the others, of which nothing moved
  · have hPerm := inArena_parkedIn bound.arena before after thread bound' held'
    rw [← hNow, hParked, inArena_append _ (parkedIn (before ++ after))] at hPerm
    exact hAfter.owes.perm ((List.perm_append_comm.append_left _).trans hPerm.symm)
  · have hBefore := inArena_parkedIn i before after thread bound held
    have hNext := inArena_parkedIn i before after thread bound' held'
    rw [inArena_parked_of_ne hNe.symm, inArena_append _ (parkedIn (before ++ after)),
      hOthers i hNe] at hBefore
    rw [show inArena i bound'.parked = [] from inArena_parked_of_ne hNe.symm,
      inArena_append _ (parkedIn (before ++ after))] at hNext
    rw [hNow, hCaches]
    exact hBefore.trans hNext.symm
  · have hKeys := h.threads
    rw [hCaches] at hKeys
    rw [hNow]
    simpa using hKeys
  · rw [hNow]
    intro entry hEntry
    rcases List.mem_append.mp hEntry with hBefore | hRest
    · exact h.cache entry (by rw [hCaches]; exact List.mem_append_left _ hBefore)
    · rcases List.mem_cons.mp hRest with rfl | hAfter'
      · exact ⟨hIndex, hAfter.cache⟩
      · exact h.cache entry (by rw [hCaches]; simp [hAfter'])

-- ---------------------------------------------------------------------------
-- Threads and their caches
-- ---------------------------------------------------------------------------

theorem Sound.leastUsed_lt (h : a.Sound g held) : a.leastUsed < a.arenas.size := by
  have hFold : ∀ (entries : List (Arena × Nat)) (best : Nat), best < a.arenas.size →
      (∀ entry ∈ entries, entry.2 < a.arenas.size) →
        entries.foldl (fun best entry =>
          if entry.1.numCaches < (a.arenaAt best).numCaches then entry.2 else best) best <
            a.arenas.size := by
    intro entries
    induction entries with
    | nil => exact fun best hBest _ => hBest
    | cons entry rest ih =>
      intro best hBest hEntries
      refine ih _ ?_ fun other hOther => hEntries other (List.mem_cons_of_mem _ hOther)
      dsimp only
      split
      · exact hEntries entry List.mem_cons_self
      · exact hBest
  refine hFold _ 0 h.nonempty fun entry hEntry => ?_
  have hLt := List.snd_lt_of_mem_zipIdx hEntry
  simpa using hLt

/-- A thread that asks for its cache has one then. -/
theorem Sound.ensureCache (h : a.Sound g held) (thread : Nat) :
    (a.ensureCache thread).1.Sound g held ∧
      (a.ensureCache thread).1.cacheOf? thread = some (a.ensureCache thread).2 ∧
        (a.ensureCache thread).1.heap = a.heap := by
  unfold Allocator.ensureCache
  split
  · rename_i bound hCache
    exact ⟨h, hCache, rfl⟩
  · rename_i hNone
    have hIndex := h.leastUsed_lt
    obtain ⟨hGeometry, hArena, hOwes⟩ := h.arena _ hIndex
    have hNew : ∀ entry ∈ a.caches, entry.1 ≠ thread := by
      intro entry hEntry hEq
      have := List.lookup_eq_none_iff.mp hNone entry hEntry
      simp [hEq] at this
    set config := if a.config.useThreadCache then a.config else a.config.withoutCache
    -- a new cache has parked nothing, so it counts as if it were not there
    have hParked : parkedIn (a.caches ++ [(thread,
        (⟨a.leastUsed, Cache.empty (a.arenaAt a.leastUsed).geometry config⟩ : BoundCache))]) =
          parkedIn a.caches := by
      simp [parkedIn, BoundCache.parked, Cache.blocks_empty]
    have hSame := (a.arenaAt a.leastUsed).resembles_bindCache
    refine ⟨h.replace hIndex rfl ⟨hGeometry, hSame.sound hArena, ?_⟩ (fun i _ => ?_) ?_ ?_
      h.places, ?_, rfl⟩
    · dsimp only
      rw [hParked]
      exact hSame.owes hOwes
    · dsimp only
      rw [hParked]
    · dsimp only
      rw [List.map_append, List.nodup_append]
      refine ⟨h.threads, by simp, ?_⟩
      simpa using fun k bound hMem => hNew (k, bound) hMem
    · intro entry hEntry
      rcases List.mem_append.mp hEntry with hOld | hLast
      · exact h.cache entry hOld
      · obtain rfl := List.mem_singleton.mp hLast
        exact ⟨hIndex, hGeometry ▸ Cache.sound_empty _ config⟩
    · have hLookup : a.caches.lookup thread = none := hNone
      simp [cacheOf?, List.lookup_append, hLookup]

-- ---------------------------------------------------------------------------
-- Blocks come out and go back
-- ---------------------------------------------------------------------------

theorem inArena_served_self (i : Nat) (result : Except ArenaError Block)
    (held : List (Nat × Block)) :
    inArena i ((result.map fun block => (i, block)).toOption.toList ++ held) =
      result.toOption.toList ++ inArena i held := by
  cases result with
  | error cause => rfl
  | ok block => exact inArena_cons_self i block held

theorem inArena_served_of_ne (h : i ≠ j) (result : Except ArenaError Block)
    (held : List (Nat × Block)) :
    inArena j ((result.map fun block => (i, block)).toOption.toList ++ held) = inArena j held := by
  cases result with
  | error cause => rfl
  | ok block => exact inArena_cons_of_ne h block held

theorem places_served (h : a.Sound g held) (hIndex : index < a.arenas.size)
    (result : Except ArenaError Block) :
    ∀ p ∈ (result.map fun block => (index, block)).toOption.toList ++ held,
      p.1 < a.arenas.size := by
  intro p hp
  cases result with
  | error cause => exact h.places p hp
  | ok block =>
    rcases List.mem_cons.mp hp with rfl | hOld
    · exact hIndex
    · exact h.places p hOld

theorem capacity_served {size : Nat} {result : Except ArenaError Block} {p : Nat × Block}
    (h : ∀ block, result = .ok block → block.capacity = size)
    (hp : (result.map fun block => (index, block)) = .ok p) : p.2.capacity = size := by
  cases result with
  | error cause => exact absurd hp (by simp [Except.map])
  | ok block =>
    obtain rfl := Except.ok.inj hp
    exact h block rfl

/-- A block that comes out has the normalized size and is held beside the others. -/
theorem Sound.allocateBlock (h : a.Sound g held) (caller : Caller) (capacity : Nat) :
    (a.allocateBlock caller capacity).2.Sound g
        ((a.allocateBlock caller capacity).1.toOption.toList ++ held) ∧
      (a.allocateBlock caller capacity).2.heap = a.heap ∧
        ∀ p, (a.allocateBlock caller capacity).1 = .ok p → p.2.capacity = g.normalize capacity := by
  cases caller with
  | thread thread =>
    obtain ⟨hSound, hCache, hHeap⟩ := h.ensureCache thread
    obtain ⟨before, after, hCaches, -⟩ := exists_caches hSound.threads hCache
    obtain ⟨hIndex, hFront⟩ := hSound.behind hCaches
    have hResult : a.allocateBlock (.thread thread) capacity =
        ((((a.ensureCache thread).1.arenaAt (a.ensureCache thread).2.arena).allocateCached
            (a.ensureCache thread).2.cache capacity).1.map
              fun block => ((a.ensureCache thread).2.arena, block),
          ((a.ensureCache thread).1.withCache thread (a.ensureCache thread).2
            fun cache arena => arena.allocateCached cache capacity).2) := rfl
    rw [hResult]
    dsimp only
    refine ⟨hSound.withCache hCache _ (fun rest hBehind => ?_)
      (fun i hNe => (inArena_served_of_ne hNe.symm _ held).symm)
      (places_served hSound hIndex _), hHeap, fun p hp =>
        capacity_served (hFront.allocateCached capacity).2 hp⟩
    rw [inArena_served_self, List.append_assoc]
    exact (hBehind.allocateCached capacity).1
  | exiting =>
    have hIndex := h.leastUsed_lt
    obtain ⟨hGeometry, hArena, -⟩ := h.arena _ hIndex
    have hServes := hArena.serves_allocate capacity
    -- a thread that is past keeping a cache asks the arena itself
    have hResult : a.allocateBlock .exiting capacity =
        (((a.arenaAt a.leastUsed).allocate capacity).1.map fun block => (a.leastUsed, block),
          a.setArena a.leastUsed ((a.arenaAt a.leastUsed).allocate capacity).2) := rfl
    rw [hResult]
    dsimp only
    rw [hGeometry] at hServes
    refine ⟨h.setArena hIndex (fun rest hOwes => ?_)
      (fun i hNe => (inArena_served_of_ne hNe.symm _ held).symm) (places_served h hIndex _), rfl,
      fun p hp => capacity_served hServes.capacity hp⟩
    rw [inArena_served_self, List.append_assoc]
    exact ⟨hServes.geometry.trans hGeometry, hServes.sound, hServes.owes _ hOwes⟩

/-- A block that goes back past the caches is taken. -/
theorem Sound.freeDirect (h : a.Sound g ((index, block) :: held)) :
    (a.freeDirect index block).1 = .ok () ∧ (a.freeDirect index block).2.Sound g held ∧
      (a.freeDirect index block).2.heap = a.heap := by
  have hIndex := h.places _ List.mem_cons_self
  obtain ⟨hGeometry, hArena, hOwes⟩ := h.arena index hIndex
  rw [inArena_append, inArena_cons_self] at hOwes
  obtain ⟨hDone, hTakes⟩ := hArena.takes_free (hOwes.perm List.perm_middle)
  refine ⟨hDone, h.setArena hIndex (fun rest hRest => ?_)
    (fun i hNe => inArena_cons_of_ne hNe.symm block held)
    (fun p hp => h.places p (List.mem_cons_of_mem _ hp)), rfl⟩
  rw [inArena_cons_self] at hRest
  exact ⟨hTakes.geometry.trans hGeometry, hTakes.sound, hTakes.owes _ hRest⟩

/-- A cache that a block may go back to stands behind the arena that owes it. -/
theorem Sound.behind_block (h : a.Sound g ((bound.arena, block) :: held))
    (hCache : a.cacheOf? thread = some bound) :
    ∃ rest, (a.arenaAt bound.arena).Behind g bound.cache (block :: rest) := by
  obtain ⟨before, after, hCaches, -⟩ := exists_caches h.threads hCache
  obtain ⟨-, hFront⟩ := h.behind hCaches
  rw [inArena_append, inArena_cons_self] at hFront
  exact ⟨_, hFront.perm hFront.cache (List.perm_middle.symm.append_left _)⟩

/-- A block that goes back is taken, by a cache or by its arena. -/
theorem Sound.freeBlock (h : a.Sound g ((index, block) :: held)) (caller : Caller) :
    (a.freeBlock caller index block).1 = .ok () ∧ (a.freeBlock caller index block).2.Sound g held ∧
      (a.freeBlock caller index block).2.heap = a.heap := by
  cases caller with
  | exiting => exact h.freeDirect
  | thread thread =>
    unfold Allocator.freeBlock
    dsimp only
    split
    · exact h.freeDirect
    · rename_i bound hCache
      split
      · rename_i hBound
        subst hBound
        obtain ⟨rest, hFront⟩ := h.behind_block hCache
        refine ⟨hFront.freeCached.1, h.withCache hCache
          (fun cache arena => arena.freeCached cache block) (fun rest hBehind => ?_)
          (fun i hNe => inArena_cons_of_ne hNe.symm block held)
          (fun p hp => h.places p (List.mem_cons_of_mem _ hp)), rfl⟩
        rw [inArena_cons_self] at hBehind
        exact hBehind.freeCached.2
      · exact h.freeDirect

-- ---------------------------------------------------------------------------
-- Caches give blocks back
-- ---------------------------------------------------------------------------

theorem Sound.trimCache (h : a.Sound g held) (thread : Nat) :
    (a.trimCache thread).2.Sound g held ∧ (a.trimCache thread).2.heap = a.heap := by
  unfold Allocator.trimCache
  split
  · exact ⟨h, rfl⟩
  · rename_i bound hCache
    exact ⟨h.withCache hCache _ (fun rest hBehind => hBehind.trim) (fun _ _ => rfl) h.places, rfl⟩

/-- A thread that ends leaves nothing parked. -/
theorem Sound.exitThread (h : a.Sound g held) (thread : Nat) :
    (a.exitThread thread).Sound g held ∧ (a.exitThread thread).heap = a.heap := by
  unfold Allocator.exitThread
  split
  · exact ⟨h, rfl⟩
  · rename_i bound hCache
    obtain ⟨before, after, hCaches, -, hFilter⟩ := exists_caches h.threads hCache
    obtain ⟨hIndex, hBehind⟩ := h.behind hCaches
    obtain ⟨hGeometry, hArena, hOwes⟩ := hBehind.dissolve
    have hSublist : (a.caches.filter fun entry => entry.1 ≠ thread).Sublist a.caches :=
      List.filter_sublist
    refine ⟨h.replace hIndex rfl ⟨hGeometry, hArena, ?_⟩ (fun i hNe => ?_)
      (h.threads.sublist (hSublist.map _)) (fun entry hEntry => h.cache entry (hSublist.mem hEntry))
      h.places, rfl⟩
    · dsimp only
      rw [hFilter]
      exact hOwes
    · have hPerm := inArena_parkedIn i before after thread bound held
      dsimp only
      rwa [inArena_parked_of_ne hNe.symm, List.nil_append, ← hCaches, ← hFilter] at hPerm

-- ---------------------------------------------------------------------------
-- A new allocator
-- ---------------------------------------------------------------------------

theorem sound_build (id : Nat) {config : PoolConfig} (hg : config.geometry.WellFormed)
    (supply : Nat → Supply) : (build id config supply).Sound config.geometry [] := by
  have hSize : (build id config supply).arenas.size = max config.numArenas 1 := Array.size_ofFn
  have hAt : ∀ i < (build id config supply).arenas.size,
      (build id config supply).arenaAt i = Arena.empty i config.geometry (supply i) := by
    intro i hi
    rw [hSize] at hi
    simp [arenaAt, build, Array.getD_eq_getD_getElem?, hi]
  refine ⟨?_, fun i hi => ?_, List.nodup_nil, fun entry hEntry => absurd hEntry (by simp [build]),
    fun p hp => absurd hp (by simp)⟩
  · rw [hSize]
    omega
  · rw [hAt i hi]
    exact ⟨rfl, Arena.sound_empty i hg (supply i), Arena.owes_empty i config.geometry (supply i)⟩

end Allocator

end BlockPool
