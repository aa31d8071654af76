import BlockPool.Proofs.Arena.Cache

/-!
# BlockPool — callers and caches of one arena

A `Session` is an arena, the caches that are bound to it and the blocks that callers hold. Callers
ask for blocks and give them back, each once, through any of the caches or past them; caches are
made, trimmed and dropped in any order, and any request for memory may be refused.

* `Session.run` — the state after a run.
* `Session.Sound` — what every run keeps: the arena owes what is held and what is parked.
* `Session.Kept.run` — and so does every run whatever requests and returns keep.
* `Session.run_blocks_apart` — blocks of one chunk never overlap.
* `Session.run_free_ok` — a block can always be given back, and a chunk leaves only once nothing
  refers to it.
-/

namespace BlockPool

open SubpagePools (subpageAt?)

/-- An arena, its caches, and the blocks that callers hold. -/
structure Session where
  arena : Arena
  caches : List Cache
  held : List Block

namespace Session

/-- What a caller can do, naming caches and blocks by their places. -/
inductive Op where
  | allocate (request : Nat)
  | allocateVia (cache request : Nat)
  | free (block : Nat)
  | freeVia (cache block : Nat)
  /-- A new cache, of any configuration. -/
  | bind (config : PoolConfig)
  | trim (cache : Nat)
  | drop (cache : Nat)

variable {s : Session} {g : Geometry} {c c' : Cache} {a' : Arena} {block : Block} {i j : Nat}

/-- An arena that was never asked for anything. -/
def start (index : Nat) (g : Geometry) (supply : Supply) : Session :=
  ⟨Arena.empty index g supply, [], []⟩

/-- The blocks that callers hold and those that caches have parked. -/
def blocks (s : Session) : List Block := s.caches.flatMap (·.blocks) ++ s.held

/-- The state after a caller did something. What names no cache or no block does nothing. -/
def step (s : Session) : Op → Session
  | .allocate request =>
    let (result, arena) := s.arena.allocate request
    { s with arena, held := result.toOption.toList ++ s.held }
  | .allocateVia j request =>
    match s.caches[j]? with
    | none => s
    | some c =>
      let (result, c, arena) := s.arena.allocateCached c request
      ⟨arena, s.caches.set j c, result.toOption.toList ++ s.held⟩
  | .free i =>
    match s.held[i]? with
    | none => s
    | some block => { s with arena := (s.arena.free block).2, held := s.held.eraseIdx i }
  | .freeVia j i =>
    match s.caches[j]?, s.held[i]? with
    | some c, some block =>
      let (_, c, arena) := s.arena.freeCached c block
      ⟨arena, s.caches.set j c, s.held.eraseIdx i⟩
    | _, _ => s
  | .bind config =>
    { s with arena := s.arena.bindCache, caches := Cache.empty s.arena.geometry config :: s.caches }
  | .trim j =>
    match s.caches[j]? with
    | none => s
    | some c =>
      let (c, arena) := c.trim s.arena
      { s with arena, caches := s.caches.set j c }
  | .drop j =>
    match s.caches[j]? with
    | none => s
    | some c => { s with arena := c.dissolve s.arena, caches := s.caches.eraseIdx j }

/-- The state after a run. -/
def run (s : Session) (ops : List Op) : Session := ops.foldl step s

-- ---------------------------------------------------------------------------
-- What every run keeps
-- ---------------------------------------------------------------------------

/-- The arena owes what callers hold and what the caches have parked. -/
structure Sound (s : Session) (g : Geometry) : Prop where
  geometry : s.arena.geometry = g
  arena : s.arena.Sound
  caches : ∀ c ∈ s.caches, c.Sound g
  owes : s.arena.Owes s.blocks

theorem sound_start (hg : g.WellFormed) (index : Nat) (supply : Supply) :
    (start index g supply).Sound g where
  geometry := rfl
  arena := Arena.sound_empty index hg supply
  caches c hc := absurd hc (by simp [start])
  owes := Arena.owes_empty index g supply

/-- What is out, but for one of the caches. -/
def besides (s : Session) (j : Nat) : List Block :=
  (s.caches.eraseIdx j).flatMap (·.blocks) ++ s.held

theorem flatMap_set_perm_eraseIdx {caches : List Cache} (h : j < caches.length) (c : Cache) :
    ((caches.set j c).flatMap (·.blocks)).Perm
      (c.blocks ++ (caches.eraseIdx j).flatMap (·.blocks)) :=
  (List.set_perm_cons_eraseIdx h c).flatMap_right _

/-- What is out with another cache in the place of one. -/
theorem blocks_set_perm (h : s.caches[j]? = some c) (a' : Arena) (c' : Cache)
    (held : List Block) : (⟨a', s.caches.set j c', held⟩ : Session).blocks.Perm
      (c'.blocks ++ ((s.caches.eraseIdx j).flatMap (·.blocks) ++ held)) := by
  rw [← List.append_assoc]
  exact (flatMap_set_perm_eraseIdx (List.getElem?_eq_some_iff.mp h).1 c').append_right held

theorem caches_set_self (h : s.caches[j]? = some c) : s.caches.set j c = s.caches := by
  obtain ⟨hLt, rfl⟩ := List.getElem?_eq_some_iff.mp h
  exact List.set_getElem_self hLt

theorem blocks_perm (h : s.caches[j]? = some c) : s.blocks.Perm (c.blocks ++ s.besides j) := by
  have hPerm := blocks_set_perm h s.arena c s.held
  rwa [caches_set_self h] at hPerm

/-- The arena stands behind each of its caches. -/
theorem Sound.behind (h : s.Sound g) (hCache : s.caches[j]? = some c) :
    s.arena.Behind g c (s.besides j) :=
  ⟨h.geometry, h.arena, h.caches c (List.mem_of_getElem? hCache), h.owes.perm (blocks_perm hCache)⟩

/-- Another state of one of the caches, of the arena and of what is held. -/
theorem Sound.of_behind (h : s.Sound g) (hCache : s.caches[j]? = some c) {held : List Block}
    (hBehind : a'.Behind g c' ((s.caches.eraseIdx j).flatMap (·.blocks) ++ held)) :
    (⟨a', s.caches.set j c', held⟩ : Session).Sound g where
  geometry := hBehind.geometry
  arena := hBehind.arena
  caches c hc := by
    rcases List.mem_or_eq_of_mem_set hc with hOld | rfl
    · exact h.caches c hOld
    · exact hBehind.cache
  owes := hBehind.owes.perm (blocks_set_perm hCache a' c' held).symm

theorem held_perm (h : s.held[i]? = some block) : s.held.Perm (block :: s.held.eraseIdx i) := by
  obtain ⟨hLt, rfl⟩ := List.getElem?_eq_some_iff.mp h
  exact (List.getElem_cons_eraseIdx_perm hLt).symm

theorem blocks_perm_held (h : s.held[i]? = some block) :
    s.blocks.Perm (block :: (s.caches.flatMap (·.blocks) ++ s.held.eraseIdx i)) :=
  ((held_perm h).append_left _).trans List.perm_middle

/-- Whatever a caller does, the arena stays sound and owes what is held or parked. -/
theorem Sound.step (h : s.Sound g) (op : Op) : (s.step op).Sound g := by
  cases op with
  | allocate request =>
    have hServes := h.arena.serves_allocate request
    refine ⟨hServes.geometry.trans h.geometry, hServes.sound, h.caches, ?_⟩
    -- the new block is owed beside what was out
    exact (hServes.owes _ h.owes).perm (List.perm_append_comm_assoc ..)
  | allocateVia j request =>
    unfold Session.step
    dsimp only
    split
    · exact h
    · rename_i c hCache
      -- the arena behind one cache, which owes all the others hold
      obtain ⟨hBehind, -⟩ := (h.behind hCache).allocateCached request
      refine h.of_behind hCache ?_
      exact hBehind.perm hBehind.cache ((List.perm_append_comm_assoc ..).append_left _)
  | free i =>
    unfold Session.step
    dsimp only
    split
    · exact h
    · rename_i block hHeld
      have hOwes := h.owes.perm (blocks_perm_held hHeld)
      -- what is held is owed, so it is taken back
      obtain ⟨-, hTakes⟩ := h.arena.takes_free hOwes
      exact ⟨hTakes.geometry.trans h.geometry, hTakes.sound, h.caches, hTakes.owes _ hOwes⟩
  | freeVia j i =>
    unfold Session.step
    dsimp only
    split
    · rename_i c block hCache hHeld
      have hBehind := h.behind hCache
      -- the block passes from the caller to whoever is behind the cache
      have hHolds := hBehind.perm hBehind.cache
        ((((held_perm hHeld).append_left _).trans List.perm_middle).symm.append_left _)
      obtain ⟨-, hAfter⟩ := hHolds.freeCached
      exact h.of_behind hCache hAfter
    · exact h
  | bind config =>
    have hSame := s.arena.resembles_bindCache
    refine ⟨h.geometry, hSame.sound h.arena, fun c hc => ?_, hSame.owes ?_⟩
    · rcases List.mem_cons.mp hc with rfl | hOld
      · rw [h.geometry]
        exact Cache.sound_empty g config
      · exact h.caches c hOld
    · simpa [Session.step, blocks, Cache.blocks_empty] using h.owes
  | trim j =>
    unfold Session.step
    dsimp only
    split
    · exact h
    · rename_i c hCache
      exact h.of_behind hCache (h.behind hCache).trim
  | drop j =>
    unfold Session.step
    dsimp only
    split
    · exact h
    · rename_i c hCache
      -- the blocks of a cache that goes are taken back first
      obtain ⟨hGeometry, hArena, hOwes⟩ := (h.behind hCache).dissolve
      exact ⟨hGeometry, hArena, fun c hc => h.caches c (List.mem_of_mem_eraseIdx hc), hOwes⟩

theorem Sound.run (h : s.Sound g) (ops : List Op) : (s.run ops).Sound g := by
  induction ops generalizing s with
  | nil => exact h
  | cons op rest ih => exact ih (h.step op)

-- ---------------------------------------------------------------------------
-- Blocks of one chunk
-- ---------------------------------------------------------------------------

/-- In every state, every pooled block that is held or parked lies inside its chunk, and no two of
one chunk overlap. -/
theorem run_blocks_apart (hg : g.WellFormed) (index : Nat) (supply : Supply) (ops : List Op) :
    let s := (start index g supply).run ops
    (∀ b ∈ s.blocks, b.isPooled = true → b.offset + b.capacity ≤ g.chunkSize) ∧
      s.blocks.Pairwise fun b b' => ∀ id handle handle', b.origin = .pooled id handle →
        b'.origin = .pooled id handle' → b.Apart b' := by
  intro s
  have hSound : s.Sound g := (sound_start hg index supply).run ops
  constructor
  · intro b hb hPooled
    rw [← hSound.geometry]
    exact hSound.arena.offset_le hSound.owes hb hPooled
  · have hOnce := List.pairwise_filter.mp hSound.owes.once
    refine hOnce.imp_of_mem fun hb hb' hNe id handle handle' hOrigin hOrigin' => ?_
    exact hSound.arena.apart hSound.owes hb hb' hOrigin hOrigin'
      (hNe (Arena.isPooled_of_origin hOrigin) (Arena.isPooled_of_origin hOrigin'))

/-- A block that a cache has parked and one that a caller holds, both of one page. -/
theorem run_blocks_apart_parked_and_held :
    (⟨4096, 1, 0⟩ : Geometry).WellFormed ∧ ∃ parked held : Block,
      ((start 0 ⟨4096, 1, 0⟩ fun _ => Provider.below (2 ^ 20)).run
        [.bind (PoolConfig.defaults 1), .allocateVia 0 100, .allocateVia 0 100,
          .freeVia 0 0]).blocks = [parked, held] ∧ parked.Apart held := by
  obtain ⟨-, hApart⟩ := run_blocks_apart Geometry.wellFormed_two_pages 0
    (fun _ => Provider.below (2 ^ 20)) [.bind (PoolConfig.defaults 1), .allocateVia 0 100,
      .allocateVia 0 100, .freeVia 0 0]
  have hBlocks : ((start 0 ⟨4096, 1, 0⟩ fun _ => Provider.below (2 ^ 20)).run
      [.bind (PoolConfig.defaults 1), .allocateVia 0 100, .allocateVia 0 100,
        .freeVia 0 0]).blocks =
      [.pooled ⟨0, 8192, .mapped⟩ 112 112 ⟨0, 0⟩ (.subpage 2 1),
        .pooled ⟨0, 8192, .mapped⟩ 0 112 ⟨0, 0⟩ (.subpage 2 0)] := by decide +kernel
  rw [hBlocks] at hApart
  exact ⟨Geometry.wellFormed_two_pages, _, _, hBlocks,
    (List.pairwise_cons.mp hApart).1 _ List.mem_cons_self ⟨0, 0⟩ _ _ rfl rfl⟩

-- ---------------------------------------------------------------------------
-- Blocks on their way back
-- ---------------------------------------------------------------------------

/-- The blocks that what a caller does gives back to the arena, in order: the caller's own, or
those a cache lets go of. -/
def returns (s : Session) : Op → List Block
  | .allocate _ | .bind _ => []
  | .allocateVia j request =>
    match s.caches[j]? with
    | none => []
    | some c => s.arena.shed c request
  | .free i => s.held[i]?.toList
  | .freeVia j i =>
    match s.caches[j]?, s.held[i]? with
    | some c, some block =>
      if (c.park? (s.arena.geometry.sizeClass block.capacity) block).isSome then [] else [block]
    | _, _ => []
  | .trim j =>
    match s.caches[j]? with
    | none => []
    | some c => c.surplus
  | .drop j =>
    match s.caches[j]? with
    | none => []
    | some c => (c.gather CacheQueue.drain).1

/-- All that a step does to the arena and to what is out: some blocks go back, and then the arena is
left alone or asked once. The count of caches aside, nothing else happens. -/
def Flows (s : Session) (op : Op) : Prop :=
  ∃ numCaches rest, (s.returns op ++ rest).Perm s.blocks ∧
    Arena.Passes { Cache.release s.arena (s.returns op) with numCaches } rest
      (s.step op).arena (s.step op).blocks

/-- Nothing goes back, and the arena stays as it is. -/
theorem flows_of_idle (s : Session) {blocks : List Block} (hPerm : blocks.Perm s.blocks) :
    ∃ numCaches rest, ([] ++ rest).Perm s.blocks ∧
      Arena.Passes { Cache.release s.arena [] with numCaches } rest s.arena blocks :=
  ⟨s.arena.numCaches, s.blocks, .refl _, .inl ⟨rfl, hPerm⟩⟩

/-- What a cache gives back or hands out was in it, and what it does not serve the arena is asked
for. -/
theorem Sound.flows_allocateVia (h : s.Sound g) (j request : Nat) :
    s.Flows (.allocateVia j request) := by
  unfold Flows returns Session.step
  dsimp only
  split
  · exact s.flows_of_idle (.refl _)
  · rename_i c hAt
    obtain ⟨kept, hPerm, hPasses⟩ := (h.behind hAt).passes_allocateCached request
    refine ⟨(Cache.release s.arena (s.arena.shed c request)).numCaches, kept ++ s.besides j, ?_,
      hPasses.perm_append ?_⟩
    · rw [← List.append_assoc]
      exact (hPerm.append_right _).trans (blocks_perm hAt).symm
    · refine (blocks_set_perm hAt ..).trans ?_
      rw [List.append_assoc]
      refine ((List.perm_append_comm_assoc ..).append_left _).trans ?_
      exact List.perm_append_comm_assoc ..

/-- A block that goes back through a cache is parked now and was held before, or the arena has it
back. -/
theorem Sound.flows_freeVia (h : s.Sound g) (j i : Nat) : s.Flows (.freeVia j i) := by
  unfold Flows returns Session.step Arena.freeCached
  dsimp only
  split
  · rename_i c block hAtCache hAt
    have hOut := blocks_perm_held hAt
    cases hPark : c.park? (s.arena.geometry.sizeClass block.capacity) block with
    | none =>
      refine ⟨(s.arena.free block).2.numCaches,
        s.caches.flatMap (·.blocks) ++ s.held.eraseIdx i, hOut.symm, .inl ⟨rfl, ?_⟩⟩
      simp only [blocks, caches_set_self hAtCache, List.Perm.refl]
    | some c' =>
      have hMem : block ∈ s.blocks := hOut.mem_iff.mpr List.mem_cons_self
      obtain ⟨-, hParked⟩ := (h.caches c (List.mem_of_getElem? hAtCache)).park
        (fun hPooled => h.geometry ▸ h.arena.carved h.owes hMem hPooled) (h.geometry ▸ hPark)
      have hBefore := blocks_set_perm hAtCache s.arena c (s.held.eraseIdx i)
      rw [caches_set_self hAtCache] at hBefore
      refine s.flows_of_idle ((blocks_set_perm hAtCache ..).trans ?_)
      exact (hParked.append_right _).trans ((hBefore.symm.cons block).trans hOut.symm)
  · exact s.flows_of_idle (.refl _)

/-- What goes back is what the operation names, and what is out after is what is left of it. -/
theorem Sound.flow (h : s.Sound g) (op : Op) : s.Flows op := by
  cases op with
  | allocate request =>
    exact ⟨s.arena.numCaches, s.blocks, .refl _,
      .inr ⟨request, rfl, List.perm_append_comm_assoc ..⟩⟩
  | allocateVia j request => exact h.flows_allocateVia j request
  | free i =>
    unfold Flows returns Session.step
    dsimp only
    split
    · rename_i hAt
      rw [hAt]
      exact s.flows_of_idle (.refl _)
    -- the block that the caller gives back leaves what is out
    · rename_i block hAt
      rw [hAt]
      refine ⟨(s.arena.free block).2.numCaches,
        s.caches.flatMap (·.blocks) ++ s.held.eraseIdx i, ?_, .inl ⟨rfl, .refl _⟩⟩
      exact (blocks_perm_held hAt).symm
  | freeVia j i => exact h.flows_freeVia j i
  | bind config =>
    refine ⟨s.arena.numCaches + 1, s.blocks, .refl _, .inl ⟨rfl, ?_⟩⟩
    simp [Session.step, blocks, Cache.blocks_empty]
  | trim j =>
    unfold Flows returns Session.step
    dsimp only
    split
    · exact s.flows_of_idle (.refl _)
    · rename_i c hAt
      -- the surplus goes back, and the cache keeps the rest
      have hPerm := ((h.behind hAt).cache.gather Cache.splits_trim).1
      refine ⟨(c.trim s.arena).2.numCaches, (c.trim s.arena).1.blocks ++ s.besides j, ?_,
        .inl ⟨rfl, ?_⟩⟩
      · rw [← List.append_assoc]
        exact (hPerm.append_right _).trans (blocks_perm hAt).symm
      · exact blocks_set_perm hAt ..
  | drop j =>
    unfold Flows returns Session.step
    dsimp only
    split
    · exact s.flows_of_idle (.refl _)
    · rename_i c hAt
      have hCache := (h.behind hAt).cache
      have hPerm := (hCache.gather Cache.splits_drain).1
      -- a cache that is dropped keeps nothing
      rw [hCache.blocks_drain, List.append_nil] at hPerm
      exact ⟨_, s.besides j, (hPerm.append_right _).trans (blocks_perm hAt).symm,
        .inl ⟨rfl, .refl _⟩⟩

/-- What goes back was out. -/
theorem Sound.exists_returns (h : s.Sound g) (op : Op) :
    ∃ rest, (s.returns op ++ rest).Perm s.blocks := by
  obtain ⟨-, rest, hPerm, -⟩ := h.flow op
  exact ⟨rest, hPerm⟩

/-- The arena after a step is what giving those blocks back leaves, or what one request to that
leaves. -/
theorem Sound.arena_step (h : s.Sound g) (op : Op) :
    ∃ numCaches, let a : Arena := { Cache.release s.arena (s.returns op) with numCaches }
      (s.step op).arena = a ∨ ∃ request, (s.step op).arena = (a.allocate request).2 := by
  obtain ⟨numCaches, rest, -, ⟨hSame, -⟩ | ⟨request, hSame, -⟩⟩ := h.flow op
  · exact ⟨numCaches, .inl hSame⟩
  · exact ⟨numCaches, .inr ⟨request, hSame⟩⟩

-- ---------------------------------------------------------------------------
-- What requests and returns keep, a run keeps
-- ---------------------------------------------------------------------------

/-- A property of an arena and of what is out, which every request and every return keeps. Neither
the order of what is out nor the count of caches matters to it. -/
structure Kept (P : Arena → List Block → Prop) : Prop where
  perm : ∀ {a blocks blocks'}, P a blocks → blocks.Perm blocks' → P a blocks'
  caches : ∀ {a blocks} (numCaches : Nat), P a blocks → P { a with numCaches } blocks
  allocate : ∀ {a blocks}, a.Sound → P a blocks → ∀ request,
    P (a.allocate request).2 ((a.allocate request).1.toOption.toList ++ blocks)
  free : ∀ {a block rest}, a.Sound → a.Owes (block :: rest) → P a (block :: rest) →
    P (a.free block).2 rest

variable {P : Arena → List Block → Prop} {a : Arena} {blocks rest : List Block}

theorem Kept.release (hKept : Kept P) (h : a.Sound) (hOwes : a.Owes (blocks ++ rest))
    (hP : P a (blocks ++ rest)) : P (Cache.release a blocks) rest := by
  induction blocks generalizing a with
  | nil => exact hP
  | cons block blocks ih =>
    obtain ⟨-, hTakes⟩ := h.takes_free hOwes
    exact ih hTakes.sound (hTakes.owes _ hOwes) (hKept.free h hOwes hP)

theorem Kept.step (hKept : Kept P) (h : s.Sound g) (hP : P s.arena s.blocks) (op : Op) :
    P (s.step op).arena (s.step op).blocks := by
  obtain ⟨numCaches, rest, hPerm, hPasses⟩ := h.flow op
  have hOwes := h.owes.perm hPerm.symm
  have hSound := h.arena.sound_release (s.returns op)
  have hReleased := hKept.caches numCaches
    (hKept.release h.arena hOwes (hKept.perm hP hPerm.symm))
  -- the count of caches is nothing to the arena's soundness
  have hSame : (Cache.release s.arena (s.returns op)).Resembles
      { Cache.release s.arena (s.returns op) with numCaches } := ⟨rfl, rfl, rfl, Nat.le_refl _⟩
  rcases hPasses with ⟨hArena, hBlocks⟩ | ⟨request, hArena, hBlocks⟩
  · rw [hArena]
    exact hKept.perm hReleased hBlocks.symm
  · rw [hArena]
    exact hKept.perm (hKept.allocate (hSame.sound hSound) hReleased request) hBlocks.symm

theorem Kept.run (hKept : Kept P) (h : s.Sound g) (hP : P s.arena s.blocks) (ops : List Op) :
    P (s.run ops).arena (s.run ops).blocks := by
  induction ops generalizing s with
  | nil => exact hP
  | cons op rest ih => exact ih (h.step op) (hKept.step h hP op)

-- ---------------------------------------------------------------------------
-- Chunks stay until their last block
-- ---------------------------------------------------------------------------

/-- Apart from what goes back, nothing that a caller does makes a chunk go. -/
theorem Sound.chunks_step (h : s.Sound g) (op : Op) {id : ChunkId}
    (hSome : ((Cache.release s.arena (s.returns op)).chunkAt? id).isSome = true) :
    ((s.step op).arena.chunkAt? id).isSome = true := by
  obtain ⟨numCaches, hStep⟩ := h.arena_step op
  dsimp only at hStep
  rcases hStep with hStep | ⟨request, hStep⟩
  · rw [hStep]
    exact hSome
  · have hReleased := h.arena.sound_release (s.returns op)
    -- the count of caches is nothing to the arena's soundness
    have hSame : (Cache.release s.arena (s.returns op)).Resembles
        { Cache.release s.arena (s.returns op) with numCaches } := ⟨rfl, rfl, rfl, Nat.le_refl _⟩
    rw [hStep]
    exact ((hSame.sound hReleased).serves_allocate request).chunks id hSome

/-- In every state, every block that is held or parked can be given back, through any cache or past
them, and a chunk of its name is there. Whatever a caller does next gives some of them back, and
then makes one request of the arena at most. Each block that goes back is taken; if a chunk is there
before that and not after, then all its bytes are free, no subpage of any pool is one of its pages,
and no other block that is still out is carved from it. No chunk leaves at any other moment. -/
theorem run_free_ok (hg : g.WellFormed) (index : Nat) (supply : Supply) (ops : List Op) (op : Op) :
    let s := (start index g supply).run ops
    (∀ b ∈ s.blocks, (s.arena.free b).1 = .ok () ∧
      (∀ c ∈ s.caches, (s.arena.freeCached c b).1 = .ok ()) ∧
      ∀ id handle, b.origin = .pooled id handle →
        ∃ c, s.arena.chunks.find? id = some c ∧ c.id = id) ∧
    (∃ numCaches, let a : Arena := { Cache.release s.arena (s.returns op) with numCaches }
      (s.step op).arena = a ∨ ∃ request, (s.step op).arena = (a.allocate request).2) ∧
    (∀ before b after, s.returns op = before ++ b :: after →
      let a := Cache.release s.arena before
      let a' := (a.free b).2
      (a.free b).1 = .ok () ∧
        ∀ id c, a.chunks.find? id = some c → a'.chunks.find? id = none →
          (∃ handle c' pools', b.origin = .pooled id handle ∧
            c.free a.pools handle = .ok (c', pools') ∧ c'.freeBytes = g.chunkSize) ∧
          (∀ record p, subpageAt? a'.pools record = some p → p.chunk ≠ id) ∧
          ∃ rest, (before ++ b :: rest).Perm s.blocks ∧
            ∀ b' ∈ rest, ∀ handle, b'.origin ≠ .pooled id handle) ∧
    ∀ id, ((Cache.release s.arena (s.returns op)).chunks.find? id).isSome = true →
      ((s.step op).arena.chunks.find? id).isSome = true := by
  intro s
  have hSound : s.Sound g := (sound_start hg index supply).run ops
  have hFree : ∀ b ∈ s.blocks, (s.arena.free b).1 = .ok () := fun b hb =>
    (hSound.arena.takes_free (hSound.owes.perm (List.perm_cons_erase hb))).1
  refine ⟨fun b hb => ⟨hFree b hb, fun c hc => ?_, fun id handle hOrigin => ?_⟩,
    hSound.arena_step op, ?_, fun id => ?_⟩
  · unfold Arena.freeCached
    split
    · rfl
    · exact hFree b hb
  · obtain ⟨c, hChunk, -⟩ := hSound.owes.live hb hOrigin
    have hHosts := hSound.arena.chunk id c hChunk
    obtain ⟨c, hFound, rfl⟩ := Option.map_eq_some_iff.mp hChunk
    exact ⟨c, hFound, hHosts.id⟩
  · intro before b after hReturns a a'
    obtain ⟨kept, hPerm⟩ := hSound.exists_returns op
    rw [hReturns, List.append_assoc, List.cons_append] at hPerm
    -- the arena just before the block goes back, which owes it and the later ones
    obtain ⟨hArena, hGeometry, hOwes⟩ := hSound.arena.release (hSound.owes.perm hPerm.symm)
    obtain ⟨hDone, hTakes⟩ := hArena.takes_free hOwes
    refine ⟨hDone, fun id c hFound hGone => ?_⟩
    have hSome : (a.chunkAt? id).isSome = true := by
      rw [Arena.isSome_chunkAt?, hFound]
      rfl
    have hNone : a'.chunkAt? id = none := by
      rw [← Option.isNone_iff_eq_none, ← Option.not_isSome, Arena.isSome_chunkAt?, hGone]
      rfl
    -- a chunk leaves with a block only
    obtain ⟨⟨handle, c₀, c', pools', hOrigin, hFound₀, hReturn, hBytes⟩, hPages⟩ :=
      hTakes.departs id hSome hNone
    obtain rfl : c = c₀ := Option.some.inj (hFound.symm.trans hFound₀)
    rw [hGeometry, hSound.geometry] at hBytes
    refine ⟨⟨handle, c', pools', hOrigin, hReturn, hBytes⟩, hPages, after ++ kept, hPerm, ?_⟩
    intro b' hb' handle' hOrigin'
    obtain ⟨c₁, hChunk, -⟩ := (hTakes.owes _ hOwes).live hb' hOrigin'
    rw [hNone] at hChunk
    exact absurd hChunk (by simp)
  · rw [← Arena.isSome_chunkAt?, ← Arena.isSome_chunkAt?]
    exact hSound.chunks_step op

/-- Of a chunk of two pages, both taken, the second page to go back takes the chunk with it. -/
theorem run_free_ok_last_page :
    (⟨4096, 1, 0⟩ : Geometry).WellFormed ∧
      let s := (start 0 ⟨4096, 1, 0⟩ fun _ => Provider.below (2 ^ 20)).run
        [.allocate 4096, .allocate 4096, .free 0]
      ∃ b c handle c' pools', s.held = [b] ∧ s.arena.chunks.find? ⟨0, 0⟩ = some c ∧
        (s.step (.free 0)).arena.chunks.find? ⟨0, 0⟩ = none ∧
        b.origin = .pooled ⟨0, 0⟩ handle ∧ c.free s.arena.pools handle = .ok (c', pools') ∧
        c'.freeBytes = 8192 := by
  refine ⟨Geometry.wellFormed_two_pages, ?_⟩
  intro s
  obtain ⟨-, -, hReturns, -⟩ := run_free_ok Geometry.wellFormed_two_pages 0
    (fun _ => Provider.below (2 ^ 20)) [.allocate 4096, .allocate 4096, .free 0] (.free 0)
  obtain ⟨b, hHeld⟩ : ∃ b, s.held = [b] := List.length_eq_one_iff.mp (by decide +kernel)
  obtain ⟨c, hFound⟩ : ∃ c, s.arena.chunks.find? ⟨0, 0⟩ = some c :=
    Option.isSome_iff_exists.mp (by decide +kernel)
  have hGone : (s.step (.free 0)).arena.chunks.find? ⟨0, 0⟩ = none :=
    Option.isNone_iff_eq_none.mp (by decide +kernel)
  -- the one block that is held is all that the operation returns
  have hOut : s.returns (.free 0) = [] ++ b :: [] := by
    rw [returns, hHeld]
    rfl
  have hStep : (s.step (.free 0)).arena = (s.arena.free b).2 := by
    rw [step, hHeld]
    rfl
  obtain ⟨-, hLeaves⟩ := hReturns [] b [] hOut
  obtain ⟨⟨handle, c', pools', hOrigin, hFree, hBytes⟩, -, -⟩ :=
    hLeaves ⟨0, 0⟩ c hFound (hStep ▸ hGone)
  exact ⟨b, c, handle, c', pools', hHeld, hFound, hGone, hOrigin, hFree, hBytes⟩

end Session

end BlockPool
