import BlockPool.Proofs.Arena.Orderly
import BlockPool.Proofs.Arena.Session

/-!
# BlockPool — runs of an arena

Nothing keeps a caller from giving a block back twice, or one that never was handed out, or from
naming a chunk that is gone. In a run of an arena callers do what they like: any block goes back,
any handle of any chunk, and every cache stands in for one, whatever it holds. What an arena keeps
to even then does not depend on its callers.

* `Arena.run` — the state after a run.
* `Arena.Regular.run` — the arena stays sound and in order, whatever is done to it.
* `Session.exists_run` — what a session does to its arena is such a run.
-/

namespace BlockPool

namespace Arena

variable {a : Arena} {g : Geometry}

/-- What can be done to an arena, with any block, any name and any cache, its own or not. -/
inductive Op where
  | allocate (request : Nat)
  | allocateVia (cache : Cache) (request : Nat)
  /-- The cache alone is asked, and trims itself if it is time. -/
  | take (cache : Cache) (k : SizeClass) (size : Nat)
  | free (block : Block)
  | freeVia (cache : Cache) (block : Block)
  | freeChunk (id : ChunkId) (handle : Handle) (k : SizeClass)
  | bind
  | trim (cache : Cache)
  | drop (cache : Cache)

/-- The arena after something was done to it. -/
def step (a : Arena) : Op → Arena
  | .allocate request => (a.allocate request).2
  | .allocateVia c request => (a.allocateCached c request).2.2
  | .take c k size => (c.take a k size).2.2
  | .free block => (a.free block).2
  | .freeVia c block => (a.freeCached c block).2.2
  | .freeChunk id handle k => (a.freeChunk id handle k).2
  | .bind => a.bindCache
  | .trim c => (c.trim a).2
  | .drop c => c.dissolve a

/-- The arena after a run. -/
def run (a : Arena) (ops : List Op) : Arena := ops.foldl step a

-- ---------------------------------------------------------------------------
-- What a cache does to an arena
-- ---------------------------------------------------------------------------

/-- A request through a cache gives some blocks back, and then goes on to the arena or not. -/
theorem arena_allocateCached (a : Arena) (c : Cache) (request : Nat) :
    let released := Cache.release a (a.shed c request)
    (a.allocateCached c request).2.2 = released ∨
      (a.allocateCached c request).2.2 = (released.allocate request).2 := by
  unfold shed
  dsimp only
  split
  · rename_i hPast
    rw [allocateCached_past hPast]
    exact .inr rfl
  · rename_i hBoth
    obtain ⟨hPos, hSmall⟩ := not_or.mp hBoth
    rw [allocateCached_via hPos rfl hSmall, ← Cache.arena_take]
    split
    · rename_i hTake
      rw [hTake]
      exact .inl rfl
    · rename_i hTake
      rw [hTake]
      exact .inr rfl

/-- A block that goes back through a cache stays there, or goes on to the arena. -/
theorem arena_freeCached (a : Arena) (c : Cache) (block : Block) :
    (a.freeCached c block).2.2 = a ∨ (a.freeCached c block).2.2 = (a.free block).2 := by
  unfold Arena.freeCached
  split
  · exact .inl rfl
  · exact .inr rfl

-- ---------------------------------------------------------------------------
-- What every run keeps
-- ---------------------------------------------------------------------------

/-- What holds of an arena in between two operations, whoever calls. -/
structure Regular (a : Arena) (g : Geometry) : Prop where
  geometry : a.geometry = g
  sound : a.Sound
  orderly : a.Orderly

theorem regular_empty (hg : g.WellFormed) (index : Nat) (supply : Supply) :
    (empty index g supply).Regular g :=
  ⟨rfl, sound_empty index hg supply, orderly_empty index g supply⟩

theorem Regular.allocate (h : a.Regular g) (request : Nat) :
    (a.allocate request).2.Regular g := by
  have hServes := h.sound.serves_allocate request
  exact ⟨hServes.geometry.trans h.geometry, hServes.sound, h.orderly.allocate h.sound request⟩

theorem Regular.free (h : a.Regular g) (block : Block) : (a.free block).2.Regular g :=
  ⟨(geometry_free a block).trans h.geometry, h.sound.free block, h.orderly.free h.sound block⟩

theorem Regular.freeChunk (h : a.Regular g) (id : ChunkId) (handle : Handle) (k : SizeClass) :
    (a.freeChunk id handle k).2.Regular g :=
  ⟨(geometry_freeChunk a id handle k).trans h.geometry, h.sound.freeChunk id handle k,
    h.orderly.freeChunk h.sound id handle k⟩

theorem Regular.release (h : a.Regular g) (blocks : List Block) :
    (Cache.release a blocks).Regular g := by
  induction blocks generalizing a with
  | nil => exact h
  | cons block blocks ih => exact ih (h.free block)

/-- The count of caches is nothing to the arena. -/
theorem Regular.setCaches (h : a.Regular g) (numCaches : Nat) :
    Regular { a with numCaches } g := by
  have hSame : a.Resembles { a with numCaches } := ⟨rfl, rfl, rfl, Nat.le_refl _⟩
  exact ⟨h.geometry, hSame.sound h.sound, h.orderly.bands, h.orderly.pools⟩

theorem Regular.allocateCached (h : a.Regular g) (c : Cache) (request : Nat) :
    (a.allocateCached c request).2.2.Regular g := by
  have hReleased := h.release (a.shed c request)
  rcases arena_allocateCached a c request with hServed | hAsked
  · rwa [hServed]
  · rw [hAsked]
    exact hReleased.allocate request

theorem Regular.freeCached (h : a.Regular g) (c : Cache) (block : Block) :
    (a.freeCached c block).2.2.Regular g := by
  rcases arena_freeCached a c block with hParked | hFreed
  · rwa [hParked]
  · rw [hFreed]
    exact h.free block

theorem Regular.step (h : a.Regular g) (op : Op) : (a.step op).Regular g := by
  cases op with
  | allocate request => exact h.allocate request
  | allocateVia c request => exact h.allocateCached c request
  | take c k size =>
    rw [Arena.step, Cache.arena_take]
    exact h.release (c.shed k size)
  | free block => exact h.free block
  | freeVia c block => exact h.freeCached c block
  | freeChunk id handle k => exact h.freeChunk id handle k
  | bind => exact h.setCaches _
  | trim c => exact h.release c.surplus
  | drop c => exact (h.release (c.gather CacheQueue.drain).1).setCaches _

/-- Whatever callers do, the arena stays sound and in order. -/
theorem Regular.run (h : a.Regular g) (ops : List Op) : (a.run ops).Regular g := by
  induction ops generalizing a with
  | nil => exact h
  | cons op rest ih => exact ih (h.step op)

end Arena

-- ---------------------------------------------------------------------------
-- Sessions
-- ---------------------------------------------------------------------------

namespace Session

variable {g : Geometry}

/-- What a caller of a session does to the arena is one operation at most. -/
theorem exists_step (s : Session) (op : Op) :
    (s.step op).arena = s.arena ∨ ∃ op', (s.step op).arena = s.arena.step op' := by
  cases op with
  | allocate request => exact .inr ⟨.allocate request, rfl⟩
  | bind config => exact .inr ⟨.bind, rfl⟩
  -- a call that names no cache or no block does nothing
  | allocateVia j request =>
    unfold Session.step
    dsimp only
    split
    · exact .inl rfl
    · exact .inr ⟨.allocateVia _ request, rfl⟩
  | free i =>
    unfold Session.step
    dsimp only
    split
    · exact .inl rfl
    · exact .inr ⟨.free _, rfl⟩
  | freeVia j i =>
    unfold Session.step
    dsimp only
    split
    · exact .inr ⟨.freeVia _ _, rfl⟩
    · exact .inl rfl
  | trim j =>
    unfold Session.step
    dsimp only
    split
    · exact .inl rfl
    · exact .inr ⟨.trim _, rfl⟩
  | drop j =>
    unfold Session.step
    dsimp only
    split
    · exact .inl rfl
    · exact .inr ⟨.drop _, rfl⟩

/-- The arena of a session has gone through a run of its own. -/
theorem exists_run (s : Session) (ops : List Op) :
    ∃ ops', (s.run ops).arena = s.arena.run ops' := by
  induction ops generalizing s with
  | nil => exact ⟨[], rfl⟩
  | cons op rest ih =>
    obtain ⟨ops', hRest⟩ := ih (s.step op)
    rcases s.exists_step op with hSame | ⟨op', hStep⟩
    · exact ⟨ops', hRest.trans (by rw [hSame])⟩
    · exact ⟨op' :: ops', hRest.trans (by rw [hStep]; rfl)⟩

/-- The arena is in order after every run. -/
theorem orderly_run (hg : g.WellFormed) (index : Nat) (supply : Supply) (ops : List Op) :
    ((start index g supply).run ops).arena.Orderly := by
  obtain ⟨ops', hRun⟩ := exists_run (start index g supply) ops
  rw [hRun]
  exact ((Arena.regular_empty hg index supply).run ops').orderly

end Session

end BlockPool
