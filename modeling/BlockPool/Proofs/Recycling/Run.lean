import BlockPool.Proofs.Recycling.Offer

/-!
# BlockPool — runs of recyclers

Threads take turns: they get items and give them back, throw objects away, look for items and exit,
in any order, through any recycler and with any item in the company of any token.

All that happens is made of few moves: a stack is made, an item is given back, a stack looks at its
queues, the item on top is lent, a new one is made, and a thread leaves. What each of them keeps,
every run keeps.

* `Recyclers.run` — the state after a run.
* `Recyclers.get_cases` — where the item comes from that is lent.
* `Recyclers.Kept` — what all moves but the lending of an item keep.
* `Recyclers.Lasting` — what all moves keep.
* `Recyclers.Lasting.run` — and so every run.
-/

namespace BlockPool.Recycling.Recyclers

variable {s s' : Recyclers} {acc : Access} {p : Pooled} {home : Home} {id thread recycler : Nat}
  {P : Recyclers → Prop}

/-- What a thread can do, on its turn. A thread that is being taken down can only get items and give
them back. -/
inductive Op where
  | get (caller : Caller) (recycler : Nat)
  /-- Any object, with any token, through any recycler. -/
  | recycle (caller : Caller) (recycler : Nat) (p : Pooled)
  /-- Through the recycler that issued the token. -/
  | giveBack (caller : Caller) (p : Pooled)
  /-- Throws an object away that was parted from its token. -/
  | discard (caller : Caller) (item : Item)
  | scavenge (caller : Caller) (recycler : Nat)
  /-- Asks how much its stack holds, which is made if there is none. -/
  | measure (thread recycler : Nat)
  | exit (thread : Nat)

/-- The state after a thread did something. -/
def step (s : Recyclers) : Op → Recyclers
  | .get caller recycler => (s.get caller recycler).2
  | .recycle caller recycler p => (s.recycle caller recycler p).2
  | .giveBack caller p => (s.giveBack caller p).2
  | .discard caller item => s.discard (Access.ofCaller caller) item
  | .scavenge caller recycler => (s.scavenge caller recycler).2
  | .measure thread recycler => (s.ensureHome thread recycler).2.2
  | .exit thread => s.exitThread thread

/-- The state after a run. -/
def run (s : Recyclers) (ops : List Op) : Recyclers := ops.foldl step s

-- ---------------------------------------------------------------------------
-- Moves
-- ---------------------------------------------------------------------------

/-- A stack has looked at its queues; what it turned away is yet to be thrown away. -/
def look (s : Recyclers) (id : Nat) (home : Home) : Recyclers :=
  { s.setHome id (home.scavenge s.tokens).home with tokens := (home.scavenge s.tokens).tokens }

/-- A thread has left; what no one can reach any more is yet to be thrown away. -/
def leave (s : Recyclers) (thread : Nat) : Recyclers :=
  { s with
    homes := s.homes.map fun home =>
      home.bind fun h => if h.thread = thread then none else some (h.forgetSender thread)
    senders := (s.senders.filter fun x => !(x.thread == thread)).map fun x =>
      { x with routes := x.routes.map (s.routeAfterExit thread x.thread) } }

theorem exists_exitThread (s : Recyclers) (thread : Nat) :
    ∃ items, s.exitThread thread = (s.leave thread).discardAll (Access.ofCaller .exiting) items :=
  ⟨_, rfl⟩

/-- The stack of a thread, after a look at its queues if it is empty. -/
def refill (s : Recyclers) (thread recycler : Nat) : Nat × Recyclers :=
  let (id, home, s) := s.ensureHome thread recycler
  (id, if home.stack.isEmpty then (s.scavengeHome id home).2 else s)

/-- What a look leaves at the stack stays while items are thrown away from within. -/
theorem home?_scavengeHome (h : s.home? id = some home) :
    (s.scavengeHome id home).2.home? id = some (home.scavenge s.tokens).home := by
  have hGathers := home.gathers_scavenge s.tokens
  have hLooked : (s.look id home).home? id = some (home.scavenge s.tokens).home := by
    show (s.setHome id _).home? id = _
    rw [home?_setHome (lt_size_of_home? h), if_pos rfl]
  refine home?_discardAll_of_usesStack ?_ hLooked _
  rw [hGathers.thread, hGathers.recycler]
  exact ⟨rfl, List.mem_cons_self⟩

/-- What waits at the stack of a thread that wants an item. -/
theorem home?_refill (s : Recyclers) (thread recycler : Nat) :
    let found := s.ensureHome thread recycler
    (s.refill thread recycler).1 = found.1 ∧
      (s.refill thread recycler).2.home? found.1 =
        some (if found.2.1.stack.isEmpty then (found.2.1.scavenge found.2.2.tokens).home
          else found.2.1) := by
  have hHome := s.home?_ensureHome thread recycler
  unfold refill
  refine ⟨rfl, ?_⟩
  dsimp only
  split
  · exact home?_scavengeHome hHome
  · exact hHome

/-- The item that is lent, unless nothing is pooled, is the one on top of the thread's own stack, or
a new one. -/
theorem get_of_enabled (hEnabled : (s.config recycler).isDisabled = false) (thread : Nat) :
    ∃ id s', s.refill thread recycler = (id, s') ∧ ∃ home, s'.home? id = some home ∧
      home.thread = thread ∧ home.recycler = recycler ∧
        ((∃ p entries, home.stack.entries = p :: entries ∧ s.get (.thread thread) recycler =
            (p, { s'.setHome id { home with stack := { home.stack with entries } } with
              tokens := s'.tokens.markInUse p.token })) ∨
          (home.stack.entries = [] ∧
            s.get (.thread thread) recycler = s'.makeFor recycler id)) := by
  -- getting an item is to refill the stack and to take its top, or to make one
  have hGet : s.get (.thread thread) recycler =
      ((s.refill thread recycler).2.pop? (s.refill thread recycler).1).getD
        ((s.refill thread recycler).2.makeFor recycler (s.refill thread recycler).1) := by
    unfold Recyclers.get refill
    dsimp only
    rw [hEnabled, if_neg (by simp)]
    cases pop? _ (s.ensureHome thread recycler).1 <;> rfl
  obtain ⟨hThread, hRecycler, -⟩ := s.ensureHome_cases thread recycler
  obtain ⟨hId, hAt⟩ := s.home?_refill thread recycler
  rw [← hId] at hAt
  refine ⟨(s.refill thread recycler).1, (s.refill thread recycler).2, rfl, _, hAt, ?_, ?_, ?_⟩
  · split
    · exact (Home.gathers_scavenge ..).thread.trans hThread
    · exact hThread
  · split
    · exact (Home.gathers_scavenge ..).recycler.trans hRecycler
    · exact hRecycler
  · rw [hGet, pop?, hAt]
    -- whether the stack was refilled matters no more
    generalize (if (s.ensureHome thread recycler).2.1.stack.isEmpty then
      ((s.ensureHome thread recycler).2.1.scavenge
        (s.ensureHome thread recycler).2.2.tokens).home
      else (s.ensureHome thread recycler).2.1) = home
    cases hEntries : home.stack.entries with
    | nil =>
      refine .inr ⟨rfl, ?_⟩
      simp [Stack.pop?, hEntries]
    | cons p entries =>
      refine .inl ⟨p, entries, rfl, ?_⟩
      simp [Stack.pop?, hEntries]

/-- The item that is lent is inert, or it comes from the thread's own stack or is made for it. -/
theorem get_cases (s : Recyclers) (caller : Caller) (recycler : Nat) :
    s.get caller recycler = s.makeInert ∨ ∃ thread id s', caller = .thread thread ∧
      s.refill thread recycler = (id, s') ∧ ∃ home, s'.home? id = some home ∧
        home.thread = thread ∧ home.recycler = recycler ∧
          ((∃ p entries, home.stack.entries = p :: entries ∧ s.get caller recycler =
              (p, { s'.setHome id { home with stack := { home.stack with entries } } with
                tokens := s'.tokens.markInUse p.token })) ∨
            (home.stack.entries = [] ∧ s.get caller recycler = s'.makeFor recycler id)) := by
  cases caller with
  | exiting => exact .inl rfl
  | thread thread =>
    cases hDisabled : (s.config recycler).isDisabled with
    | true => exact .inl (if_pos hDisabled)
    | false =>
      obtain ⟨id, s', hLent⟩ := get_of_enabled hDisabled thread
      exact .inr ⟨thread, id, s', rfl, hLent⟩

-- ---------------------------------------------------------------------------
-- What moves keep
-- ---------------------------------------------------------------------------

/-- A property of the state that all moves keep by which no item is lent. -/
structure Kept (P : Recyclers → Prop) : Prop where
  enter : ∀ {s thread recycler}, P s → P (ensureHome s thread recycler).2.2
  offer : ∀ {s acc recycler p}, P s → P (offer s acc recycler p).2
  look : ∀ {s id home}, s.home? id = some home → P s → P (look s id home)
  leave : ∀ {s thread}, P s → P (leave s thread)

/-- A property of the state that all moves keep. -/
structure Lasting (P : Recyclers → Prop) : Prop extends Kept P where
  pop : ∀ {s id home p entries}, s.home? id = some home → home.stack.entries = p :: entries →
    P s → P { s.setHome id { home with stack := { home.stack with entries } } with
      tokens := s.tokens.markInUse p.token }
  makeFor : ∀ {s id home}, s.home? id = some home → P s →
    P (makeFor s home.recycler id).2
  makeInert : ∀ {s}, P s → P (makeInert s).2

namespace Kept

theorem discard (hKept : Kept P) (acc : Access) (item : Item) (h : P s) : P (s.discard acc item) :=
  discard_keeps stable_true (fun _ _ _ _ _ h => hKept.offer h) item trivial h

theorem discardAll (hKept : Kept P) (acc : Access) (items : List Pooled) (h : P s) :
    P (s.discardAll acc items) :=
  discardAll_keeps stable_true (fun _ _ _ _ _ h => hKept.offer h) items trivial h

theorem recycle (hKept : Kept P) (caller : Caller) (recycler : Nat) (p : Pooled) (h : P s) :
    P (s.recycle caller recycler p).2 := by
  have hOffered : P (s.offer (Access.ofCaller caller) recycler p).2 := hKept.offer h
  unfold Recyclers.recycle
  dsimp only
  split
  · exact hKept.discardAll _ _ hOffered
  · exact hKept.discard _ _ (hKept.discardAll _ _ hOffered)

theorem scavengeHome (hKept : Kept P) (hHome : s.home? id = some home) (h : P s) :
    P (s.scavengeHome id home).2 :=
  hKept.discardAll _ _ (hKept.look hHome h)

theorem scavenge (hKept : Kept P) (caller : Caller) (recycler : Nat) (h : P s) :
    P (s.scavenge caller recycler).2 := by
  cases caller with
  | exiting => exact h
  | thread thread =>
    exact hKept.scavengeHome (s.home?_ensureHome thread recycler) (hKept.enter h)

theorem refill (hKept : Kept P) (thread recycler : Nat) (h : P s) :
    P (s.refill thread recycler).2 := by
  have hEntered : P (s.ensureHome thread recycler).2.2 := hKept.enter h
  unfold Recyclers.refill
  dsimp only
  split
  · exact hKept.scavengeHome (s.home?_ensureHome thread recycler) hEntered
  · exact hEntered

theorem exitThread (hKept : Kept P) (thread : Nat) (h : P s) : P (s.exitThread thread) := by
  obtain ⟨items, hExit⟩ := s.exists_exitThread thread
  rw [hExit]
  exact hKept.discardAll _ _ (hKept.leave h)

/-- All that a thread can do keeps what moves keep, but for the lending of an item. -/
theorem step (hKept : Kept P) (op : Op) (h : P s)
    (hGet : ∀ caller recycler, op = .get caller recycler → P (s.get caller recycler).2) :
    P (s.step op) := by
  cases op with
  | get caller recycler => exact hGet caller recycler rfl
  | recycle caller recycler p => exact hKept.recycle caller recycler p h
  | giveBack caller p => exact hKept.recycle caller _ p h
  | discard caller item => exact hKept.discard _ item h
  | scavenge caller recycler => exact hKept.scavenge caller recycler h
  | measure thread recycler => exact hKept.enter h
  | exit thread => exact hKept.exitThread thread h

end Kept

namespace Lasting

theorem get (hLasting : Lasting P) (caller : Caller) (recycler : Nat) (h : P s) :
    P (s.get caller recycler).2 := by
  rcases s.get_cases caller recycler with hInert |
    ⟨thread, id, s', -, hRefill, home, hHome, -, rfl, hLent⟩
  · rw [hInert]
    exact hLasting.makeInert h
  · have hRefilled := hLasting.toKept.refill thread home.recycler h
    rw [hRefill] at hRefilled
    rcases hLent with ⟨p, entries, hEntries, hGet⟩ | ⟨-, hGet⟩
    · rw [hGet]
      exact hLasting.pop hHome hEntries hRefilled
    · rw [hGet]
      exact hLasting.makeFor hHome hRefilled

theorem step (hLasting : Lasting P) (op : Op) (h : P s) : P (s.step op) :=
  hLasting.toKept.step op h fun caller recycler _ => hLasting.get caller recycler h

/-- What every move keeps, every run keeps. -/
theorem run (hLasting : Lasting P) (ops : List Op) (h : P s) : P (s.run ops) := by
  induction ops generalizing s with
  | nil => exact h
  | cons op rest ih => exact ih (hLasting.step op h)

end Lasting

end BlockPool.Recycling.Recyclers
