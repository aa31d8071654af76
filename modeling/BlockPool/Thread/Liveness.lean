/-!
# BlockPool — threads and their lives

A thread runs from its first use until it exits, and then may be started again under the same
number. Each of these lives is one of its own: an `Observation` of a thread is of the life it had
then, and that is over as soon as the thread has exited.

* `Threads.observe` — the life that a running thread is in.
* `Threads.isAlive` — whether the life that was observed still lasts.
-/

namespace BlockPool.Thread

/-- A life of a thread. -/
structure Observation where
  thread : Nat
  life : Nat
deriving DecidableEq, Repr, Inhabited

/-- Which threads run. -/
structure Threads where
  running : Nat → Bool
  /-- How often a thread was started. -/
  lives : Nat → Nat

namespace Threads

/-- No thread was started yet. -/
def none : Threads := ⟨fun _ => false, fun _ => 0⟩

instance : Inhabited Threads := ⟨none⟩

/-- Starts a thread, unless it runs. -/
def start (s : Threads) (thread : Nat) : Threads :=
  if s.running thread then s
  else
    { running := fun t => if t = thread then true else s.running t
      lives := fun t => if t = thread then s.lives t + 1 else s.lives t }

/-- Ends a thread. The answer is whether it ran. -/
def exit (s : Threads) (thread : Nat) : Bool × Threads :=
  (s.running thread,
    { s with running := fun t => if t = thread then false else s.running t })

/-- The life that a thread is in. -/
def observe (s : Threads) (thread : Nat) : Observation := ⟨thread, s.lives thread⟩

/-- Whether a life that was observed still lasts. -/
def isAlive (s : Threads) (o : Observation) : Bool :=
  s.running o.thread && s.lives o.thread == o.life

/-- Whether two observations are of one life of one thread. -/
def sameLife (a b : Observation) : Bool := a == b

end Threads

end BlockPool.Thread
