/-!
# BlockPool — callers

Who asks for something: a running thread, which has storage of its own, or one whose storage is
already being taken down. The second is served from what all threads share.
-/

namespace BlockPool

/-- A thread that calls, or one that is past keeping anything of its own. -/
inductive Caller where
  | thread (id : Nat)
  | exiting
deriving DecidableEq, Repr, Inhabited

end BlockPool
