/-!
# BlockPool — cells of a thread

Each thread has a cell of its own for each of several instances. A call takes the value out of its
cell, works on it and puts it back; until then the cell is lent, and a call further down that wants
the same cell is refused. A cell without a value gets one from the initializer of its instance, and
is already lent while that runs.

* `Script` — calls that go by the answers, each with the calls that are made from within it.
* `Script.run` — the answers to the calls of a thread, and the cells after them.
* `Cells.exit` — the end of a thread, with its cells.
-/

namespace BlockPool.Thread

/-- The state of a cell. -/
inductive Cell where
  | vacant
  | present (value : Int)
  | lent
deriving DecidableEq, Repr, Inhabited

/-- Whether the cell has a value, lent or not. -/
def Cell.isPresent : Cell → Bool
  | .vacant => false
  | .present _ => true
  | .lent => true

/-- Whether a call is at work on the value. -/
def Cell.isLent : Cell → Bool
  | .lent => true
  | _ => false

/-- The cells of all threads. -/
structure Cells where
  /-- The cell of a thread for an instance. -/
  cell : Nat → Nat → Cell
  /-- How often an instance made a value, on any thread. -/
  made : Nat → Nat
  /-- The value that an instance makes after so many others. -/
  initial : Nat → Nat → Int

namespace Cells

/-- Cells without values. -/
def empty (initial : Nat → Nat → Int) : Cells :=
  ⟨fun _ _ => .vacant, fun _ => 0, initial⟩

/-- Changes one cell. -/
def set (s : Cells) (thread inst : Nat) (c : Cell) : Cells :=
  { s with cell := fun t i => if t = thread ∧ i = inst then c else s.cell t i }

/-- The next value of an instance. -/
def make (s : Cells) (inst : Nat) : Int × Cells :=
  (s.initial inst (s.made inst),
    { s with made := fun i => if i = inst then s.made i + 1 else s.made i })

/-- Takes a value out of its cell for good, unless it is lent. -/
def remove (s : Cells) (thread inst : Nat) : Option Int × Cells :=
  match s.cell thread inst with
  | .present value => (some value, s.set thread inst .vacant)
  | _ => (none, s)

/-- Ends a thread: its cells are vacant. -/
def exit (s : Cells) (thread : Nat) : Cells :=
  { s with cell := fun t i => if t = thread then .vacant else s.cell t i }

@[simp] theorem cell_set_self (s : Cells) (t i : Nat) (c : Cell) :
    (s.set t i c).cell t i = c := by
  simp [set]

theorem cell_set_of_ne (s : Cells) {t i t' i' : Nat} (c : Cell) (h : ¬ (t' = t ∧ i' = i)) :
    (s.set t i c).cell t' i' = s.cell t' i' := by
  simp [set, h]

end Cells

-- ---------------------------------------------------------------------------
-- Calls
-- ---------------------------------------------------------------------------

/-- The answer to one call. -/
inductive Answer where
  /-- The cell was lent, or vacant where no value was to be made. -/
  | refused
  /-- The call saw a value and left one. The answers of the initializer are there if it ran. -/
  | ran (prepared : Option (List Answer)) (before after : Int) (body : List Answer)
  | flag (value : Bool)
  | removed (value : Option Int)
deriving Inhabited

/-- Calls that a thread makes one after the other, on the cells of the instances named. What follows
a call may go by the answer to it. -/
inductive Script where
  | done
  | isPresentThen (cell : Nat) (rest : Bool → Script)
  | isLentThen (cell : Nat) (rest : Bool → Script)
  | removeThen (cell : Nat) (rest : Option Int → Script)
  /-- Works on a value: sees it, makes calls before it is back, and leaves another in its place.
  With `creating`, a vacant cell first gets a value; the initializer makes the calls of `prepare`.
  The work knows the answers to these, if the initializer ran, and the value that it sees. What it
  leaves may go by the answers to its own calls too. -/
  | useThen (cell : Nat) (creating : Bool) (prepare : Script)
    (work : Option (List Answer) → Int → Script)
    (leave : Option (List Answer) → Int → List Answer → Int) (rest : Answer → Script)
deriving Inhabited

namespace Script

/-- The answers to the calls of a thread, and the cells after them. -/
def run (thread : Nat) : Script → Cells → List Answer × Cells
  | .done, s => ([], s)
  | .isPresentThen cell rest, s =>
    let flag := (s.cell thread cell).isPresent
    let (answers, last) := run thread (rest flag) s
    (.flag flag :: answers, last)
  | .isLentThen cell rest, s =>
    let flag := (s.cell thread cell).isLent
    let (answers, last) := run thread (rest flag) s
    (.flag flag :: answers, last)
  | .removeThen cell rest, s =>
    let (taken, s) := s.remove thread cell
    let (answers, last) := run thread (rest taken) s
    (.removed taken :: answers, last)
  | .useThen cell creating prepare work leave rest, s =>
    let lent := s.set thread cell .lent
    let (answer, s) : Answer × Cells := match s.cell thread cell, creating with
      | .present before, _ =>
        let (inner, s) := run thread (work none before) lent
        let after := leave none before inner
        (.ran none before after inner, s.set thread cell (.present after))
      | .vacant, true =>
        let (before, s) := lent.make cell
        let (prepared, s) := run thread prepare s
        let (inner, s) := run thread (work (some prepared) before) s
        let after := leave (some prepared) before inner
        (.ran (some prepared) before after inner, s.set thread cell (.present after))
      | _, _ => (.refused, s)
    let (answers, last) := run thread (rest answer) s
    (answer :: answers, last)

-- Calls that are settled beforehand, whatever the answers are.

def isPresent (cell : Nat) (rest : Script) : Script := .isPresentThen cell fun _ => rest

def isLent (cell : Nat) (rest : Script) : Script := .isLentThen cell fun _ => rest

def remove (cell : Nat) (rest : Script) : Script := .removeThen cell fun _ => rest

/-- Leaves the value that it is given, or else the one that it saw. -/
def use (cell : Nat) (creating : Bool) (prepare : Script) (value : Option Int)
    (body rest : Script) : Script :=
  .useThen cell creating prepare (fun _ _ => body) (fun _ before _ => value.getD before)
    fun _ => rest

end Script

end BlockPool.Thread
