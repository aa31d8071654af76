import BlockPool.Thread.Cells
import Mathlib

/-!
# BlockPool — cells that are lent

Calls on the cells of a thread may be nested in each other, in the work on a value and in the making
of one alike. All that they answer can be told from the accesses in front of them: a cell is as the
last access to it, by its own thread, left it. That holds from any cells, so also of what a thread
calls while others are at work on values of theirs.

* `Access`, `Event` — what happens at a cell, and where.
* `status` — a cell as the events leave it.
* `Lawful` — every access is allowed by what happened before it.
* `Calls` — all that a call can do that wants to work on a value.
* `SameRow` — the cells of one thread, and all else that its calls go by.
* `Cells.run_lendable` — the calls of all threads, taken together, give lawful events, and those of
  one thread are nothing to another.
-/

namespace BlockPool.Thread

-- ---------------------------------------------------------------------------
-- Events
-- ---------------------------------------------------------------------------

/-- What happens at a cell. -/
inductive Access where
  /-- A call answers nothing, and neither its work nor the initializer runs. -/
  | refused (creating : Bool)
  /-- A call begins to work on the value that it finds. -/
  | found (value : Int)
  /-- A call has the initializer run, and works on the value that comes of it. -/
  | created (value : Int)
  /-- A call that ran is over, and leaves a value. -/
  | left (value : Int)
  | isPresent (answer : Bool)
  | isLent (answer : Bool)
  | removed (taken : Option Int)
deriving DecidableEq

/-- An access to the cell of a thread for an instance, or the end of a thread. -/
inductive Event where
  | at (thread inst : Nat) (access : Access)
  | exit (thread : Nat)
deriving DecidableEq

/-- The value in a cell, unless it is lent. -/
def Cell.value? : Cell → Option Int
  | .present value => some value
  | _ => none

/-- A cell after an access to it. -/
def Access.leaves (c : Cell) : Access → Cell
  | .found _ => .lent
  | .created _ => .lent
  | .left value => .present value
  | .removed (some _) => .vacant
  | _ => c

/-- The cell of a thread for an instance after an event. No other thread or instance matters. -/
def Event.leaves (thread inst : Nat) (c : Cell) : Event → Cell
  | .at t i access => if thread = t ∧ inst = i then access.leaves c else c
  | .exit t => if thread = t then .vacant else c

/-- Whether the event is the making of a value of the instance. -/
def Event.creates (inst : Nat) : Event → Bool
  | .at _ i (.created _) => inst == i
  | _ => false

/-- A cell as the events leave it. -/
def status (start : Cells) (events : List Event) (thread inst : Nat) : Cell :=
  events.foldl (Event.leaves thread inst) (start.cell thread inst)

/-- How many values of the instance are made when the events are over. -/
def creations (start : Cells) (events : List Event) (inst : Nat) : Nat :=
  start.made inst + events.countP (Event.creates inst)

/-- Whether an access may be made to a cell. `fresh` is what the initializer makes next. -/
def Access.Allowed (c : Cell) (fresh : Int) : Access → Prop
  | .refused creating => c = .lent ∨ (c = .vacant ∧ creating = false)
  | .found value => c = .present value
  | .created value => c = .vacant ∧ value = fresh
  | .left _ => c = .lent
  | .isPresent answer => answer = c.isPresent
  | .isLent answer => answer = c.isLent
  | .removed taken => taken = c.value?

/-- Whether an event may come after others. -/
def Event.Allowed (start : Cells) (past : List Event) : Event → Prop
  | .at t i access =>
    access.Allowed (status start past t i) (start.initial i (creations start past i))
  | .exit _ => True

/-- Every event is allowed by those before it. -/
def Lawful (start : Cells) (past events : List Event) : Prop :=
  ∀ before e after, events = before ++ e :: after → e.Allowed start (past ++ before)

-- ---------------------------------------------------------------------------
-- Turns
-- ---------------------------------------------------------------------------

/-- The calls of a thread, of which the answers tell the events. -/
inductive Records (thread : Nat) : Script → List Answer → List Event → Prop where
  | done : Records thread .done [] []
  | isPresent {inst flag rest answers events} (hRest : Records thread (rest flag) answers events) :
    Records thread (.isPresentThen inst rest) (.flag flag :: answers)
      (.at thread inst (.isPresent flag) :: events)
  | isLent {inst flag rest answers events} (hRest : Records thread (rest flag) answers events) :
    Records thread (.isLentThen inst rest) (.flag flag :: answers)
      (.at thread inst (.isLent flag) :: events)
  | remove {inst taken rest answers events} (hRest : Records thread (rest taken) answers events) :
    Records thread (.removeThen inst rest) (.removed taken :: answers)
      (.at thread inst (.removed taken) :: events)
  | refused {inst creating prepare work leave rest answers events}
    (hRest : Records thread (rest .refused) answers events) :
    Records thread (.useThen inst creating prepare work leave rest) (.refused :: answers)
      (.at thread inst (.refused creating) :: events)
  /-- The calls that are made at work lie between the beginning of the work and its end. -/
  | found {inst creating prepare work leave rest before after inner within answers events}
    (hBody : Records thread (work none before) inner within)
    (hAfter : after = leave none before inner)
    (hRest : Records thread (rest (.ran none before after inner)) answers events) :
    Records thread (.useThen inst creating prepare work leave rest)
      (.ran none before after inner :: answers)
      (.at thread inst (.found before) :: (within ++ .at thread inst (.left after) :: events))
  /-- Those of the initializer come first. -/
  | created {inst prepare work leave rest before after prepared inner ahead within answers events}
    (hPrepare : Records thread prepare prepared ahead)
    (hBody : Records thread (work (some prepared) before) inner within)
    (hAfter : after = leave (some prepared) before inner)
    (hRest : Records thread (rest (.ran (some prepared) before after inner)) answers events) :
    Records thread (.useThen inst true prepare work leave rest)
      (.ran (some prepared) before after inner :: answers)
      (.at thread inst (.created before) ::
        (ahead ++ (within ++ .at thread inst (.left after) :: events)))

/-- What a thread does when it is its turn. -/
inductive Turn where
  | calls (thread : Nat) (script : Script)
  | exit (thread : Nat)

namespace Cells

/-- The answers to one turn, and the cells after it. -/
def turn (s : Cells) : Turn → List Answer × Cells
  | .calls thread script => script.run thread s
  | .exit thread => ([], s.exit thread)

/-- The answers to one turn after the other, and the cells after them. -/
def run (s : Cells) : List Turn → List (List Answer) × Cells
  | [] => ([], s)
  | t :: rest =>
    let after := (s.turn t).2
    ((s.turn t).1 :: (run after rest).1, (run after rest).2)

end Cells

/-- The turns of all threads, of which the answers tell the events. -/
inductive TurnsRecord : List Turn → List (List Answer) → List Event → Prop where
  | nil : TurnsRecord [] [] []
  | calls {thread script answers events turns others later}
    (hCalls : Records thread script answers events) (hRest : TurnsRecord turns others later) :
    TurnsRecord (.calls thread script :: turns) (answers :: others) (events ++ later)
  | exit {thread turns others later} (hRest : TurnsRecord turns others later) :
    TurnsRecord (.exit thread :: turns) ([] :: others) (.exit thread :: later)

-- ---------------------------------------------------------------------------
-- One event after the other
-- ---------------------------------------------------------------------------

variable {start s s' : Cells} {past events later : List Event} {e : Event} {thread inst : Nat}
  {script : Script}

theorem status_append (start : Cells) (past events : List Event) (t i : Nat) :
    status start (past ++ events) t i =
      events.foldl (Event.leaves t i) (status start past t i) :=
  List.foldl_append

/-- No event is lawful without further ado. -/
theorem lawful_nil : Lawful start past [] := fun before e after h => by
  cases before <;> simp at h

/-- The first event is allowed by the past, and the others by the past with it. -/
theorem lawful_cons :
    Lawful start past (e :: events) ↔
      e.Allowed start past ∧ Lawful start (past ++ [e]) events := by
  constructor
  · intro h
    refine ⟨by simpa using h [] e events rfl, fun before e' after hSplit => ?_⟩
    have hAllowed := h (e :: before) e' after (by rw [hSplit]; rfl)
    rwa [List.append_assoc]
  · rintro ⟨hFirst, hRest⟩ before e' after hSplit
    cases before with
    | nil =>
      obtain ⟨rfl, -⟩ := List.cons.inj hSplit
      simpa using hFirst
    | cons first before =>
      obtain ⟨rfl, hTail⟩ := List.cons.inj hSplit
      have hAllowed := hRest before e' after hTail
      rwa [List.append_assoc] at hAllowed

theorem lawful_append :
    Lawful start past (events ++ later) ↔
      Lawful start past events ∧ Lawful start (past ++ events) later := by
  induction events generalizing past with
  | nil => simp [lawful_nil]
  | cons e events ih =>
    rw [List.cons_append, lawful_cons, lawful_cons, ih, and_assoc, List.append_assoc,
      List.singleton_append]

/-- The cells are as the events left them. -/
structure Matches (start s : Cells) (events : List Event) : Prop where
  initial_eq : s.initial = start.initial
  cell_eq : ∀ t i, s.cell t i = status start events t i
  made_eq : ∀ i, s.made i = creations start events i

theorem matches_start (start : Cells) : Matches start start [] where
  initial_eq := rfl
  cell_eq _ _ := rfl
  made_eq _ := rfl

/-- One more event. -/
theorem Matches.concat (h : Matches start s past) (hInitial : s'.initial = s.initial)
    (hCell : ∀ t i, s'.cell t i = e.leaves t i (s.cell t i))
    (hMade : ∀ i, s'.made i = s.made i + if e.creates i then 1 else 0) :
    Matches start s' (past ++ [e]) where
  initial_eq := hInitial.trans h.initial_eq
  cell_eq t i := by
    rw [hCell, h.cell_eq, status_append]
    rfl
  made_eq i := by
    rw [hMade, h.made_eq, creations, creations, List.countP_append, List.countP_singleton,
      Nat.add_assoc]

-- ---------------------------------------------------------------------------
-- One call
-- ---------------------------------------------------------------------------

/-- All that a call can do that wants to work on a value. It looks at no cell but its own. -/
inductive Calls (thread inst : Nat) (creating : Bool) (prepare : Script)
    (work : Option (List Answer) → Int → Script)
    (leave : Option (List Answer) → Int → List Answer → Int) (s : Cells) :
    Answer → Cells → Prop where
  /-- Nothing runs, and nothing changes. -/
  | refused (hCell : s.cell thread inst = .lent ∨
      (s.cell thread inst = .vacant ∧ creating = false)) :
    Calls thread inst creating prepare work leave s .refused s
  /-- The value is there, and the cell is lent for as long as the work runs. -/
  | found {before inner s'} (hCell : s.cell thread inst = .present before)
    (hBody : (work none before).run thread (s.set thread inst .lent) = (inner, s')) :
    Calls thread inst creating prepare work leave s
      (.ran none before (leave none before inner) inner)
      (s'.set thread inst (.present (leave none before inner)))
  /-- The cell is lent while the initializer runs, and then while the work runs. -/
  | created {before prepared inner s₁ s₂} (hCell : s.cell thread inst = .vacant)
    (hCreating : creating = true) (hBefore : before = s.initial inst (s.made inst))
    (hPrepare : prepare.run thread ((s.set thread inst .lent).make inst).2 = (prepared, s₁))
    (hBody : (work (some prepared) before).run thread s₁ = (inner, s₂)) :
    Calls thread inst creating prepare work leave s
      (.ran (some prepared) before (leave (some prepared) before inner) inner)
      (s₂.set thread inst (.present (leave (some prepared) before inner)))

section Calls

variable {creating : Bool} {prepare : Script} {work : Option (List Answer) → Int → Script}
  {leave : Option (List Answer) → Int → List Answer → Int} {answer : Answer}

/-- A call always does one of the three. -/
theorem exists_calls (thread inst : Nat) (creating : Bool) (prepare : Script)
    (work : Option (List Answer) → Int → Script)
    (leave : Option (List Answer) → Int → List Answer → Int) (s : Cells) :
    ∃ answer s', Calls thread inst creating prepare work leave s answer s' := by
  cases hCell : s.cell thread inst with
  | lent => exact ⟨_, _, .refused (.inl hCell)⟩
  | present before => exact ⟨_, _, .found hCell rfl⟩
  | vacant =>
    cases hCreating : creating with
    | false => exact ⟨_, _, .refused (.inr ⟨hCell, rfl⟩)⟩
    | true => exact ⟨_, _, .created hCell rfl rfl rfl rfl⟩

/-- The call comes first. The rest knows its answer, and starts from the cells that it leaves. -/
theorem Calls.run_useThen (h : Calls thread inst creating prepare work leave s answer s')
    (rest : Answer → Script) :
    (Script.useThen inst creating prepare work leave rest).run thread s =
      (answer :: ((rest answer).run thread s').1, ((rest answer).run thread s').2) := by
  cases h with
  | refused hCell =>
    rcases hCell with hLent | ⟨hVacant, hCreating⟩
    · simp only [Script.run, hLent]
    · simp only [Script.run, hVacant, hCreating]
  | found hCell hBody => simp only [Script.run, hCell, hBody]
  | created hCell hCreating hBefore hPrepare hBody =>
    subst hBefore hCreating
    have hMade : ((s.set thread inst .lent).make inst).1 = s.initial inst (s.made inst) := rfl
    simp only [Script.run, hCell, hPrepare, hMade, hBody]

/-- The call is over, and its value is back. -/
theorem Calls.cell_of_ran {prepared : Option (List Answer)} {before after : Int}
    {inner : List Answer}
    (h : Calls thread inst creating prepare work leave s (.ran prepared before after inner) s') :
    s'.cell thread inst = .present after := by
  cases h with
  | found hCell hBody => exact Cells.cell_set_self ..
  | created hCell hCreating hBefore hPrepare hBody => exact Cells.cell_set_self ..

end Calls

theorem cell_make (s : Cells) (inst t i : Nat) : (s.make inst).2.cell t i = s.cell t i := rfl

theorem cell_set (s : Cells) (t i : Nat) (c : Cell) (t' i' : Nat) :
    (s.set t i c).cell t' i' = if t' = t ∧ i' = i then c else s.cell t' i' := rfl

/-- To put a value into a cell or take it out lends nothing, where the cell was not lent before. -/
theorem lent_iff_set {c : Cell} {t i : Nat} (hOld : s.cell thread inst ≠ .lent) (hNew : c ≠ .lent)
    (hElsewhere : ¬ (t = thread ∧ i = inst) → (s'.cell t i = .lent ↔ s.cell t i = .lent)) :
    (s'.set thread inst c).cell t i = .lent ↔ s.cell t i = .lent := by
  rw [cell_set]
  split
  · rename_i hHere
    rw [hHere.1, hHere.2]
    exact iff_of_false hNew hOld
  · rename_i hOther
    exact hElsewhere hOther

/-- Calls give back what they were lent, and take nothing that is lent already. -/
theorem lent_iff_run (thread : Nat) (script : Script) (s : Cells) (t i : Nat) :
    (script.run thread s).2.cell t i = .lent ↔ s.cell t i = .lent := by
  induction script generalizing s with
  | done => rfl
  | isPresentThen inst rest ih => exact ih _ s
  | isLentThen inst rest ih => exact ih _ s
  | removeThen inst rest ih =>
    refine (ih (s.remove thread inst).1 (s.remove thread inst).2).trans ?_
    rw [Cells.remove]
    split
    · rename_i value hCell
      exact lent_iff_set (by simp [hCell]) nofun fun hElsewhere => Iff.rfl
    · rfl
  | useThen inst creating prepare work leave rest ihPrepare ihWork ihRest =>
    obtain ⟨answer, s', hCalls⟩ := exists_calls thread inst creating prepare work leave s
    rw [hCalls.run_useThen rest]
    refine (ihRest answer s').trans ?_
    -- the own cell was not lent, and is present at the end; elsewhere the calls from within count
    cases hCalls with
    | refused => rfl
    | @found before inner s₁ hCell hBody =>
      refine lent_iff_set (by simp [hCell]) nofun fun hElsewhere => ?_
      have hSame := ihWork none before (s.set thread inst .lent)
      rwa [hBody, Cells.cell_set_of_ne s _ hElsewhere] at hSame
    | @created before prepared inner s₁ s₂ hCell hCreating hBefore hPrepare hBody =>
      refine lent_iff_set (by simp [hCell]) nofun fun hElsewhere => ?_
      have hPrepared := ihPrepare ((s.set thread inst .lent).make inst).2
      rw [hPrepare, cell_make, Cells.cell_set_of_ne s _ hElsewhere] at hPrepared
      have hWorked := ihWork (some prepared) before s₁
      rw [hBody] at hWorked
      exact hWorked.trans hPrepared

/-- What was lent to a call is lent still when the calls from within it are over. -/
theorem lent_of_run {answers : List Answer} (hRun : script.run thread s = (answers, s')) {t i : Nat}
    (hLent : s.cell t i = .lent) : s'.cell t i = .lent := by
  have hKept := (lent_iff_run thread script s t i).mpr hLent
  rwa [hRun] at hKept

-- ---------------------------------------------------------------------------
-- One access
-- ---------------------------------------------------------------------------

/-- An access that leaves the cell as it is. -/
theorem Matches.still (h : Matches start s past) (thread inst : Nat) (access : Access)
    (hLeaves : access.leaves (s.cell thread inst) = s.cell thread inst)
    (hMakes : ∀ i, Event.creates i (.at thread inst access) = false) :
    Matches start s (past ++ [.at thread inst access]) := by
  refine h.concat rfl (fun t i => ?_) (fun i => by simp [hMakes i])
  rw [Event.leaves]
  split
  · rename_i hHere
    rw [hHere.1, hHere.2, hLeaves]
  · rfl

/-- An access that changes the cell. -/
theorem Matches.set (h : Matches start s past) (thread inst : Nat) (access : Access) (c : Cell)
    (hLeaves : access.leaves (s.cell thread inst) = c)
    (hMakes : ∀ i, Event.creates i (.at thread inst access) = false) :
    Matches start (s.set thread inst c) (past ++ [.at thread inst access]) := by
  refine h.concat rfl (fun t i => ?_) (fun i => ?_)
  · rw [cell_set, Event.leaves]
    split
    · rename_i hHere
      rw [hHere.1, hHere.2, hLeaves]
    · rfl
  · rw [hMakes i]
    rfl

/-- A value is made, and lent at once. -/
theorem Matches.make (h : Matches start s past) (thread inst : Nat) (value : Int) :
    Matches start ((s.set thread inst .lent).make inst).2
      (past ++ [.at thread inst (.created value)]) := by
  refine h.concat rfl (fun t i => ?_) (fun i => ?_)
  · rw [cell_make, cell_set]
    rfl
  · rw [Event.creates]
    by_cases hHere : i = inst <;> simp [Cells.make, Cells.set, hHere]

/-- A value is taken out for good if it is there. -/
theorem Matches.remove (h : Matches start s past) (thread inst : Nat) :
    Matches start (s.remove thread inst).2
      (past ++ [.at thread inst (.removed (s.remove thread inst).1)]) := by
  rw [Cells.remove]
  split
  · exact h.set thread inst (.removed (some _)) .vacant rfl fun i => rfl
  · exact h.still thread inst (.removed none) rfl fun i => rfl

theorem remove_fst (s : Cells) (thread inst : Nat) :
    (s.remove thread inst).1 = (s.cell thread inst).value? := by
  rw [Cells.remove]
  cases s.cell thread inst <;> rfl

/-- A thread ends with its cells. -/
theorem Matches.exit (h : Matches start s past) (thread : Nat) :
    Matches start (s.exit thread) (past ++ [.exit thread]) :=
  h.concat rfl (fun _ _ => rfl) (fun _ => rfl)

-- ---------------------------------------------------------------------------
-- All calls of a thread
-- ---------------------------------------------------------------------------

/-- The events may come after those of the past, and leave the cells as they are. -/
structure Follows (start : Cells) (past events : List Event) (s : Cells) : Prop where
  lawful : Lawful start past events
  matching : Matches start s (past ++ events)

theorem follows_nil (h : Matches start s past) : Follows start past [] s where
  lawful := lawful_nil
  matching := by rwa [List.append_nil]

theorem Follows.cons (hAllowed : e.Allowed start past)
    (h : Follows start (past ++ [e]) events s) : Follows start past (e :: events) s where
  lawful := lawful_cons.mpr ⟨hAllowed, h.lawful⟩
  matching := by
    have hMatches := h.matching
    rwa [List.append_assoc] at hMatches

theorem Follows.append (h : Follows start past events s)
    (hLater : Follows start (past ++ events) later s') :
    Follows start past (events ++ later) s' where
  lawful := lawful_append.mpr ⟨h.lawful, hLater.lawful⟩
  matching := by
    have hMatches := hLater.matching
    rwa [List.append_assoc] at hMatches

/-- What the cell of an access is like may be read off the cells. -/
theorem Matches.allowed (h : Matches start s past) {access : Access}
    (hAllowed : access.Allowed (s.cell thread inst) (s.initial inst (s.made inst))) :
    Event.Allowed start past (.at thread inst access) := by
  rwa [h.cell_eq, h.initial_eq, h.made_eq] at hAllowed

/-- The events of a script, told from its answers, may come after those of the past. -/
theorem Matches.run (h : Matches start s past) (thread : Nat) (script : Script) :
    ∃ events, Records thread script (script.run thread s).1 events ∧
      Follows start past events (script.run thread s).2 := by
  induction script generalizing s past with
  | done => exact ⟨[], .done, follows_nil h⟩
  | isPresentThen inst rest ih =>
    have hAfter := h.still thread inst (.isPresent (s.cell thread inst).isPresent) rfl fun i => rfl
    obtain ⟨events, hRecords, hFollows⟩ := ih _ hAfter
    exact ⟨_, .isPresent hRecords, hFollows.cons (h.allowed rfl)⟩
  | isLentThen inst rest ih =>
    have hAfter := h.still thread inst (.isLent (s.cell thread inst).isLent) rfl fun i => rfl
    obtain ⟨events, hRecords, hFollows⟩ := ih _ hAfter
    exact ⟨_, .isLent hRecords, hFollows.cons (h.allowed rfl)⟩
  | removeThen inst rest ih =>
    obtain ⟨events, hRecords, hFollows⟩ := ih _ (h.remove thread inst)
    exact ⟨_, .remove hRecords, hFollows.cons (h.allowed (remove_fst s thread inst))⟩
  | useThen inst creating prepare work leave rest ihPrepare ihWork ihRest =>
    obtain ⟨answer, s', hCalls⟩ := exists_calls thread inst creating prepare work leave s
    rw [hCalls.run_useThen rest]
    cases hCalls with
    | refused hCell =>
      have hAfter := h.still thread inst (.refused creating) rfl fun i => rfl
      obtain ⟨events, hRecords, hFollows⟩ := ihRest .refused hAfter
      exact ⟨_, .refused hRecords, hFollows.cons (h.allowed hCell)⟩
    | @found before inner s₁ hCell hBody =>
      have hBegun := h.set thread inst (.found before) .lent rfl fun i => rfl
      obtain ⟨within, hWithin, hWorked⟩ := ihWork none before hBegun
      rw [hBody] at hWithin hWorked
      -- the calls at work gave back what they took, but not what this one was lent
      have hLent : s₁.cell thread inst = .lent := lent_of_run hBody (Cells.cell_set_self ..)
      have hEnded := hWorked.matching.set thread inst (.left (leave none before inner))
        (.present (leave none before inner)) rfl fun i => rfl
      obtain ⟨events, hRecords, hFollows⟩ := ihRest _ hEnded
      refine ⟨_, .found hWithin rfl hRecords, .cons (h.allowed hCell) (hWorked.append ?_)⟩
      exact hFollows.cons (hWorked.matching.allowed hLent)
    | @created before prepared inner s₁ s₂ hCell hCreating hBefore hPrepare hBody =>
      subst hCreating
      have hBegun := h.make thread inst before
      obtain ⟨ahead, hAhead, hPrepared⟩ := ihPrepare hBegun
      rw [hPrepare] at hAhead hPrepared
      obtain ⟨within, hWithin, hWorked⟩ := ihWork (some prepared) before hPrepared.matching
      rw [hBody] at hWithin hWorked
      -- the cell was lent to the initializer first, and then to the work
      have hLent : s₂.cell thread inst = .lent :=
        lent_of_run hBody (lent_of_run hPrepare (Cells.cell_set_self ..))
      have hEnded := hWorked.matching.set thread inst (.left (leave (some prepared) before inner))
        (.present (leave (some prepared) before inner)) rfl fun i => rfl
      obtain ⟨events, hRecords, hFollows⟩ := ihRest _ hEnded
      refine ⟨_, .created hAhead hWithin rfl hRecords, .cons (h.allowed ⟨hCell, hBefore⟩)
        (hPrepared.append (hWorked.append ?_))⟩
      exact hFollows.cons (hWorked.matching.allowed hLent)

-- ---------------------------------------------------------------------------
-- All turns
-- ---------------------------------------------------------------------------

theorem Matches.turns (h : Matches start s past) (turns : List Turn) :
    ∃ events, TurnsRecord turns (s.run turns).1 events ∧
      Follows start past events (s.run turns).2 := by
  induction turns generalizing s past with
  | nil => exact ⟨[], .nil, follows_nil h⟩
  | cons t rest ih =>
    cases t with
    | calls thread script =>
      obtain ⟨events, hRecords, hFollows⟩ := h.run thread script
      obtain ⟨later, hTurns, hLater⟩ := ih hFollows.matching
      exact ⟨_, .calls hRecords hTurns, hFollows.append hLater⟩
    | exit thread =>
      obtain ⟨later, hTurns, hLater⟩ := ih (h.exit thread)
      exact ⟨_, .exit hTurns, hLater.cons trivial⟩

-- ---------------------------------------------------------------------------
-- One thread and the others
-- ---------------------------------------------------------------------------

/-- The events of a thread are at its own cells. -/
theorem Records.at_thread {answers : List Answer} (h : Records thread script answers events) :
    ∀ e ∈ events, ∃ i access, e = .at thread i access := by
  induction h with
  | done => exact nofun
  | isPresent hRest ih | isLent hRest ih | remove hRest ih | refused hRest ih =>
    exact List.forall_mem_cons.mpr ⟨⟨_, _, rfl⟩, ih⟩
  | found hBody hAfter hRest ihBody ihRest =>
    simp only [List.forall_mem_cons, List.forall_mem_append]
    exact ⟨⟨_, _, rfl⟩, ihBody, ⟨_, _, rfl⟩, ihRest⟩
  | created hPrepare hBody hAfter hRest ihPrepare ihBody ihRest =>
    simp only [List.forall_mem_cons, List.forall_mem_append]
    exact ⟨⟨_, _, rfl⟩, ihPrepare, ihBody, ⟨_, _, rfl⟩, ihRest⟩

/-- What one thread does changes no cell of another. -/
theorem status_elsewhere (h : ∀ e ∈ events, ∃ i access, e = .at thread i access) {other : Nat}
    (hOther : other ≠ thread) (start : Cells) (inst : Nat) :
    status start events other inst = start.cell other inst := by
  suffices hKept : ∀ c, events.foldl (Event.leaves other inst) c = c from hKept _
  induction events with
  | nil => exact fun c => rfl
  | cons e events ih =>
    obtain ⟨⟨i, access, rfl⟩, hRest⟩ := List.forall_mem_cons.mp h
    intro c
    rw [List.foldl_cons, ih hRest, Event.leaves, if_neg fun hHere => hOther hHere.1]

theorem cell_run_elsewhere (thread : Nat) (script : Script) (s : Cells) {other : Nat}
    (hOther : other ≠ thread) (inst : Nat) :
    (script.run thread s).2.cell other inst = s.cell other inst := by
  obtain ⟨events, hRecords, hFollows⟩ := (matches_start s).run thread script
  rw [hFollows.matching.cell_eq]
  exact status_elsewhere hRecords.at_thread hOther s inst

/-- The cells of the thread are the same, and so is all that the instances will make. Those of other
threads may be as they like. -/
structure SameRow (thread : Nat) (s s' : Cells) : Prop where
  cell_eq : ∀ inst, s'.cell thread inst = s.cell thread inst
  initial_eq : s'.initial = s.initial
  made_eq : s'.made = s.made

theorem SameRow.set (h : SameRow thread s s') (inst : Nat) (c : Cell) :
    SameRow thread (s.set thread inst c) (s'.set thread inst c) where
  cell_eq i := by rw [cell_set, cell_set, h.cell_eq]
  initial_eq := h.initial_eq
  made_eq := h.made_eq

theorem SameRow.make (h : SameRow thread s s') (inst : Nat) :
    SameRow thread (s.make inst).2 (s'.make inst).2 where
  cell_eq := h.cell_eq
  initial_eq := h.initial_eq
  made_eq := by
    funext i
    change (if i = inst then s'.made i + 1 else s'.made i) = _
    rw [h.made_eq]
    rfl

theorem SameRow.remove (h : SameRow thread s s') (inst : Nat) :
    (s'.remove thread inst).1 = (s.remove thread inst).1 ∧
      SameRow thread (s.remove thread inst).2 (s'.remove thread inst).2 := by
  rw [Cells.remove, Cells.remove, h.cell_eq]
  cases s.cell thread inst with
  | vacant => exact ⟨rfl, h⟩
  | present value => exact ⟨rfl, h.set inst .vacant⟩
  | lent => exact ⟨rfl, h⟩

/-- Two runs that answer the same, and after which the cells of the thread are the same again. -/
def SameRun (thread : Nat) (script : Script) (s s' : Cells) : Prop :=
  (script.run thread s').1 = (script.run thread s).1 ∧
    SameRow thread (script.run thread s).2 (script.run thread s').2

/-- What the thread finds in its own cells decides on what it is answered. -/
theorem Calls.sameRow {creating : Bool} {prepare : Script}
    {work : Option (List Answer) → Int → Script}
    {leave : Option (List Answer) → Int → List Answer → Int} {answer : Answer} {s₁ : Cells}
    (hPrepare : ∀ s s', SameRow thread s s' → SameRun thread prepare s s')
    (hWork : ∀ prepared before s s', SameRow thread s s' →
      SameRun thread (work prepared before) s s')
    (hCalls : Calls thread inst creating prepare work leave s answer s₁)
    (h : SameRow thread s s') :
    ∃ s₂, Calls thread inst creating prepare work leave s' answer s₂ ∧ SameRow thread s₁ s₂ := by
  cases hCalls with
  | refused hCell =>
    rw [← h.cell_eq] at hCell
    exact ⟨s', .refused hCell, h⟩
  | @found before inner s₁ hCell hBody =>
    rw [← h.cell_eq] at hCell
    rcases hBody' : (work none before).run thread (s'.set thread inst .lent) with ⟨inner', s₂⟩
    obtain ⟨hAnswers, hRow⟩ := hWork none before _ _ (h.set inst .lent)
    rw [hBody, hBody'] at hAnswers hRow
    subst hAnswers
    exact ⟨_, .found hCell hBody', hRow.set inst _⟩
  | @created before prepared inner s₁ s₂ hCell hCreating hBefore hPrepared hBody =>
    rw [← h.cell_eq] at hCell
    rw [← h.initial_eq, ← h.made_eq] at hBefore
    -- the initializer first: it has the same calls to make, and leaves the row the same
    rcases hPrepared' : prepare.run thread ((s'.set thread inst .lent).make inst).2
      with ⟨prepared', s₁'⟩
    obtain ⟨hAhead, hReady⟩ := hPrepare _ _ ((h.set inst .lent).make inst)
    rw [hPrepared, hPrepared'] at hAhead hReady
    subst hAhead
    rcases hBody' : (work (some prepared') before).run thread s₁' with ⟨inner', s₂'⟩
    obtain ⟨hAnswers, hRow⟩ := hWork (some prepared') before _ _ hReady
    rw [hBody, hBody'] at hAnswers hRow
    subst hAnswers
    exact ⟨_, .created hCell hCreating hBefore hPrepared' hBody', hRow.set inst _⟩

/-- The calls of a thread go by its own cells, and by no others. -/
theorem SameRow.run (h : SameRow thread s s') (script : Script) : SameRun thread script s s' := by
  induction script generalizing s s' with
  | done => exact ⟨rfl, h⟩
  | isPresentThen inst rest ih =>
    obtain ⟨hAnswers, hRow⟩ := ih (s.cell thread inst).isPresent h
    simp only [SameRun, Script.run, h.cell_eq, hAnswers]
    exact ⟨trivial, hRow⟩
  | isLentThen inst rest ih =>
    obtain ⟨hAnswers, hRow⟩ := ih (s.cell thread inst).isLent h
    simp only [SameRun, Script.run, h.cell_eq, hAnswers]
    exact ⟨trivial, hRow⟩
  | removeThen inst rest ih =>
    obtain ⟨hTaken, hAfter⟩ := h.remove inst
    obtain ⟨hAnswers, hRow⟩ := ih (s.remove thread inst).1 hAfter
    simp only [SameRun, Script.run, hTaken, hAnswers]
    exact ⟨trivial, hRow⟩
  | useThen inst creating prepare work leave rest ihPrepare ihWork ihRest =>
    obtain ⟨answer, s₁, hCalls⟩ := exists_calls thread inst creating prepare work leave s
    obtain ⟨s₂, hCalls', hAfter⟩ := hCalls.sameRow (fun _ _ hRow => ihPrepare hRow)
      (fun prepared before _ _ hRow => ihWork prepared before hRow) h
    obtain ⟨hAnswers, hRow⟩ := ihRest answer hAfter
    simp only [SameRun, hCalls.run_useThen rest, hCalls'.run_useThen rest, hAnswers]
    exact ⟨trivial, hRow⟩

-- ---------------------------------------------------------------------------
-- All threads
-- ---------------------------------------------------------------------------

namespace Cells

/-- Turns lend nothing. -/
theorem lent_of_turn {t : Turn} (h : (s.turn t).2.cell thread inst = .lent) :
    s.cell thread inst = .lent := by
  cases t with
  | calls thread' script => exact (lent_iff_run thread' script s thread inst).mp h
  | exit thread' =>
    change (if thread = thread' then Cell.vacant else s.cell thread inst) = .lent at h
    split at h
    · exact absurd h nofun
    · exact h

theorem lent_of_turns (turns : List Turn) (h : (s.run turns).2.cell thread inst = .lent) :
    s.cell thread inst = .lent := by
  induction turns generalizing s with
  | nil => exact h
  | cons t rest ih => exact lent_of_turn (ih h)

/-- The events account for all that the turns answered, and for the cells after them. -/
structure Accounts (start : Cells) (turns : List Turn) (answers : List (List Answer)) (s : Cells)
    (events : List Event) : Prop where
  recorded : TurnsRecord turns answers events
  lawful : Lawful start [] events
  cell_eq : ∀ thread inst, s.cell thread inst = status start events thread inst
  made_eq : ∀ inst, s.made inst = creations start events inst
  /-- What is lent between the turns was lent before the first. -/
  lent : ∀ thread inst, s.cell thread inst = .lent → start.cell thread inst = .lent

/-- What the calls of one thread have to do with the cells of others: nothing. -/
structure Apart (thread : Nat) (script : Script) (s : Cells) : Prop where
  /-- Nobody else's cell changes. -/
  elsewhere : ∀ other inst, other ≠ thread →
    (script.run thread s).2.cell other inst = s.cell other inst
  /-- Whatever the cells of others are like, the answers are the same, and the own cells after. -/
  sameRun : ∀ s', SameRow thread s s' → SameRun thread script s s'
  /-- Nothing stays lent, and what was lent before is not touched. -/
  lent_iff : ∀ t i, (script.run thread s).2.cell t i = .lent ↔ s.cell t i = .lent

/-- From any cells, whoever is at work on a value: whatever the threads call, and however deep,
every access finds its cell as the last access to that very cell left it, and is allowed there. A
call does what its own cell has it do, leaves its value there if it ran, also when it was made from
within others, and is refused where the cell is lent. The calls of one thread are nothing to the
cells of another. -/
theorem run_lendable (s : Cells) (turns : List Turn) :
    (∃ events, Accounts s turns (s.run turns).1 (s.run turns).2 events) ∧
      (∀ (thread inst : Nat) (creating : Bool) (prepare : Script)
        (work : Option (List Answer) → Int → Script)
        (leave : Option (List Answer) → Int → List Answer → Int) (rest : Answer → Script),
        ∃ answer s', Calls thread inst creating prepare work leave s answer s' ∧
          (Script.useThen inst creating prepare work leave rest).run thread s =
            (answer :: ((rest answer).run thread s').1, ((rest answer).run thread s').2) ∧
          (s.cell thread inst = .lent → answer = .refused ∧ s' = s) ∧
          ∀ prepared before after inner, answer = .ran prepared before after inner →
            s'.cell thread inst = .present after) ∧
      ∀ (thread : Nat) (script : Script), Apart thread script s := by
  refine ⟨?_, ?_, fun thread script => ?_⟩
  · obtain ⟨events, hRecorded, hFollows⟩ := (matches_start s).turns turns
    exact ⟨events, hRecorded, hFollows.lawful, hFollows.matching.cell_eq,
      hFollows.matching.made_eq, fun thread inst => lent_of_turns turns⟩
  · intro thread inst creating prepare work leave rest
    obtain ⟨answer, s', hCalls⟩ := exists_calls thread inst creating prepare work leave s
    refine ⟨answer, s', hCalls, hCalls.run_useThen rest, fun hLent => ?_, ?_⟩
    · cases hCalls with
      | refused hCell => exact ⟨rfl, rfl⟩
      | found hCell hBody => exact absurd (hLent.symm.trans hCell) nofun
      | created hCell hCreating hBefore hPrepared hBody =>
        exact absurd (hLent.symm.trans hCell) nofun
    · rintro prepared before after inner rfl
      exact hCalls.cell_of_ran
  · exact ⟨fun other inst hOther => cell_run_elsewhere thread script s hOther inst,
      fun s' hRow => hRow.run script, lent_iff_run thread script s⟩

/-- An initializer works on another cell, is refused its own, and the work that follows finds what
it made. -/
example :
    let prepare : Script := .use 0 true .done none .done (.use 1 true .done (some 7) .done .done)
    let body : Script := .use 1 false .done (some 8) (.isLent 0 (.remove 1 .done)) (.remove 0 .done)
    ((empty fun inst n => 1000 * (inst + 1) + n).run
        [.calls 0 (.use 0 true prepare (some 5) body .done), .calls 1 (.isPresent 1 .done),
          .calls 0 (.use 0 false .done none .done (.remove 1 .done))]).1 =
      [[.ran (some [.refused, .ran (some []) 2000 7 []]) 1000 5
          [.ran none 7 8 [.flag true, .removed none], .removed none]],
        [.flag false], [.ran none 5 5 [], .removed (some 8)]] :=
  rfl

end Cells

end BlockPool.Thread
