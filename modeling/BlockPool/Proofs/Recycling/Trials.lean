import BlockPool.Proofs.Recycling.Filter
import BlockPool.Proofs.Word

/-!
# BlockPool — what the filter of a stack lets through

A filter goes by one count and by one note at each token. The items that were never let through
before are counted, however they come, from zero. Those whose place is a multiple of the ratio are
kept. The count lives in a word, which makes no difference, since a ratio is a power of two and so
divides what a word can count.

* `Stack.sift` — the answers of the filter to items in turn.
* `Stack.receiveAll_eq` — what is received where there is room.
* `History.firsts` — the trials of items that were never let through before.
* `Recorded` — a filter and its history, kept by all that comes to a stack.
-/

namespace BlockPool.Recycling

-- ---------------------------------------------------------------------------
-- Notes at tokens
-- ---------------------------------------------------------------------------

namespace Tokens

variable {tokens : Tokens} {token other : Token}

/-- Whether a token was issued; an inert one needs no issuer. -/
def knows (tokens : Tokens) (token : Token) : Bool :=
  token == .inert || (tokens.state? token).isSome

theorem knows_modifyState (f : TokenState → TokenState) :
    (tokens.modifyState other f).knows token = tokens.knows token := by
  rw [knows, knows, state?_modifyState]
  split <;> simp

/-- A new token carries no note, and the others keep theirs. -/
theorem keptBefore_issue (tokens : Tokens) (recycler home : Nat) (token : Token) :
    (tokens.issue recycler home).2.keptBefore token = tokens.keptBefore token := by
  cases hState : tokens.state? token with
  | some state => rw [keptBefore, keptBefore, state?_issue_of_some hState, hState]
  | none =>
    cases token with
    | inert => rfl
    | live id =>
      have hOld : tokens.size ≤ id := Array.getElem?_eq_none_iff.mp hState
      show (((tokens.push _)[id]?).map (·.keptBefore)).getD false =
        ((tokens[id]?).map (·.keptBefore)).getD false
      rw [Array.getElem?_push, show tokens[id]? = none from hState]
      split <;> rfl

theorem keptBefore_modifyState (f : TokenState → TokenState)
    (h : ∀ state, (f state).keptBefore = state.keptBefore) (token other : Token) :
    (tokens.modifyState other f).keptBefore token = tokens.keptBefore token := by
  rw [keptBefore, keptBefore, state?_modifyState]
  split
  · cases tokens.state? token with
    | none => rfl
    | some state => exact h state
  · rfl

/-- A note is made at one token, if that was issued. -/
theorem keptBefore_markKept (h : tokens.knows other = true) (token : Token) :
    (tokens.markKept other).keptBefore token =
      (tokens.keptBefore token || (token != .inert && other == token)) := by
  rw [keptBefore, keptBefore, markKept, state?_modifyState]
  by_cases hSame : token = other
  · subst hSame
    rw [if_pos rfl]
    cases token with
    | inert => rfl
    | live id =>
      obtain ⟨state, hState⟩ := Option.isSome_iff_exists.mp
        (show (tokens.state? (.live id)).isSome = true by simpa [knows] using h)
      rw [hState]
      simp
  · rw [if_neg hSame]
    simp [Ne.symm hSame]

end Tokens

-- ---------------------------------------------------------------------------
-- Trials
-- ---------------------------------------------------------------------------

/-- An item that a filter was asked about, and whether it let it through. -/
structure Trial where
  item : Pooled
  kept : Bool
deriving Repr, Inhabited

/-- What may set a note at a token. -/
inductive Event where
  /-- The filter of the stack was asked about an item. -/
  | tried (trial : Trial)
  /-- Another stack let the item with this token through. -/
  | noted (token : Token)
deriving Repr, Inhabited

/-- Whether the item with the token was let through. -/
def Event.keeps (token : Token) : Event → Bool
  | tried trial => trial.kept && trial.item.token == token
  | noted other => other == token

/-- What happened, the last first. -/
abbrev History := List Event

namespace History

/-- Whether the item with the token was ever let through. An inert token takes no notes. -/
def keeps (history : History) (token : Token) : Bool :=
  token != .inert && history.any (·.keeps token)

/-- The trials of items that were never let through before, the first one first. -/
def firsts : History → List Trial
  | [] => []
  | .tried trial :: earlier =>
    if keeps earlier trial.item.token then firsts earlier else firsts earlier ++ [trial]
  | .noted _ :: earlier => firsts earlier

/-- The history after some more trials. -/
def record (history : History) (trials : List Trial) : History :=
  (trials.map .tried).reverse ++ history

theorem record_cons (history : History) (trial : Trial) (trials : List Trial) :
    record history (trial :: trials) = record (.tried trial :: history) trials := by
  simp [record]

theorem keeps_cons (event : Event) (history : History) (token : Token) :
    keeps (event :: history) token =
      (keeps history token || (token != .inert && event.keeps token)) := by
  rw [keeps, keeps, List.any_cons, ← Bool.and_or_distrib_left, Bool.or_comm]

end History

-- ---------------------------------------------------------------------------
-- The filter, asked about items in turn
-- ---------------------------------------------------------------------------

/-- The items of some trials that were let through, the last one first. -/
def letThrough (trials : List Trial) : List Pooled :=
  ((trials.filter (·.kept)).map (·.item)).reverse

/-- The items of some trials that were turned away. -/
def turnedAway (trials : List Trial) : List Pooled :=
  (trials.filter (!·.kept)).map (·.item)

theorem letThrough_cons (trial : Trial) (trials : List Trial) :
    letThrough (trial :: trials) =
      letThrough trials ++ (if trial.kept then [trial.item] else []) := by
  rw [letThrough, List.filter_cons]
  split <;> simp [letThrough]

namespace Stack

variable {s s' : Stack} {tokens : Tokens} {p : Pooled} {ps : List Pooled} {history : History}

/-- The answers of the filter to items in turn, in whatever room. -/
def sift (s : Stack) (tokens : Tokens) : List Pooled → List Trial
  | [] => []
  | p :: rest =>
    let (kept, s, tokens) := s.filter tokens p
    ⟨p, kept⟩ :: s.sift tokens rest

theorem item_sift (s : Stack) (tokens : Tokens) (ps : List Pooled) :
    (s.sift tokens ps).map (·.item) = ps := by
  induction ps generalizing s tokens with
  | nil => rfl
  | cons p rest ih => exact congrArg (p :: ·) (ih ..)

/-- The filter looks at its count and its ratio only. -/
theorem filter_congr (hOffers : s'.offers = s.offers) (hRatio : s'.ratio = s.ratio)
    (tokens : Tokens) (p : Pooled) :
    (s'.filter tokens p).1 = (s.filter tokens p).1 ∧
      (s'.filter tokens p).2.1.offers = (s.filter tokens p).2.1.offers ∧
      (s'.filter tokens p).2.2 = (s.filter tokens p).2.2 := by
  unfold filter
  split
  · exact ⟨rfl, hOffers, rfl⟩
  · dsimp only
    rw [hOffers, hRatio]
    split <;> exact ⟨rfl, rfl, rfl⟩

theorem knows_filter (s : Stack) (tokens : Tokens) (p : Pooled) (token : Token) :
    (s.filter tokens p).2.2.knows token = tokens.knows token := by
  unfold filter
  split
  · rfl
  · dsimp only
    split
    · exact Tokens.knows_modifyState _
    · rfl

theorem ratio_filter (s : Stack) (tokens : Tokens) (p : Pooled) :
    (s.filter tokens p).2.1.ratio = s.ratio := by
  rw [(s.filter_frame tokens p).1]

theorem sift_congr (hOffers : s'.offers = s.offers) (hRatio : s'.ratio = s.ratio)
    (tokens : Tokens) (ps : List Pooled) : s'.sift tokens ps = s.sift tokens ps := by
  induction ps generalizing s s' tokens with
  | nil => rfl
  | cons p rest ih =>
    obtain ⟨hAnswer, hCount, hTokens⟩ := filter_congr hOffers hRatio tokens p
    have hRatio' : (s'.filter tokens p).2.1.ratio = (s.filter tokens p).2.1.ratio := by
      rw [ratio_filter, ratio_filter, hRatio]
    simp only [sift]
    rw [hAnswer, hTokens, ih hCount hRatio']

/-- Where there is room, an item is received if the filter lets it through. -/
theorem receive_eq (hRoom : s.size < s.capacity) (tokens : Tokens) (p : Pooled) :
    s.receive tokens p = ((s.filter tokens p).1,
      { (s.filter tokens p).2.1 with
        entries := if (s.filter tokens p).1 then p :: s.entries else s.entries },
      (s.filter tokens p).2.2) := by
  obtain ⟨hSame, -⟩ := s.filter_frame tokens p
  rw [receive, if_neg (Nat.not_le.mpr hRoom)]
  split
  · rename_i s' tokens' hFilter
    rw [hFilter] at hSame ⊢
    dsimp only at hSame ⊢
    rw [hSame]
    rfl
  · rename_i s' tokens' hFilter
    rw [hFilter] at hSame ⊢
    dsimp only at hSame ⊢
    rw [hSame]
    rfl

/-- A place on the stack is taken by one item at most. -/
theorem size_receive_le (s : Stack) (tokens : Tokens) (p : Pooled) :
    (s.receive tokens p).2.1.size ≤ s.size + 1 ∧
      (s.receive tokens p).2.1.capacity = s.capacity ∧
      (s.receive tokens p).2.1.ratio = s.ratio := by
  obtain ⟨hSame, -⟩ := s.receive_frame tokens p
  rw [hSame]
  refine ⟨?_, rfl, rfl⟩
  show (if _ then p :: s.entries else s.entries).length ≤ s.entries.length + 1
  split <;> simp

/-- The filter goes on in the same way, whether an item was put on the stack or not. -/
theorem sift_receive (hRoom : s.size < s.capacity) (tokens : Tokens) (p : Pooled)
    (ps : List Pooled) : (s.receive tokens p).2.1.sift (s.receive tokens p).2.2 ps =
      (s.filter tokens p).2.1.sift (s.filter tokens p).2.2 ps := by
  rw [receive_eq hRoom]
  exact sift_congr (by rfl) (by rfl) _ _

/-- Where there is room for all, those are received that the filter lets through. -/
theorem receiveAll_eq (hRoom : s.size + ps.length ≤ s.capacity) (tokens : Tokens) :
    (s.receiveAll tokens ps).1 = turnedAway (s.sift tokens ps) ∧
      (s.receiveAll tokens ps).2.1.entries = letThrough (s.sift tokens ps) ++ s.entries := by
  induction ps generalizing s tokens with
  | nil => exact ⟨rfl, rfl⟩
  | cons p rest ih =>
    rw [List.length_cons] at hRoom
    have hFree : s.size < s.capacity := by omega
    obtain ⟨hSize, hCapacity, -⟩ := s.size_receive_le tokens p
    obtain ⟨hRefused, hEntries⟩ := ih (s := (s.receive tokens p).2.1)
      (by omega) (s.receive tokens p).2.2
    rw [sift_receive hFree] at hRefused hEntries
    simp only [receiveAll, sift]
    rw [hRefused, hEntries, receive_eq hFree, letThrough_cons]
    dsimp only
    cases (s.filter tokens p).1 with
    | true => exact ⟨rfl, by simp⟩
    | false => exact ⟨rfl, by simp⟩

/-- An item of the stack's own thread is tried if there is room, and kept if it is let through. -/
theorem push_eq (s : Stack) (tokens : Tokens) (p : Pooled) :
    (s.push tokens p).2.1.entries =
        letThrough (s.sift tokens (if s.size < s.maxCapacity then [p] else [])) ++ s.entries ∧
      ((s.push tokens p).2.1.offers = if s.size < s.maxCapacity
        then (s.filter tokens p).2.1.offers else s.offers) ∧
      (s.push tokens p).2.2 = if s.size < s.maxCapacity
        then (s.filter tokens p).2.2 else tokens := by
  obtain ⟨hSame, -⟩ := s.filter_frame tokens p
  have hEntries := congrArg entries hSame
  unfold push
  split
  · rename_i hFull
    rw [if_neg (Nat.not_lt.mpr hFull), if_neg (Nat.not_lt.mpr hFull),
      if_neg (Nat.not_lt.mpr hFull)]
    exact ⟨rfl, rfl, rfl⟩
  · rename_i hRoom
    rw [if_pos (Nat.lt_of_not_le hRoom), if_pos (Nat.lt_of_not_le hRoom),
      if_pos (Nat.lt_of_not_le hRoom)]
    simp only [sift]
    split
    · rename_i s' tokens' hFilter
      rw [hFilter] at hEntries ⊢
      exact ⟨hEntries, rfl, rfl⟩
    · rename_i s' tokens' hFilter
      rw [hFilter] at hEntries ⊢
      exact ⟨congrArg (p :: ·) hEntries, rfl, rfl⟩

end Stack

-- ---------------------------------------------------------------------------
-- What a transfer reads
-- ---------------------------------------------------------------------------

namespace Queue

variable {q : Queue} {s : Stack} {p : Pooled}

/-- The items that a transfer to the stack reads. -/
def due (q : Queue) (s : Stack) : List Pooled :=
  q.advance.1.front.waiting.take (q.advance.1.batch s)

theorem mem_due (h : p ∈ q.due s) : p ∈ q.waiting :=
  q.waiting_advance_sublist.subset (List.mem_append_left _ (List.mem_of_mem_take h))

theorem makeRoom_due (q : Queue) (s : Stack) :
    (q.advance.1.makeRoom s).offers = s.offers ∧ (q.advance.1.makeRoom s).ratio = s.ratio ∧
      (q.advance.1.makeRoom s).entries = s.entries := by
  rw [makeRoom_frame]
  exact ⟨rfl, rfl, rfl⟩

/-- Once room was made, there is room for all that is read. -/
theorem room_due (hs : s.Sound) (q : Queue) :
    (q.advance.1.makeRoom s).size + (q.due s).length ≤ (q.advance.1.makeRoom s).capacity := by
  rw [due, length_batch]
  exact batch_le hs q.advance.1

/-- What is read from a queue is kept if the filter lets it through, for there is room. -/
theorem transfer_sift (hs : s.Sound) (q : Queue) (tokens : Tokens) :
    (q.transfer s tokens).stack.entries =
        letThrough (s.sift tokens (q.due s)) ++ s.entries ∧
      (q.transfer s tokens).refused = turnedAway (s.sift tokens (q.due s)) := by
  obtain ⟨hOffers, hRatio, hEntries⟩ := q.makeRoom_due s
  obtain ⟨hRefused, hKept⟩ := Stack.receiveAll_eq (q.room_due hs) tokens
  rw [Stack.sift_congr hOffers hRatio] at hRefused hKept
  rw [hEntries] at hKept
  exact ⟨hKept, hRefused⟩

end Queue

-- ---------------------------------------------------------------------------
-- What a history says of the filter
-- ---------------------------------------------------------------------------

/-- The count of a word tells multiples of a power of two. -/
theorem toNat_mod_eq_zero_iff {ratio : Nat} (hRatio : Word.isPowerOfTwo ratio = true)
    (hWord : ratio < Word.limit) (n : Nat) :
    (UInt64.ofNat n).toNat % ratio = 0 ↔ ratio ∣ n := by
  obtain ⟨k, rfl⟩ := Word.isPowerOfTwo_iff.mp hRatio
  have hLimit : Word.limit = 2 ^ 64 := by decide
  rw [hLimit] at hWord
  have hDvd : 2 ^ k ∣ 2 ^ 64 :=
    Nat.pow_dvd_pow 2 (Nat.le_of_lt ((Nat.pow_lt_pow_iff_right (by decide)).mp hWord))
  rw [UInt64.toNat_ofNat', Nat.mod_mod_of_dvd n hDvd, Nat.dvd_iff_mod_eq_zero]

/-- What a stack and the notes at tokens have to do with all that happened. -/
structure Recorded (s : Stack) (tokens : Tokens) (history : History) : Prop where
  notes : ∀ token, tokens.keptBefore token = history.keeps token
  /-- One more than the count is the number of items that were new, up to what a word holds. -/
  count : s.offers + 1 = UInt64.ofNat history.firsts.length
  /-- Of the items that were new, those are kept whose place is a multiple of the ratio. -/
  counted : ∀ {n trial}, history.firsts[n]? = some trial → (trial.kept = true ↔ s.ratio ∣ n)
  /-- An item that was let through once is let through again. -/
  again : ∀ {trial earlier}, .tried trial :: earlier <:+ history →
    History.keeps earlier trial.item.token = true → trial.kept = true

section Recorded

variable {s s' : Stack} {tokens tokens' : Tokens} {p : Pooled} {ps : List Pooled}
  {history : History} {token : Token}

/-- Nothing else about a stack matters. -/
theorem Recorded.congr (h : Recorded s tokens history) (hOffers : s'.offers = s.offers)
    (hRatio : s'.ratio = s.ratio) : Recorded s' tokens history where
  notes := h.notes
  count := hOffers ▸ h.count
  counted hAt := hRatio ▸ h.counted hAt
  again := h.again

/-- Tokens that carry the same notes do as well. -/
theorem Recorded.of_tokens (h : Recorded s tokens history)
    (hNotes : ∀ token, tokens'.keptBefore token = tokens.keptBefore token) :
    Recorded s tokens' history where
  notes token := (hNotes token).trans (h.notes token)
  count := h.count
  counted := h.counted
  again := h.again

theorem Recorded.modifyState (h : Recorded s tokens history) {f : TokenState → TokenState}
    (token : Token) (hSame : ∀ state, (f state).keptBefore = state.keptBefore) :
    Recorded s (tokens.modifyState token f) history :=
  h.of_tokens fun other => Tokens.keptBefore_modifyState f hSame other token

theorem Recorded.noted (h : Recorded s tokens history) (hKnown : tokens.knows token = true) :
    Recorded s (tokens.markKept token) (.noted token :: history) where
  notes other := by
    rw [Tokens.keptBefore_markKept hKnown, History.keeps_cons, h.notes]
    rfl
  count := h.count
  counted := h.counted
  again hSuffix hKept := by
    rcases List.suffix_cons_iff.mp hSuffix with hSame | hOld
    · exact absurd (List.cons.inj hSame).1 (by simp)
    · exact h.again hOld hKept

/-- An item that was let through before is let through again, and nothing is counted. -/
theorem Recorded.filter_again (h : Recorded s tokens history)
    (hKept : tokens.keptBefore p.token = true) :
    s.filter tokens p = (true, s, tokens) ∧
      Recorded s tokens (.tried ⟨p, true⟩ :: history) := by
  have hBefore : history.keeps p.token = true := (h.notes p.token).symm.trans hKept
  have hFirsts : History.firsts (.tried ⟨p, true⟩ :: history) = history.firsts := if_pos hBefore
  refine ⟨if_pos hKept, fun token => ?_, ?_, ?_, ?_⟩
  · rw [h.notes, History.keeps_cons]
    by_cases hSame : p.token = token
    · rw [← hSame, hBefore, Bool.true_or]
    · simp [Event.keeps, hSame]
  · rw [hFirsts]
    exact h.count
  · intro n trial hAt
    rw [hFirsts] at hAt
    exact h.counted hAt
  · intro trial earlier hSuffix hEarlier
    rcases List.suffix_cons_iff.mp hSuffix with hSame | hOld
    · obtain ⟨hTrial, -⟩ := List.cons.inj hSame
      rw [Event.tried.inj hTrial]
    · exact h.again hOld hEarlier

/-- An item that was never let through is counted, and its place decides. -/
theorem Recorded.filter_first (h : Recorded s tokens history)
    (hRatio : Word.isPowerOfTwo s.ratio = true) (hWord : s.ratio < Word.limit)
    (hKnown : tokens.knows p.token = true) (hNew : tokens.keptBefore p.token = false) :
    ((s.filter tokens p).1 = true ↔ s.ratio ∣ history.firsts.length) ∧
      Recorded (s.filter tokens p).2.1 (s.filter tokens p).2.2
        (.tried ⟨p, (s.filter tokens p).1⟩ :: history) := by
  have hBefore : history.keeps p.token = false := (h.notes p.token).symm.trans hNew
  have hFirsts : ∀ kept, History.firsts (.tried ⟨p, kept⟩ :: history) =
      history.firsts ++ [⟨p, kept⟩] := fun kept => if_neg (by rw [hBefore]; simp)
  have hPlace := toNat_mod_eq_zero_iff hRatio hWord history.firsts.length
  -- the counter stands at the number of first trials, so the place decides
  have hFilter : s.filter tokens p =
      (decide (s.ratio ∣ history.firsts.length), { s with offers := s.offers + 1 },
        if s.ratio ∣ history.firsts.length then tokens.markKept p.token else tokens) := by
    rw [← h.count] at hPlace
    unfold Stack.filter
    rw [hNew, if_neg (by simp)]
    dsimp only
    by_cases hMultiple : s.ratio ∣ history.firsts.length
    · rw [if_pos (hPlace.mpr hMultiple), if_pos hMultiple, decide_eq_true hMultiple]
    · rw [if_neg (fun hZero => hMultiple (hPlace.mp hZero)), if_neg hMultiple,
        decide_eq_false hMultiple]
  rw [hFilter]
  dsimp only
  refine ⟨decide_eq_true_iff, fun token => ?_, ?_, ?_, ?_⟩
  · rw [History.keeps_cons, ← h.notes]
    split
    · rename_i hMultiple
      rw [Tokens.keptBefore_markKept hKnown, Event.keeps, decide_eq_true hMultiple, Bool.true_and]
    · rename_i hBetween
      rw [Event.keeps, decide_eq_false hBetween, Bool.false_and, Bool.and_false, Bool.or_false]
  · show s.offers + 1 + 1 = _
    rw [h.count, hFirsts, List.length_append, UInt64.ofNat_add]
    rfl
  -- the trials before are counted as they were, and the last one by its place
  · intro n trial hAt
    rw [hFirsts] at hAt
    rcases Nat.lt_or_ge n history.firsts.length with hOld | hLast
    · rw [List.getElem?_append_left hOld] at hAt
      exact h.counted hAt
    · rw [List.getElem?_append_right hLast, List.getElem?_singleton] at hAt
      split at hAt
      · rename_i hPlaced
        obtain rfl : n = history.firsts.length := by omega
        rw [← Option.some.inj hAt]
        exact decide_eq_true_iff
      · exact absurd hAt (by simp)
  · intro trial earlier hSuffix hEarlier
    rcases List.suffix_cons_iff.mp hSuffix with hSame | hOld
    · obtain ⟨hTrial, rfl⟩ := List.cons.inj hSame
      rw [Event.tried.inj hTrial] at hEarlier
      rw [hBefore] at hEarlier
      exact absurd hEarlier (by simp)
    · exact h.again hOld hEarlier

theorem Recorded.filter (h : Recorded s tokens history)
    (hRatio : Word.isPowerOfTwo s.ratio = true) (hWord : s.ratio < Word.limit)
    (hKnown : tokens.knows p.token = true) :
    Recorded (s.filter tokens p).2.1 (s.filter tokens p).2.2
      (.tried ⟨p, (s.filter tokens p).1⟩ :: history) := by
  cases hKept : tokens.keptBefore p.token with
  | true =>
    obtain ⟨hFilter, hAfter⟩ := h.filter_again hKept
    rw [hFilter]
    exact hAfter
  | false => exact (h.filter_first hRatio hWord hKnown hKept).2

/-- A batch that has room is tried item by item, and each trial is recorded. -/
theorem Recorded.receiveAll (h : Recorded s tokens history)
    (hRatio : Word.isPowerOfTwo s.ratio = true) (hWord : s.ratio < Word.limit)
    (hRoom : s.size + ps.length ≤ s.capacity)
    (hKnown : ∀ p ∈ ps, tokens.knows p.token = true) :
    Recorded (s.receiveAll tokens ps).2.1 (s.receiveAll tokens ps).2.2
      (history.record (s.sift tokens ps)) := by
  induction ps generalizing s tokens history with
  | nil => exact h
  | cons p rest ih =>
    rw [List.length_cons] at hRoom
    have hFree : s.size < s.capacity := by omega
    obtain ⟨hSize, hCapacity, hRatio'⟩ := s.size_receive_le tokens p
    have hAfter : Recorded (s.receive tokens p).2.1 (s.receive tokens p).2.2
        (.tried ⟨p, (s.filter tokens p).1⟩ :: history) := by
      rw [Stack.receive_eq hFree]
      exact (h.filter hRatio hWord (hKnown p List.mem_cons_self)).congr rfl rfl
    have hKnown' : ∀ q ∈ rest, (s.receive tokens p).2.2.knows q.token = true := by
      intro q hq
      rw [Stack.receive_eq hFree]
      exact (Stack.knows_filter ..).trans (hKnown q (List.mem_cons_of_mem _ hq))
    have hRest := ih hAfter (hRatio'.symm ▸ hRatio) (hRatio'.symm ▸ hWord) (by omega) hKnown'
    rw [Stack.sift_receive hFree] at hRest
    simp only [Stack.receiveAll, Stack.sift]
    rw [History.record_cons]
    exact hRest

theorem Recorded.push (h : Recorded s tokens history)
    (hRatio : Word.isPowerOfTwo s.ratio = true) (hWord : s.ratio < Word.limit)
    (hKnown : tokens.knows p.token = true) :
    Recorded (s.push tokens p).2.1 (s.push tokens p).2.2
      (history.record (s.sift tokens (if s.size < s.maxCapacity then [p] else []))) := by
  obtain ⟨-, hOffers, hTokens⟩ := Stack.push_eq s tokens p
  obtain ⟨-, -, hSame, -⟩ := s.push_frame tokens p
  rw [hTokens]
  split at hOffers
  · rename_i hRoom
    rw [if_pos hRoom, if_pos hRoom]
    exact (h.filter hRatio hWord hKnown).congr hOffers (hSame.trans (s.ratio_filter ..).symm)
  · rename_i hFull
    rw [if_neg hFull, if_neg hFull]
    exact h.congr hOffers hSame

theorem Recorded.transfer (h : Recorded s tokens history) (hs : s.Sound)
    (hRatio : Word.isPowerOfTwo s.ratio = true) (hWord : s.ratio < Word.limit) (q : Queue)
    (hKnown : ∀ p ∈ q.waiting, tokens.knows p.token = true) :
    Recorded (q.transfer s tokens).stack (q.transfer s tokens).tokens
      (history.record (s.sift tokens (q.due s))) := by
  obtain ⟨hOffers, hSame, -⟩ := q.makeRoom_due s
  rw [← Stack.sift_congr hOffers hSame]
  have hAll := (h.congr hOffers hSame).receiveAll (hSame.symm ▸ hRatio) (hSame.symm ▸ hWord)
    (q.room_due hs) fun p hp => hKnown p (Queue.mem_due hp)
  exact hAll

end Recorded

end BlockPool.Recycling
