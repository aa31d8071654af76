import BlockPool.Proofs.Store.Search

/-!
# BlockPool — bitmaps against sets of indices

What a bitmap answers does not depend on its words: whatever it was asked, it stands for a set of
indices below a length, refuses what the set refuses and finds what the set has.

* `IndexSet` — a set of indices below a length, with room for so many.
* `Bitmap.Refines` — a bitmap and a set agree on every question.
* `Bitmap.run_index_set` — they do after all requests to a new bitmap.
-/

namespace BlockPool

namespace Bitmap

-- ---------------------------------------------------------------------------
-- Requests
-- ---------------------------------------------------------------------------

/-- What can be asked of a bitmap that may change it. -/
inductive Op where
  | set (index : Nat)
  | clear (index : Nat)
  | clearAll
  | setAll
  | reset (bits : Nat)
deriving DecidableEq

/-- The bitmap after a request, or why it was refused. -/
def act (b : Bitmap) : Op → Except BitmapError Bitmap
  | .set index => b.set index
  | .clear index => b.clear index
  | .clearAll => .ok b.clearAll
  | .setAll => .ok b.setAll
  | .reset bits => b.reset bits

/-- One request. A refused one leaves the bitmap as it is. -/
def step (b : Bitmap) (op : Op) : Bitmap :=
  match b.act op with
  | .ok after => after
  | .error _ => b

/-- One request after the other. -/
def run (b : Bitmap) (ops : List Op) : Bitmap := ops.foldl step b

end Bitmap

/-- A set of indices below a length. The length may change as far as there is room. -/
structure IndexSet where
  room : Nat
  bits : Nat
  members : Finset Nat

namespace IndexSet

/-- No indices. -/
def empty (room bits : Nat) : IndexSet := ⟨room, bits, ∅⟩

/-- The indices below the length that are not in the set. -/
def free (s : IndexSet) : Finset Nat := Finset.range s.bits \ s.members

/-- Those of them from `start` on. -/
def freeFrom (s : IndexSet) (start : Nat) : Finset Nat := s.free.filter (start ≤ ·)

/-- The set after a request, or why it was refused. -/
def act (s : IndexSet) : Bitmap.Op → Except BitmapError IndexSet
  | .set index =>
    if s.bits ≤ index then .error (.outOfBounds index s.bits)
    else if index ∈ s.members then .error (.alreadySet index)
    else .ok { s with members := insert index s.members }
  | .clear index =>
    if s.bits ≤ index then .error (.outOfBounds index s.bits)
    else if index ∈ s.members then .ok { s with members := s.members.erase index }
    else .error (.notSet index)
  | .clearAll => .ok { s with members := ∅ }
  | .setAll => .ok { s with members := Finset.range s.bits }
  | .reset bits =>
    if s.room < bits then .error (.insufficientSize s.room bits)
    else .ok { s with bits, members := ∅ }

/-- One request. A refused one leaves the set as it is. -/
def step (s : IndexSet) (op : Bitmap.Op) : IndexSet :=
  match s.act op with
  | .ok after => after
  | .error _ => s

/-- One request after the other. -/
def run (s : IndexSet) (ops : List Bitmap.Op) : IndexSet := ops.foldl step s

theorem mem_free {s : IndexSet} {i : Nat} : i ∈ s.free ↔ i < s.bits ∧ i ∉ s.members := by
  rw [free, Finset.mem_sdiff, Finset.mem_range]

theorem freeFrom_zero (s : IndexSet) : s.freeFrom 0 = s.free :=
  Finset.filter_true_of_mem fun i _ => Nat.zero_le i

end IndexSet

namespace Bitmap

variable {b b' : Bitmap} {i start : Nat}

-- ---------------------------------------------------------------------------
-- All indices at once
-- ---------------------------------------------------------------------------

theorem holds_clearAll (b : Bitmap) (i : Nat) : b.clearAll.holds i = false := by
  rw [holds_eq_getLsbD, wordOf, clearAll, Array.getD_eq_getD_getElem?, Array.getElem?_map]
  cases b.store[i / wordBits]? <;> simp

theorem available_clearAll (b : Bitmap) : b.clearAll.available = b.available := by
  rw [available, available, clearAll, Array.size_map]

/-- A bitmap that holds nothing has no members, whatever its length. -/
theorem members_of_holds_nothing (h : ∀ i, b.holds i = false) : b.members = ∅ := by
  rw [Finset.eq_empty_iff_forall_notMem]
  intro i hi
  rw [mem_members, h i] at hi
  exact absurd hi.2 (by simp)

theorem members_reset (b : Bitmap) (bits : Nat) : { b.clearAll with bits }.members = ∅ :=
  members_of_holds_nothing (holds_clearAll b)

/-- The length may be any that the words can hold, once nothing is in them. -/
theorem sound_reset {bits : Nat} (hRoom : bits ≤ b.available) : { b.clearAll with bits }.Sound where
  room := (available_clearAll b).symm ▸ hRoom
  clean i _ := holds_clearAll b i
  count := (congrArg Finset.card (members_reset b bits)).symm

theorem Sound.clearAll (hb : b.Sound) : b.clearAll.Sound := sound_reset hb.room

/-- The word in which the length ends gets its lower part. -/
theorem getLsbD_lower {rest k : Nat} (hRest : rest ≤ 64) :
    (BitVec.allOnes 64 >>> (64 - rest)).getLsbD k = decide (k < rest) := by
  rw [BitVec.getLsbD_ushiftRight, BitVec.getLsbD_allOnes, decide_eq_decide]
  omega

/-- When all is set, the bits held are those below the length, and none of the words beyond. -/
theorem Sound.holds_setAll (hb : b.Sound) (i : Nat) : b.setAll.holds i = decide (i < b.bits) := by
  have hLt : i % 64 < 64 := Nat.mod_lt _ (by decide)
  rw [holds_eq_getLsbD, wordOf, setAll, wordBits_eq, Array.getD_eq_getD_getElem?,
    Array.getElem?_mapIdx]
  cases hWord : b.store[i / 64]? with
  | none =>
    have hBeyond : ¬ i < b.bits := fun hi => by
      rw [Array.getElem?_eq_none_iff] at hWord
      exact absurd (hb.word_lt hi) (Nat.not_lt.mpr hWord)
    simp [hBeyond]
  | some word =>
    rw [Option.map_some, Option.getD_some]
    split
    · have hBelow : i < b.bits := by omega
      rw [BitVec.getLsbD_allOnes, decide_eq_true hLt, decide_eq_true hBelow]
    · split
      · rw [getLsbD_lower (by omega), decide_eq_decide]
        omega
      · -- a word that stays as it was lies beyond the length, where nothing is held
        have hBeyond : b.bits ≤ i := by omega
        have hClean := hb.clean i hBeyond
        rw [holds_eq_getLsbD, wordOf, wordBits_eq, Array.getD_eq_getD_getElem?, hWord] at hClean
        rw [decide_eq_false (Nat.not_lt.mpr hBeyond)]
        exact hClean

theorem Sound.members_setAll (hb : b.Sound) : b.setAll.members = Finset.range b.bits := by
  ext i
  rw [mem_members, hb.holds_setAll, decide_eq_true_eq, Finset.mem_range]
  exact and_self_iff

theorem Sound.setAll (hb : b.Sound) : b.setAll.Sound where
  room := by
    rw [available, Bitmap.setAll, Array.size_mapIdx]
    exact hb.room
  clean i hi := by
    rw [hb.holds_setAll]
    exact decide_eq_false (Nat.not_lt.mpr hi)
  count := by
    rw [hb.members_setAll, Finset.card_range]
    rfl

-- ---------------------------------------------------------------------------
-- Requests to a bitmap and to its set
-- ---------------------------------------------------------------------------

/-- The set that a bitmap stands for. -/
def view (b : Bitmap) : IndexSet := ⟨b.available, b.bits, b.members⟩

theorem reset_eq (b : Bitmap) (bits : Nat) :
    b.reset bits = if b.available < bits then .error (.insufficientSize b.available bits)
      else .ok { b.clearAll with bits } := by
  rw [reset, check]
  split <;> rfl

theorem Sound.view_set (hb : b.Sound) (h : b.set i = .ok b') :
    b'.view = { b.view with members := insert i b.members } := by
  obtain ⟨-, -, rfl⟩ := set_eq_ok h
  rw [view, hb.members_set h, available, Array.size_setIfInBounds]
  rfl

theorem Sound.view_clear (hb : b.Sound) (h : b.clear i = .ok b') :
    b'.view = { b.view with members := b.members.erase i } := by
  obtain ⟨-, -, rfl⟩ := clear_eq_ok h
  rw [view, hb.members_clear h, available, Array.size_setIfInBounds]
  rfl

theorem view_reset (b : Bitmap) (bits : Nat) :
    { b.clearAll with bits }.view = { b.view with bits, members := ∅ } := by
  have hRoom : { b.clearAll with bits }.available = b.available := available_clearAll b
  rw [view, members_reset, hRoom]
  rfl

theorem Sound.view_setAll (hb : b.Sound) :
    b.setAll.view = { b.view with members := Finset.range b.bits } := by
  rw [view, hb.members_setAll, available, Bitmap.setAll, Array.size_mapIdx]
  rfl

/-- A request is answered for the bitmap as it is for its set, and leads to the same set. -/
theorem Sound.map_view_act (hb : b.Sound) (op : Op) : (b.act op).map view = b.view.act op := by
  cases op with
  | set i =>
    by_cases hi : i < b.bits
    · cases hHeld : b.holds i with
      | true => simp [act, IndexSet.act, Bitmap.set, view, Except.map, hHeld, hi, Nat.not_le.mpr hi]
      | false =>
        obtain ⟨b', hSet⟩ := exists_set hi hHeld
        rw [act, hSet, Except.map, hb.view_set hSet]
        simp [IndexSet.act, view, hHeld, Nat.not_le.mpr hi]
    · simp [act, IndexSet.act, Bitmap.set, view, Except.map, Nat.not_lt.mp hi]
  | clear i =>
    by_cases hi : i < b.bits
    · cases hHeld : b.holds i with
      | true =>
        obtain ⟨b', hClear⟩ := exists_clear hi hHeld
        rw [act, hClear, Except.map, hb.view_clear hClear]
        simp [IndexSet.act, view, hHeld, hi, Nat.not_le.mpr hi]
      | false =>
        simp [act, IndexSet.act, Bitmap.clear, view, Except.map, hHeld, Nat.not_le.mpr hi]
    · simp [act, IndexSet.act, Bitmap.clear, view, Except.map, Nat.not_lt.mp hi]
  | clearAll => exact congrArg Except.ok (view_reset b b.bits)
  | setAll => exact congrArg Except.ok hb.view_setAll
  | reset bits =>
    rw [act, reset_eq, IndexSet.act]
    change Except.map view _ = if b.available < bits then _ else _
    split
    · rfl
    · exact congrArg Except.ok (view_reset b bits)

theorem Sound.act (hb : b.Sound) {op : Op} (h : b.act op = .ok b') : b'.Sound := by
  cases op with
  | set i => exact hb.set h
  | clear i => exact hb.clear h
  | clearAll =>
    obtain rfl := Except.ok.inj h
    exact hb.clearAll
  | setAll =>
    obtain rfl := Except.ok.inj h
    exact hb.setAll
  | reset bits =>
    rw [Bitmap.act, reset_eq] at h
    split at h
    · exact absurd h (by simp)
    · rename_i hRoom
      obtain rfl := Except.ok.inj h
      exact sound_reset (Nat.not_lt.mp hRoom)

theorem Sound.step (hb : b.Sound) (op : Op) : (b.step op).Sound := by
  rw [Bitmap.step]
  split
  · rename_i hOk
    exact hb.act hOk
  · exact hb

theorem Sound.view_step (hb : b.Sound) (op : Op) : (b.step op).view = b.view.step op := by
  rw [Bitmap.step, IndexSet.step, ← hb.map_view_act op]
  cases b.act op <;> rfl

theorem Sound.run (hb : b.Sound) (ops : List Op) : (b.run ops).Sound := by
  induction ops generalizing b with
  | nil => exact hb
  | cons op rest ih => exact ih (hb.step op)

theorem Sound.view_run (hb : b.Sound) (ops : List Op) : (b.run ops).view = b.view.run ops := by
  induction ops generalizing b with
  | nil => rfl
  | cons op rest ih =>
    refine (ih (hb.step op)).trans ?_
    rw [hb.view_step op]
    rfl

-- ---------------------------------------------------------------------------
-- Searches
-- ---------------------------------------------------------------------------

/-- A search that answers least elements of a set, and nothing only for the empty set, finds
exactly the least element. -/
theorem eq_some_iff_isLeast {found : Option Nat} {s : Finset Nat}
    (hSome : ∀ i, found = some i → IsLeast (s : Set Nat) i) (hNone : found = none → s = ∅)
    (i : Nat) : found = some i ↔ IsLeast (s : Set Nat) i := by
  refine ⟨hSome i, fun hLeast => ?_⟩
  cases hFound : found with
  | none =>
    have hMem := hLeast.1
    rw [hNone hFound] at hMem
    exact absurd hMem (by simp)
  | some j => rw [(hSome j hFound).unique hLeast]

theorem seen_id (b : Bitmap) (i : Nat) : b.seen (fun word => word) i = b.holds i :=
  (b.holds_eq_getLsbD i).symm

theorem mem_free_view : i ∈ b.view.free ↔ i < b.bits ∧ b.holds i = false := by
  rw [IndexSet.mem_free]
  change i < b.bits ∧ i ∉ b.members ↔ _
  rw [mem_members]
  simp +contextual

theorem mem_freeFrom_view :
    i ∈ b.view.freeFrom start ↔ (i < b.bits ∧ b.holds i = false) ∧ start ≤ i := by
  rw [IndexSet.freeFrom, Finset.mem_filter, mem_free_view]

/-- A search answers the least of the indices that it can see. -/
theorem findFrom?_eq_some_iff {view : BitVec 64 → BitVec 64} {s : Finset Nat}
    (hMem : ∀ j, j ∈ s ↔ (j < b.bits ∧ b.seen view j = true) ∧ start ≤ j) :
    b.findFrom? view start = some i ↔ IsLeast (s : Set Nat) i := by
  refine eq_some_iff_isLeast (fun i h => ?_) (fun h => ?_) i
  · obtain ⟨hLt, hFirst⟩ := findFrom?_eq_some h
    refine ⟨Finset.mem_coe.mpr ((hMem i).mpr ⟨⟨hLt, hFirst.seen⟩, hFirst.from_le⟩), ?_⟩
    intro j hj
    obtain ⟨⟨-, hSeen⟩, hFrom⟩ := (hMem j).mp (Finset.mem_coe.mp hj)
    by_contra hBefore
    rw [hFirst.least j hFrom (Nat.not_le.mp hBefore)] at hSeen
    exact absurd hSeen (by simp)
  · rw [Finset.eq_empty_iff_forall_notMem]
    intro j hj
    obtain ⟨⟨hLt, hSeen⟩, hFrom⟩ := (hMem j).mp hj
    rw [findFrom?_eq_none h hFrom hLt] at hSeen
    exact absurd hSeen (by simp)

/-- The search for a member answers the least one. -/
theorem findSet?_eq_some_iff : b.findSet? = some i ↔ IsLeast (b.members : Set Nat) i :=
  findFrom?_eq_some_iff fun j => by simp [seen_id]

/-- A search of the complement answers the least free index from its start on. -/
theorem findFrom?_not_eq_some_iff :
    b.findFrom? (fun word => ~~~word) start = some i ↔
      IsLeast (b.view.freeFrom start : Set Nat) i :=
  findFrom?_eq_some_iff fun j => by simp [mem_freeFrom_view, seen_not]

theorem findClear?_eq_some_iff : b.findClear? = some i ↔ IsLeast (b.view.free : Set Nat) i := by
  rw [findClear?, findFrom?_not_eq_some_iff, IndexSet.freeFrom_zero]

/-- A search that finds nothing had nothing to find. -/
theorem eq_none_iff_of_isLeast {found : Option Nat} {s : Finset Nat}
    (h : ∀ i, found = some i ↔ IsLeast (s : Set Nat) i) : found = none ↔ s = ∅ := by
  rw [Option.eq_none_iff_forall_ne_some]
  constructor
  · intro hNone
    by_contra hSome
    have hNonempty := Finset.nonempty_iff_ne_empty.mpr hSome
    exact hNone _ ((h _).mpr (s.isLeast_min' hNonempty))
  · rintro rfl i hi
    exact absurd ((h i).mp hi).1 (by simp)

/-- Past the length there is nothing to find. -/
theorem freeFrom_view_eq_empty (hStart : b.bits ≤ start) : b.view.freeFrom start = ∅ := by
  rw [Finset.eq_empty_iff_forall_notMem]
  intro i hi
  have hMem := mem_freeFrom_view.mp hi
  omega

/-- The search that wraps round answers the least free index from its start on, and if there is
none there the least one at all. -/
theorem findClearFrom?_eq_some_iff :
    b.findClearFrom? start = some i ↔
      IsLeast (b.view.freeFrom start : Set Nat) i ∨
        (b.view.freeFrom start = ∅ ∧ IsLeast (b.view.free : Set Nat) i) := by
  rw [findClearFrom?]
  split
  · rename_i hStart
    rw [findClear?_eq_some_iff, freeFrom_view_eq_empty hStart]
    simp [IsLeast]
  · rw [Option.or_eq_some_iff, findFrom?_not_eq_some_iff, findClear?_eq_some_iff,
      eq_none_iff_of_isLeast fun i => findFrom?_not_eq_some_iff]

theorem findClearFrom?_eq_none_iff :
    b.findClearFrom? start = none ↔ b.view.free = ∅ := by
  have hNone : b.findClear? = none ↔ b.view.free = ∅ :=
    eq_none_iff_of_isLeast fun i => findClear?_eq_some_iff
  rw [findClearFrom?]
  split
  · exact hNone
  · rw [Option.or_eq_none_iff, hNone, eq_none_iff_of_isLeast fun i => findFrom?_not_eq_some_iff]
    refine and_iff_right_of_imp fun hFull => ?_
    rw [IndexSet.freeFrom, hFull, Finset.filter_empty]

-- ---------------------------------------------------------------------------
-- All questions
-- ---------------------------------------------------------------------------

/-- A bitmap and a set of indices agree on every question. -/
structure Refines (b : Bitmap) (s : IndexSet) : Prop where
  view_eq : b.view = s
  bits_le : s.bits ≤ s.room
  lt_bits : ∀ i ∈ s.members, i < s.bits
  used_eq : b.used = s.members.card
  /-- A bit of the words says whether its index is in the set. -/
  stored : ∀ word place (hWord : word < b.store.size), place < 64 →
    b.store[word].getLsbD place = decide (word * 64 + place ∈ s.members)
  /-- Beyond the length all bits are zero. -/
  beyond : ∀ word place (hWord : word < b.store.size), place < 64 → s.bits ≤ word * 64 + place →
    b.store[word].getLsbD place = false
  get_eq : ∀ i, b.get i =
    if s.bits ≤ i then .error (.outOfBounds i s.bits) else .ok (decide (i ∈ s.members))
  /-- What the set refuses is refused, for the same reason, and all else leads to the same set. -/
  act_eq : ∀ op, (b.act op).map view = s.act op
  step_of_refused : ∀ op e, s.act op = .error e → b.step op = b
  findSet?_some : ∀ i, b.findSet? = some i ↔ IsLeast (s.members : Set Nat) i
  findSet?_none : b.findSet? = none ↔ s.members = ∅
  findClear?_some : ∀ i, b.findClear? = some i ↔ IsLeast (s.free : Set Nat) i
  findClear?_none : b.findClear? = none ↔ s.members = Finset.range s.bits
  findClearFrom?_some : ∀ start i, b.findClearFrom? start = some i ↔
    IsLeast (s.freeFrom start : Set Nat) i ∨
      (s.freeFrom start = ∅ ∧ IsLeast (s.free : Set Nat) i)
  findClearFrom?_none : ∀ start, b.findClearFrom? start = none ↔
    s.members = Finset.range s.bits
  isFull_iff : b.isFull = true ↔ s.members = Finset.range s.bits

theorem members_subset (b : Bitmap) : b.members ⊆ Finset.range b.bits := Finset.filter_subset ..

/-- Nothing is free once all indices below the length are in the set. -/
theorem free_view_eq_empty_iff : b.view.free = ∅ ↔ b.members = Finset.range b.bits := by
  rw [IndexSet.free, Finset.sdiff_eq_empty_iff_subset]
  exact ⟨fun hAll => (members_subset b).antisymm hAll, fun hEq => hEq.ge⟩

theorem Sound.isFull_iff (hb : b.Sound) : b.isFull = true ↔ b.members = Finset.range b.bits := by
  rw [isFull, beq_iff_eq, hb.count]
  constructor
  · intro hCount
    refine Finset.eq_of_subset_of_card_le (members_subset b) ?_
    rw [hCount, Finset.card_range]
  · intro hAll
    rw [hAll, Finset.card_range]

theorem Sound.getLsbD_store (hb : b.Sound) {word place : Nat} (hWord : word < b.store.size)
    (hPlace : place < 64) :
    b.store[word].getLsbD place = decide (word * 64 + place ∈ b.members) := by
  have hStored : b.holds (word * 64 + place) = b.store[word].getLsbD place := by
    rw [holds_eq_getLsbD, wordOf, wordBits_eq, show (word * 64 + place) / 64 = word by omega,
      show (word * 64 + place) % 64 = place by omega]
    simp [hWord]
  rw [← hStored, Bool.eq_iff_iff, decide_eq_true_eq, mem_members]
  refine (and_iff_right_of_imp fun hHeld => ?_).symm
  by_contra hBeyond
  rw [hb.clean _ (Nat.not_lt.mp hBeyond)] at hHeld
  exact absurd hHeld (by simp)

/-- A sound bitmap agrees with the set it stands for. -/
theorem Sound.refines (hb : b.Sound) : b.Refines b.view where
  view_eq := rfl
  bits_le := hb.room
  lt_bits i hi := (mem_members.mp hi).1
  used_eq := hb.count
  stored word place hWord hPlace := hb.getLsbD_store hWord hPlace
  beyond word place hWord hPlace hBeyond := by
    rw [hb.getLsbD_store hWord hPlace, decide_eq_false_iff_not, mem_members]
    exact fun hMem => absurd hMem.1 (Nat.not_lt.mpr hBeyond)
  get_eq i := by
    rw [get]
    change (if b.bits ≤ i then _ else _) =
      if b.bits ≤ i then _ else Except.ok (decide (i ∈ b.members))
    split
    · rfl
    · rename_i hi
      simp [Nat.not_le.mp hi]
  act_eq := hb.map_view_act
  -- what the set refuses the bitmap refuses, and keeps its words
  step_of_refused op e hRefused := by
    rw [← hb.map_view_act] at hRefused
    rw [Bitmap.step]
    split
    · rename_i hOk
      rw [hOk] at hRefused
      exact absurd hRefused (by simp [Except.map])
    · rfl
  findSet?_some i := findSet?_eq_some_iff
  findSet?_none := eq_none_iff_of_isLeast fun i => findSet?_eq_some_iff
  findClear?_some i := findClear?_eq_some_iff
  findClear?_none :=
    (eq_none_iff_of_isLeast fun i => findClear?_eq_some_iff).trans free_view_eq_empty_iff
  findClearFrom?_some start i := findClearFrom?_eq_some_iff
  findClearFrom?_none start := findClearFrom?_eq_none_iff.trans free_view_eq_empty_iff
  isFull_iff := hb.isFull_iff

theorem view_withCapacity (bits capacity : Nat) :
    (withCapacity bits capacity).view =
      .empty (max ((max capacity bits + 63) / 64) 1 * 64) bits := by
  have hRoom : (withCapacity bits capacity).available =
      max ((max capacity bits + 63) / 64) 1 * 64 := by
    simp [withCapacity, available, wordsFor, wordBits_eq]
  rw [view, hRoom, members_of_holds_nothing (holds_withCapacity bits capacity)]
  rfl

/-- Whatever a new bitmap is asked, it agrees with the set of indices that is asked the same. -/
theorem run_index_set (bits capacity : Nat) (ops : List Op) :
    ((withCapacity bits capacity).run ops).Refines
      ((IndexSet.empty (max ((max capacity bits + 63) / 64) 1 * 64) bits).run ops) := by
  have hNew := sound_withCapacity bits capacity
  rw [← view_withCapacity bits capacity, ← hNew.view_run ops]
  exact (hNew.run ops).refines

/-- Sixty-five bits do not fill the second word, the longer length fills it, and a length beyond
the words is refused. -/
example :
    let b := (withCapacity 65 0).run [.setAll, .clear 64, .clear 3, .reset 129]
    b.used = 63 ∧ b.findClear? = some 3 ∧ b.findClearFrom? 4 = some 64 ∧
      ((b.run [.reset 128, .set 127]).findSet? = some 127) := by
  decide +kernel

end Bitmap

end BlockPool
