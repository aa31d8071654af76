import BlockPool.Proofs.Store.Entries

/-!
# BlockPool — slabs over their histories

A slab gives out keys, and what it finds under them is told by the journal of what it was asked: a
value is found under the key that was given when it came, until it is taken or all values go. A slot
is used again under a key of the next generation, so as long as no generation comes round, no key is
given twice, and a key whose value was taken finds nothing any more. When all values go, however,
the slots go with them, and the slab gives the same keys again.

* `Slab.value?` — what a journal says about a key.
* `Slab.Journal` — a slab beside its journal; `Slab.Journal.run` is any number of requests.
* `Slab.Known` — a key that was given: it finds its value, or its slot is in a later generation.
* `Slab.Journal.run_keyed_store` — the slab does what its journal says.
* `Slab.Journal.run_gone_until_drain` — a key that finds nothing any more finds nothing while the
  slots stay.
-/

namespace BlockPool.Slab

variable {α : Type} {s t : Slab α} {key : Key} {value : α}

-- ---------------------------------------------------------------------------
-- Requests
-- ---------------------------------------------------------------------------

/-- What can be asked of a slab. -/
inductive Op (α : Type) where
  | insert (value : α)
  | remove (key : Key)
  /-- Another value comes in place of the one under a key. -/
  | put (key : Key) (value : α)
  | drain
deriving DecidableEq

/-- The slab after a request. A key that finds nothing changes nothing. -/
def act (s : Slab α) : Op α → Slab α
  | .insert value => (s.insert value).2
  | .remove key =>
    match s.remove key with
    | some (_, t) => t
    | none => s
  | .put key value =>
    match s.get? key with
    | some _ => s.putAt key.index value
    | none => s
  | .drain => s.drain.2

variable {op : Op α}

/-- All that a request can do. -/
inductive Does (s : Slab α) : Op α → Slab α → Prop where
  | insert (value : α) : Does s (.insert value) (s.insert value).2
  | remove {key : Key} {value : α} {t : Slab α} (hRemove : s.remove key = some (value, t)) :
    Does s (.remove key) t
  | put {key : Key} {old : α} (hFound : s.get? key = some old) (value : α) :
    Does s (.put key value) (s.putAt key.index value)
  | removeNone {key : Key} (hNone : s.get? key = none) : Does s (.remove key) s
  | putNone {key : Key} (hNone : s.get? key = none) (value : α) : Does s (.put key value) s
  | drain : Does s .drain empty

/-- An operation is one of four, and a key that finds nothing makes it do nothing. -/
theorem does_act (s : Slab α) (op : Op α) : s.Does op (s.act op) := by
  cases op with
  | insert value => exact .insert value
  | remove key =>
    unfold act
    dsimp only
    split
    · rename_i hRemove
      exact .remove hRemove
    · rename_i hRemove
      exact .removeNone (remove_eq_none_iff.mp hRemove)
  | put key value =>
    unfold act
    dsimp only
    split
    · rename_i hFound
      exact .put hFound value
    · rename_i hNone
      exact .putNone hNone value
  | drain => exact .drain

theorem Does.sound (hDoes : s.Does op t) (h : s.Sound) : t.Sound := by
  cases hDoes with
  | insert value => exact h.insert value
  | remove hRemove => exact h.remove hRemove
  | put hFound value => exact h.putAt ..
  | removeNone | putNone => exact h
  | drain => exact sound_empty

theorem Does.counted (hDoes : s.Does op t) (h : s.Counted) (hSound : s.Sound) : t.Counted := by
  cases hDoes with
  | insert value => exact h.insert value
  | remove hRemove => exact h.remove hSound hRemove
  | put hFound value => exact h.putAt ..
  | removeNone | putNone => exact h
  | drain => exact counted_empty

-- ---------------------------------------------------------------------------
-- Journals
-- ---------------------------------------------------------------------------

/-- What was asked of a slab, and which key it gave to what came. -/
inductive Event (α : Type) where
  | inserted (key : Key) (value : α)
  | removed (key : Key)
  | stored (key : Key) (value : α)
  | drained

/-- The event that a request is. -/
def note (s : Slab α) : Op α → Event α
  | .insert value => .inserted (s.insert value).1 value
  | .remove key => .removed key
  | .put key value => .stored key value
  | .drain => .drained

/-- What a key finds after an event, from what it found before. -/
def Event.after (key : Key) (found : Option α) : Event α → Option α
  | .inserted given value => if key = given then some value else found
  | .removed taken => if key = taken then none else found
  | .stored given value => if key = given then found.map fun _ => value else found
  | .drained => none

/-- What a key finds according to a journal, which has the last event in front. -/
def value? : List (Event α) → Key → Option α
  | [], _ => none
  | event :: events, key => event.after key (value? events key)

/-- The keys that were given, the last one in front. -/
def issued (events : List (Event α)) : List Key :=
  events.filterMap fun
    | .inserted key _ => some key
    | _ => none

/-- The events since the slots last went. -/
def sinceDrain : List (Event α) → List (Event α)
  | [] => []
  | .drained :: _ => []
  | event :: events => event :: sinceDrain events

/-- The number of values that were taken one by one. -/
def removals : List (Event α) → Nat
  | [] => 0
  | .removed key :: events =>
    if (value? events key).isSome then removals events + 1 else removals events
  | _ :: events => removals events

/-- A value came under the key, and was not taken since. -/
def Held (events : List (Event α)) (key : Key) : Prop :=
  ∃ later value earlier, events = later ++ .inserted key value :: earlier ∧
    .removed key ∉ later ∧ .drained ∉ later

theorem held_cons {event : Event α} {events : List (Event α)} :
    Held (event :: events) key ↔ (∃ value, event = .inserted key value) ∨
      (event ≠ .removed key ∧ event ≠ .drained ∧ Held events key) := by
  constructor
  · rintro ⟨later, value, earlier, hEq, hTaken, hDrained⟩
    cases later with
    | nil =>
      obtain ⟨rfl, -⟩ := by simpa using hEq
      exact .inl ⟨value, rfl⟩
    | cons first later =>
      obtain ⟨rfl, rfl⟩ := by simpa using hEq
      rw [List.mem_cons, not_or] at hTaken hDrained
      exact .inr ⟨Ne.symm hTaken.1, Ne.symm hDrained.1, later, value, earlier, rfl, hTaken.2,
        hDrained.2⟩
  · rintro (⟨value, rfl⟩ | ⟨hTaken, hDrained, later, value, earlier, rfl, hOld, hOld'⟩)
    · exact ⟨[], value, events, rfl, List.not_mem_nil, List.not_mem_nil⟩
    · exact ⟨event :: later, value, earlier, rfl, by simp [Ne.symm hTaken, hOld],
        by simp [Ne.symm hDrained, hOld']⟩

/-- A key finds something exactly if a value came under it and was not taken since. -/
theorem isSome_value?_iff {events : List (Event α)} :
    (value? events key).isSome = true ↔ Held events key := by
  induction events with
  | nil => simp [value?, Held]
  | cons event events ih =>
    rw [held_cons, ← ih, value?]
    cases event with
    | inserted given value =>
      by_cases hKey : key = given
      · simp [Event.after, hKey]
      · simp [Event.after, hKey, Ne.symm hKey]
    | removed taken =>
      by_cases hKey : key = taken
      · simp [Event.after, hKey]
      · simp [Event.after, hKey, Ne.symm hKey]
    | stored given value => by_cases hKey : key = given <;> simp [Event.after, hKey]
    | drained => simp [Event.after]

theorem sinceDrain_eq_self {events : List (Event α)} (h : .drained ∉ events) :
    sinceDrain events = events := by
  induction events with
  | nil => rfl
  | cons event events ih =>
    rw [List.mem_cons, not_or] at h
    cases event with
    | drained => exact absurd rfl h.1
    | inserted | removed | stored => exact congrArg (List.cons _) (ih h.2)

theorem removals_le_cons (event : Event α) (events : List (Event α)) :
    removals events ≤ removals (event :: events) := by
  cases event with
  | removed key =>
    rw [removals]
    split <;> omega
  | inserted | stored | drained => exact Nat.le_refl _

/-- What a key finds after a request is told by the event. -/
theorem Does.get?_eq (hDoes : s.Does op t) (h : s.Sound) (key : Key) :
    t.get? key = (s.note op).after key (s.get? key) := by
  cases hDoes with
  | insert value => rw [h.get?_insert, note, Event.after, insert_fst]
  | remove hRemove => exact get?_remove hRemove key
  | put hFound value =>
    rw [get?_putAt hFound, note, Event.after]
    split
    · rename_i hKey
      rw [hKey, hFound, Option.map_some]
    · rfl
  | removeNone hNone =>
    rw [note, Event.after]
    split
    · rename_i hKey
      rw [hKey, hNone]
    · rfl
  | putNone hNone value =>
    rw [note, Event.after]
    split
    · rename_i hKey
      rw [hKey, hNone, Option.map_none]
    · rfl
  | drain => exact get?_empty key

-- ---------------------------------------------------------------------------
-- Keys that were given
-- ---------------------------------------------------------------------------

/-- The slot of the key is in a later generation. -/
def Spent (s : Slab α) (key : Key) : Prop :=
  key.index < s.slots.size ∧ key.generation.toNat < (s.generationAt key.index).toNat

/-- A key that was given finds its value, or its slot is in a later generation. -/
def Known (s : Slab α) (key : Key) : Prop := (s.get? key).isSome = true ∨ s.Spent key

/-- No generation comes round by the request. -/
def Climbs (s : Slab α) (op : Op α) : Prop :=
  ∀ key, op = .remove key → (s.get? key).isSome = true → key.generation.toNat + 1 < 2 ^ 32

theorem Spent.get?_eq_none (h : s.Spent key) : s.get? key = none := by
  rw [get?_eq, if_neg]
  intro hEq
  have hLt := h.2
  rw [hEq] at hLt
  exact Nat.lt_irrefl _ hLt

/-- The key that is given next was not given before. -/
theorem Sound.not_known_nextKey (h : s.Sound) : ¬ s.Known s.nextKey := by
  rintro (hSome | hSpent)
  · rw [h.get?_nextKey] at hSome
    exact absurd hSome (by simp)
  · have hLt := hSpent.2
    rw [generationAt_nextKey] at hLt
    exact Nat.lt_irrefl _ hLt

/-- The slot that a value was taken from is one generation on, unless the generations came round. -/
theorem toNat_generationAt_remove (hRemove : s.remove key = some (value, t))
    (hNext : key.generation.toNat + 1 < 2 ^ 32) :
    (t.generationAt key.index).toNat = key.generation.toNat + 1 := by
  rw [generationAt_remove hRemove, if_pos rfl, UInt32.toNat_add, UInt32.toNat_one,
    Nat.mod_eq_of_lt hNext]

/-- The key of a value that is taken is spent. -/
theorem spent_remove (hRemove : s.remove key = some (value, t))
    (hNext : key.generation.toNat + 1 < 2 ^ 32) : t.Spent key := by
  obtain ⟨hFound, -⟩ := remove_eq_some hRemove
  have hLt := lt_size_of_at? (at?_of_get? hFound)
  refine ⟨by rwa [size_slots_remove hRemove], ?_⟩
  rw [toNat_generationAt_remove hRemove hNext]
  exact Nat.lt_succ_self _

/-- A key that is spent stays so, unless the slots go. -/
theorem Does.spent (hDoes : s.Does op t) (h : s.Spent key) (hDrain : op ≠ .drain)
    (hClimbs : s.Climbs op) : t.Spent key := by
  cases hDoes with
  | insert value =>
    refine ⟨h.1.trans_le (size_slots_le_insert ..), ?_⟩
    rw [generationAt_insert]
    exact h.2
  | @remove taken value _ hRemove =>
    obtain ⟨hFound, -⟩ := remove_eq_some hRemove
    refine ⟨by rw [size_slots_remove hRemove]; exact h.1, ?_⟩
    by_cases hIndex : key.index = taken.index
    · have hLt := h.2
      rw [hIndex, (get?_eq_some_iff.mp hFound).2] at hLt
      rw [hIndex, toNat_generationAt_remove hRemove (hClimbs taken rfl (by rw [hFound]; rfl))]
      exact hLt.trans (Nat.lt_succ_self _)
    · rw [generationAt_remove hRemove, if_neg hIndex]
      exact h.2
  | put hFound value =>
    refine ⟨by rw [size_slots_putAt]; exact h.1, ?_⟩
    rw [generationAt_putAt]
    exact h.2
  | removeNone | putNone => exact h
  | drain => exact absurd rfl hDrain

/-- A key that was given stays known, unless the slots go. -/
theorem Does.known (hDoes : s.Does op t) (h : s.Known key) (hSound : s.Sound)
    (hDrain : op ≠ .drain) (hClimbs : s.Climbs op) : t.Known key := by
  rcases h with hSome | hSpent
  · have hAfter := hDoes.get?_eq hSound key
    cases hDoes with
    | insert value =>
      refine .inl ?_
      rw [hAfter, note, Event.after]
      split
      · rfl
      · exact hSome
    | @remove taken value _ hRemove =>
      by_cases hKey : key = taken
      · subst hKey
        exact .inr (spent_remove hRemove (hClimbs key rfl hSome))
      · refine .inl ?_
        rw [hAfter, note, Event.after, if_neg hKey]
        exact hSome
    | put hFound value =>
      refine .inl ?_
      rw [hAfter, note, Event.after]
      split
      · rw [Option.isSome_map]
        exact hSome
      · exact hSome
    | removeNone | putNone => exact .inl hSome
    | drain => exact absurd rfl hDrain
  · exact .inr (hDoes.spent hSpent hDrain hClimbs)

-- ---------------------------------------------------------------------------
-- A slab beside its journal
-- ---------------------------------------------------------------------------

/-- A slab, and what it was asked. -/
structure Journal (α : Type) where
  slab : Slab α
  /-- The last one in front. -/
  events : List (Event α)

namespace Journal

variable {j : Journal α} {ops : List (Op α)}

/-- A slab that was asked nothing. -/
def start : Journal α := ⟨empty, []⟩

/-- One request. -/
def step (j : Journal α) (op : Op α) : Journal α := ⟨j.slab.act op, j.slab.note op :: j.events⟩

/-- One request after the other. -/
def run (j : Journal α) (ops : List (Op α)) : Journal α := ops.foldl step j

theorem run_append (j : Journal α) (before after : List (Op α)) :
    j.run (before ++ after) = (j.run before).run after :=
  List.foldl_append

/-- What becomes of the slab is not a matter of the journal. -/
theorem slab_run (j : Journal α) (ops : List (Op α)) : (j.run ops).slab = ops.foldl act j.slab := by
  induction ops generalizing j with
  | nil => rfl
  | cons op rest ih => exact ih (j.step op)

theorem removals_le_run (j : Journal α) (ops : List (Op α)) :
    removals j.events ≤ removals (j.run ops).events := by
  induction ops generalizing j with
  | nil => exact Nat.le_refl _
  | cons op rest ih => exact (removals_le_cons ..).trans (ih (j.step op))

theorem drained_notMem_run (h : .drained ∉ j.events) (hWhole : .drain ∉ ops) :
    .drained ∉ (j.run ops).events := by
  induction ops generalizing j with
  | nil => exact h
  | cons op rest ih =>
    rw [List.mem_cons, not_or] at hWhole
    refine ih (fun hMem => ?_) hWhole.2
    rcases List.mem_cons.mp hMem with hNote | hOld
    · cases op with
      | drain => exact absurd rfl hWhole.1
      | insert | remove | put => exact absurd hNote (by simp [note])
    · exact h hOld

/-- What a slab keeps in step with its journal. -/
structure Kept (j : Journal α) : Prop where
  sound : j.slab.Sound
  counted : j.slab.Counted
  get?_eq : ∀ key, j.slab.get? key = value? j.events key

theorem kept_start : (start : Journal α).Kept where
  sound := sound_empty
  counted := counted_empty
  get?_eq := get?_empty

theorem Kept.step (h : j.Kept) (op : Op α) : (j.step op).Kept where
  sound := (j.slab.does_act op).sound h.sound
  counted := (j.slab.does_act op).counted h.counted h.sound
  get?_eq key := by
    refine ((j.slab.does_act op).get?_eq h.sound key).trans ?_
    rw [h.get?_eq]
    rfl

/-- What is so as long as no generation can have come round. -/
structure Timely (j : Journal α) : Prop extends Kept j where
  generation_le : ∀ i, (j.slab.generationAt i).toNat ≤ removals j.events
  known : ∀ key ∈ issued (sinceDrain j.events), j.slab.Known key
  nodup : (issued (sinceDrain j.events)).Nodup

theorem timely_start : (start : Journal α).Timely where
  toKept := kept_start
  generation_le _ := Nat.zero_le _
  known _ hMem := absurd hMem List.not_mem_nil
  nodup := List.nodup_nil

/-- A generation is at most the number of values that were taken. -/
theorem Timely.climbs (h : j.Timely) (hFew : removals (j.step op).events < 2 ^ 32) :
    j.slab.Climbs op := by
  rintro key rfl hSome
  obtain ⟨value, hFound⟩ := Option.isSome_iff_exists.mp hSome
  have hLe := h.generation_le key.index
  rw [(get?_eq_some_iff.mp hFound).2] at hLe
  rw [h.get?_eq] at hSome
  have hCount : removals (j.step (.remove key)).events = removals j.events + 1 := if_pos hSome
  omega

/-- A generation climbs when a value is taken, and each time by one. -/
theorem Timely.generation_le_step (h : j.Timely) (hDoes : j.slab.Does op t) (i : Nat) :
    (t.generationAt i).toNat ≤ removals (j.slab.note op :: j.events) := by
  have hLe := h.generation_le i
  cases hDoes with
  | insert value =>
    rw [generationAt_insert]
    exact hLe
  | @remove key value _ hRemove =>
    obtain ⟨hFound, -⟩ := remove_eq_some hRemove
    rw [note, removals, ← h.get?_eq, hFound, Option.isSome_some, if_pos rfl,
      generationAt_remove hRemove]
    split
    · rename_i hIndex
      rw [hIndex, (get?_eq_some_iff.mp hFound).2] at hLe
      -- even if it comes round it is not past the count
      rw [UInt32.toNat_add, UInt32.toNat_one]
      exact (Nat.mod_le _ _).trans (Nat.succ_le_succ hLe)
    · exact hLe.trans (Nat.le_succ _)
  | put hFound value =>
    rw [generationAt_putAt]
    exact hLe
  | removeNone | putNone => exact hLe.trans (removals_le_cons ..)
  | drain => exact Nat.zero_le _

/-- As long as fewer values were taken than there are generations, no key comes back. -/
theorem Timely.step (h : j.Timely) (hFew : removals (j.step op).events < 2 ^ 32) :
    (j.step op).Timely := by
  have hKnown : op ≠ .drain → ∀ key ∈ issued (sinceDrain j.events), (j.step op).slab.Known key :=
    fun hDrain key hMem =>
      (j.slab.does_act op).known (h.known key hMem) h.sound hDrain (h.climbs hFew)
  refine ⟨h.toKept.step op, h.generation_le_step (j.slab.does_act op), ?_, ?_⟩
  · cases op with
    | insert value =>
      intro key hMem
      rcases List.mem_cons.mp hMem with rfl | hOld
      · refine .inl ?_
        rw [(h.toKept.step _).get?_eq]
        show (value? (.inserted _ value :: j.events) _).isSome = true
        rw [value?, Event.after, if_pos rfl, Option.isSome_some]
      · exact hKnown (by simp) key hOld
    | remove taken => exact hKnown (by simp)
    | put there value => exact hKnown (by simp)
    | drain => exact fun key hMem => absurd hMem List.not_mem_nil
  · cases op with
    | insert value =>
      refine List.nodup_cons.mpr ⟨fun hMem => ?_, h.nodup⟩
      rw [insert_fst] at hMem
      -- a slot knows the keys that it gave out, and the next one is not among them
      exact h.sound.not_known_nextKey (h.known _ hMem)
    | remove taken => exact h.nodup
    | put there value => exact h.nodup
    | drain => exact List.nodup_nil

theorem Timely.run (h : j.Timely) (hFew : removals (j.run ops).events < 2 ^ 32) :
    (j.run ops).Timely := by
  induction ops generalizing j with
  | nil => exact h
  | cons op rest ih =>
    exact ih (h.step ((removals_le_run (j.step op) rest).trans_lt hFew)) hFew

-- ---------------------------------------------------------------------------
-- Keyed stores
-- ---------------------------------------------------------------------------

/-- A slab finds what its journal says, gives every key once, and lists what it finds. -/
structure KeyedStore (j : Journal α) : Prop where
  /-- A key finds what was last stored under it. -/
  get?_eq : ∀ key, j.slab.get? key = value? j.events key
  /-- It finds something if a value came under it that was not taken since, and only then. -/
  isSome_get?_iff : ∀ key, (j.slab.get? key).isSome = true ↔ Held j.events key
  nodup_issued : (issued j.events).Nodup
  /-- The key that is given next was announced, and was not given before. -/
  insert_fst : ∀ value, (j.slab.insert value).1 = j.slab.nextKey
  nextKey_notMem : j.slab.nextKey ∉ issued j.events
  /-- What comes leaves every other value where it is. -/
  insert_keeps : ∀ new key value, j.slab.get? key = some value →
    (j.slab.insert new).2.get? key = some value ∧
      (j.slab.insert new).2.at? key.index = some value ∧
      (j.slab.insert new).2.keyAt? key.index = some key
  remove_fst : ∀ key, (j.slab.remove key).map (·.1) = value? j.events key
  at?_iff : ∀ i value, j.slab.at? i = some value ↔
    ∃ key, key.index = i ∧ j.slab.get? key = some value
  keyAt?_iff : ∀ i key, j.slab.keyAt? i = some key ↔
    key.index = i ∧ (j.slab.get? key).isSome = true
  length_entries : j.slab.entries.length = j.slab.size
  mem_entries : ∀ key value, (key, value) ∈ j.slab.entries ↔ j.slab.get? key = some value
  sorted_entries : j.slab.entries.Pairwise fun e e' => e.1.index < e'.1.index

/-- All that a slab tells that was never drained can be told from what happened to it. -/
theorem Timely.keyedStore (h : j.Timely) (hWhole : .drained ∉ j.events) : j.KeyedStore where
  get?_eq := h.get?_eq
  isSome_get?_iff key := by rw [h.get?_eq, isSome_value?_iff]
  nodup_issued := by
    have hNodup := h.nodup
    rwa [sinceDrain_eq_self hWhole] at hNodup
  insert_fst := j.slab.insert_fst
  nextKey_notMem hMem := by
    rw [← sinceDrain_eq_self hWhole] at hMem
    exact h.sound.not_known_nextKey (h.known _ hMem)
  -- the next key finds nothing yet, so it is none that finds a value
  insert_keeps new key value hFound := by
    have hKept : (j.slab.insert new).2.get? key = some value := by
      rw [h.sound.get?_insert, if_neg, hFound]
      rintro rfl
      rw [h.sound.get?_nextKey] at hFound
      exact absurd hFound (by simp)
    obtain ⟨hAt, hGeneration⟩ := get?_eq_some_iff.mp hKept
    refine ⟨hKept, hAt, ?_⟩
    rw [keyAt?_eq, hAt, hGeneration]
    rfl
  remove_fst key := by
    rw [← h.get?_eq]
    unfold Slab.remove
    cases j.slab.get? key <;> rfl
  at?_iff i value := by
    constructor
    · intro hAt
      exact ⟨⟨i, j.slab.generationAt i⟩, rfl, get?_eq_some_iff.mpr ⟨hAt, rfl⟩⟩
    · rintro ⟨key, rfl, hFound⟩
      exact at?_of_get? hFound
  keyAt?_iff i key := by
    rw [keyAt?_eq, Option.map_eq_some_iff]
    constructor
    · rintro ⟨value, hAt, rfl⟩
      have hFound : j.slab.get? ⟨i, j.slab.generationAt i⟩ = some value :=
        get?_eq_some_iff.mpr ⟨hAt, rfl⟩
      exact ⟨rfl, by rw [hFound]; rfl⟩
    · rintro ⟨rfl, hSome⟩
      obtain ⟨value, hFound⟩ := Option.isSome_iff_exists.mp hSome
      obtain ⟨hAt, hGeneration⟩ := get?_eq_some_iff.mp hFound
      exact ⟨value, hAt, by rw [hGeneration]⟩
  length_entries := h.sound.length_entries h.counted
  mem_entries _ _ := Slab.mem_entries
  sorted_entries := j.slab.sorted_entries

/-- Whatever is asked of a slab one value at a time, as long as fewer values are taken than there
are generations, it is a keyed store. -/
theorem run_keyed_store {ops : List (Op α)} (hWhole : .drain ∉ ops)
    (hFew : removals (start.run ops).events < 2 ^ 32) :
    (start.run ops).KeyedStore :=
  (timely_start.run hFew).keyedStore (drained_notMem_run List.not_mem_nil hWhole)

/-- A slot that a value was taken from is used again, and its first key finds nothing, is not taken
from and not written to. -/
theorem run_keyed_store_slot_again :
    let ops : List (Op Nat) := [.insert 1, .insert 2, .remove ⟨0, 0⟩, .put ⟨0, 0⟩ 9, .insert 3,
      .put ⟨1, 0⟩ 5, .remove ⟨0, 0⟩]
    let j := (start : Journal Nat).run ops
    Op.drain ∉ ops ∧ removals j.events < 2 ^ 32 ∧ j.KeyedStore ∧
      issued j.events = [⟨0, 1⟩, ⟨1, 0⟩, ⟨0, 0⟩] ∧
      j.slab.entries = [(⟨0, 1⟩, 3), (⟨1, 0⟩, 5)] ∧ j.slab.get? ⟨0, 0⟩ = none := by
  intro ops j
  have hWhole : Op.drain ∉ ops := by decide
  have hFew : removals j.events < 2 ^ 32 := by decide +kernel
  refine ⟨hWhole, hFew, run_keyed_store hWhole hFew, ?_, ?_, ?_⟩
  · decide +kernel
  · decide +kernel
  · decide +kernel

-- ---------------------------------------------------------------------------
-- Keys that find nothing any more
-- ---------------------------------------------------------------------------

/-- A key finds nothing, nothing is taken under it and nothing is put under it. -/
structure Gone (s : Slab α) (key : Key) : Prop where
  get? : s.get? key = none
  remove : s.remove key = none
  put : ∀ value, s.act (.put key value) = s

theorem gone_of_get? (h : s.get? key = none) : Gone s key where
  get? := h
  remove := remove_eq_none_iff.mpr h
  put value := by rw [act, h]

/-- A key that is spent stays so, unless the slots go. -/
theorem Timely.spent_run (h : j.Timely) (hSpent : j.slab.Spent key) (hWhole : .drain ∉ ops)
    (hFew : removals (j.run ops).events < 2 ^ 32) : (j.run ops).slab.Spent key := by
  induction ops generalizing j with
  | nil => exact hSpent
  | cons op rest ih =>
    rw [List.mem_cons, not_or] at hWhole
    have hSoon := (removals_le_run (j.step op) rest).trans_lt hFew
    have hAfter := (j.slab.does_act op).spent hSpent (Ne.symm hWhole.1) (h.climbs hSoon)
    exact ih (h.step hSoon) hAfter hWhole.2 hFew

/-- A key that was given and finds nothing any more finds nothing ever after, as long as the slots
stay and fewer values are taken than there are generations. Once the slots go, the slab does what a
new one does, and so it may give the key again. -/
theorem run_gone_until_drain {before after : List (Op α)}
    (hFew : removals (start.run (before ++ after)).events < 2 ^ 32) :
    (∀ key ∈ issued (sinceDrain (start.run before).events),
      (start.run before).slab.get? key = none → .drain ∉ after →
        Gone (start.run (before ++ after)).slab key) ∧
      ∀ early late, after = early ++ .drain :: late →
        (start.run (before ++ after)).slab = (start.run late).slab := by
  rw [run_append] at hFew ⊢
  constructor
  · intro key hIssued hNone hWhole
    have hTimely := timely_start.run ((removals_le_run _ after).trans_lt hFew)
    rcases hTimely.known key hIssued with hSome | hSpent
    · rw [hNone] at hSome
      exact absurd hSome (by simp)
    · exact gone_of_get? (hTimely.spent_run hSpent hWhole hFew).get?_eq_none
  · rintro early late rfl
    rw [slab_run, List.foldl_append, slab_run start late]
    rfl

/-- The first key of a slot that is used again is gone; when all values go, the slab is as new. -/
theorem run_gone_until_drain_slot_again :
    let before : List (Op Nat) := [.insert 1, .remove ⟨0, 0⟩]
    let after : List (Op Nat) := [.insert 2, .put ⟨0, 0⟩ 9, .insert 3]
    let onwards : List (Op Nat) := after ++ [.drain, .insert 4]
    removals (start.run (before ++ after)).events < 2 ^ 32 ∧
      Gone (start.run (before ++ after)).slab ⟨0, 0⟩ ∧
      removals (start.run (before ++ onwards)).events < 2 ^ 32 ∧
      (start.run (before ++ onwards)).slab = (start.run [.insert 4]).slab := by
  intro before after onwards
  have hFew : removals (start.run (before ++ after)).events < 2 ^ 32 := by decide +kernel
  have hFewOn : removals (start.run (before ++ onwards)).events < 2 ^ 32 := by decide +kernel
  refine ⟨hFew, (run_gone_until_drain hFew).1 ⟨0, 0⟩ ?_ ?_ ?_, hFewOn,
    (run_gone_until_drain hFewOn).2 after _ rfl⟩
  · decide +kernel
  · decide +kernel
  · decide

/-- When all values went, a key whose value went with them finds the next value that comes. -/
theorem drained_key_given_again :
    ¬ ∀ (before after : List (Op Nat)) (key : Key), before.length + after.length < 2 ^ 32 →
      key ∈ issued (start.run before).events →
      (start.run before).slab.get? key = none →
      (start.run (before ++ after)).slab.get? key = none := by
  intro hAll
  have hNone := hAll [.insert 1, .drain] [.insert 2] ⟨0, 0⟩ (by decide) (by decide +kernel)
    (by decide +kernel)
  have hFound : (start.run ([.insert 1, .drain] ++ [.insert 2])).slab.get? ⟨0, 0⟩ =
      some 2 := by decide +kernel
  rw [hFound] at hNone
  exact absurd hNone (by simp)

end Journal

end BlockPool.Slab
