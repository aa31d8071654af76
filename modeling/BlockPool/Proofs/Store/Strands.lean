import BlockPool.Proofs.Store.Chain

/-!
# BlockPool — chains that run through one slab

Any number of chains share the nodes of one slab: each node has room for one link, so its slot is in
one chain at most, and every operation on one chain writes links that the others might read. Here a
slab and its chains are kept beside the rows of slots that they are to stand for; whatever is asked,
as long as a value goes only while it is in no chain and a slot is taken only out of its own, every
chain is its row.

* `Chain.walkBackFrom` — the slots from the last one backwards.
* `Chain.Strands` — a slab, its chains and their rows; `Chain.Strands.Allows` is what a caller must
  see to.
* `Chain.Strands.Sound` — what every request keeps.
* `Chain.Strands.run_rows_faithful` — after any requests every chain is its row.
-/

namespace BlockPool

namespace Chain

variable {α : Type} {c c' : Chain} {nodes after : Nodes α} {xs : List Nat} {i : Nat}

-- ---------------------------------------------------------------------------
-- Backwards
-- ---------------------------------------------------------------------------

/-- The slot that precedes another. -/
def prev? (nodes : Nodes α) (index : Nat) : Option Nat :=
  (nodes.link? index).bind (·.prev)

/-- At most `count` slots, from `start` backwards. -/
def walkBackFrom (nodes : Nodes α) : Nat → Option Nat → List Nat
  | 0, _ => []
  | _, none => []
  | count + 1, some index => index :: walkBackFrom nodes count (prev? nodes index)

/-- Walking back along a row visits its slots in the opposite order, and then stops. -/
theorem walkBackFrom_take {next : Option Nat} (h : nodes.Strung none xs next) (count : Nat) :
    walkBackFrom nodes count xs.getLast? = xs.reverse.take count := by
  induction xs using List.reverseRecOn generalizing next count with
  | nil => cases count <;> rfl
  | append_singleton xs x ih =>
    obtain ⟨hRest, hLink, -⟩ := Nodes.strung_append.mp h
    cases count with
    | zero => rfl
    | succ count =>
      rw [List.getLast?_concat, walkBackFrom, prev?, hLink, Option.bind_some, Option.or_none,
        ih hRest, List.reverse_concat, List.take_succ_cons]

-- ---------------------------------------------------------------------------
-- Refusals
-- ---------------------------------------------------------------------------

/-- A slot cannot be pushed exactly if it has no value or is linked already. -/
theorem pushFront_eq_none_iff :
    c.pushFront nodes i = none ↔ ∀ link, nodes.link? i = some link → link.linked = true := by
  unfold pushFront
  cases hLink : nodes.link? i with
  | none => simp
  | some link =>
    by_cases hLinked : link.linked = true
    · simp [hLinked]
    · dsimp only
      rw [if_neg hLinked]
      refine iff_of_false ?_ fun hAll => hLinked (hAll link rfl)
      split
      · split <;> simp
      · simp

theorem pushBack_eq_none_iff :
    c.pushBack nodes i = none ↔ ∀ link, nodes.link? i = some link → link.linked = true := by
  unfold pushBack
  cases hLink : nodes.link? i with
  | none => simp
  | some link =>
    by_cases hLinked : link.linked = true
    · simp [hLinked]
    · dsimp only
      rw [if_neg hLinked]
      refine iff_of_false ?_ fun hAll => hLinked (hAll link rfl)
      split
      · split <;> simp
      · simp

/-- A slot cannot be taken out exactly if it has no value or is not linked. -/
theorem unlink_eq_none_iff :
    c.unlink nodes i = none ↔ ∀ link, nodes.link? i = some link → link.linked = false := by
  unfold unlink
  cases hLink : nodes.link? i with
  | none => simp
  | some link => cases hLinked : link.linked <;> simp [hLinked]

-- ---------------------------------------------------------------------------
-- Chains in use
-- ---------------------------------------------------------------------------

/-- A slab, the chains that run through it, and beside each chain the row of slots that it is to
stand for. -/
structure Strands (n : Nat) (α : Type) where
  nodes : Nodes α
  chain : Fin n → Chain
  row : Fin n → List Nat

namespace Strands

variable {n : Nat} {s : Strands n α} {k : Fin n}

/-- What can be asked of the slab and of the chains. -/
inductive Op (n : Nat) (α : Type) where
  /-- A value comes, in no chain. -/
  | insert (value : α)
  /-- The value under a key goes. -/
  | remove (key : Slab.Key)
  /-- Another value comes in place of the one under a key. -/
  | put (key : Slab.Key) (value : α)
  | pushFront (k : Fin n) (index : Nat)
  | pushBack (k : Fin n) (index : Nat)
  | unlink (k : Fin n) (index : Nat)
  | popFront (k : Fin n)

/-- An empty slab and chains of no slots. -/
def start : Strands n α := ⟨Slab.empty, fun _ => empty, fun _ => []⟩

/-- Whether a slot has a value. -/
def Present (s : Strands n α) (i : Nat) : Prop := (s.nodes.at? i).isSome = true

/-- Whether a slot has a value that is in no row. -/
def Loose (s : Strands n α) (i : Nat) : Prop := s.Present i ∧ ∀ k, i ∉ s.row k

instance (s : Strands n α) (i : Nat) : Decidable (s.Loose i) :=
  inferInstanceAs (Decidable ((s.nodes.at? i).isSome = true ∧ ∀ k, i ∉ s.row k))

/-- The slab and the chains after one chain was asked for something. -/
def relinked (s : Strands n α) (k : Fin n) :
    Option (Chain × Nodes α) → Nodes α × (Fin n → Chain)
  | some (c, nodes) => (nodes, Function.update s.chain k c)
  | none => (s.nodes, s.chain)

/-- What becomes of the slab and the chains. -/
def act (s : Strands n α) : Op n α → Nodes α × (Fin n → Chain)
  | .insert value => ((s.nodes.insertValue value).2, s.chain)
  | .remove key =>
    match s.nodes.remove key with
    | some (_, nodes) => (nodes, s.chain)
    | none => (s.nodes, s.chain)
  | .put key value =>
    match s.nodes.get? key with
    | some _ => (s.nodes.putValue key.index value, s.chain)
    | none => (s.nodes, s.chain)
  | .pushFront k i => s.relinked k ((s.chain k).pushFront s.nodes i)
  | .pushBack k i => s.relinked k ((s.chain k).pushBack s.nodes i)
  | .unlink k i => s.relinked k ((s.chain k).unlink s.nodes i)
  | .popFront k => s.relinked k (some ((s.chain k).popFront s.nodes).2)

/-- What is to become of the rows: a loose slot comes to one end, a slot goes from where it is. -/
def rowsAfter (s : Strands n α) : Op n α → Fin n → List Nat
  | .insert _ | .remove _ | .put _ _ => s.row
  | .pushFront k i => if s.Loose i then Function.update s.row k (i :: s.row k) else s.row
  | .pushBack k i => if s.Loose i then Function.update s.row k (s.row k ++ [i]) else s.row
  | .unlink k i => Function.update s.row k ((s.row k).erase i)
  | .popFront k => Function.update s.row k (s.row k).tail

/-- One request. -/
def step (s : Strands n α) (op : Op n α) : Strands n α :=
  ⟨(s.act op).1, (s.act op).2, s.rowsAfter op⟩

/-- One request after the other. -/
def run (s : Strands n α) (ops : List (Op n α)) : Strands n α := ops.foldl step s

/-- What a caller must see to: a value goes only while it is in no row, and a chain is asked for a
slot of its own or for one that is in no row. A key that finds nothing is no matter. -/
def Allows (s : Strands n α) : Op n α → Prop
  | .remove key => (s.nodes.get? key).isNone = true ∨ ∀ k, key.index ∉ s.row k
  | .unlink k i => i ∈ s.row k ∨ ∀ k, i ∉ s.row k
  | _ => True

instance (s : Strands n α) (op : Op n α) : Decidable (s.Allows op) :=
  match op with
  | .remove key =>
    inferInstanceAs (Decidable ((s.nodes.get? key).isNone = true ∨ ∀ k, key.index ∉ s.row k))
  | .unlink k i => inferInstanceAs (Decidable (i ∈ s.row k ∨ ∀ k, i ∉ s.row k))
  | .insert _ | .put _ _ | .pushFront _ _ | .pushBack _ _ | .popFront _ =>
    inferInstanceAs (Decidable True)

/-- Requests that are allowed, each at its turn. -/
def Orderly (s : Strands n α) : List (Op n α) → Prop
  | [] => True
  | op :: rest => s.Allows op ∧ (s.step op).Orderly rest

instance decidableOrderly (s : Strands n α) : (ops : List (Op n α)) → Decidable (s.Orderly ops)
  | [] => inferInstanceAs (Decidable True)
  | op :: rest =>
    have := decidableOrderly (s.step op) rest
    inferInstanceAs (Decidable (s.Allows op ∧ (s.step op).Orderly rest))

-- ---------------------------------------------------------------------------
-- What every request keeps
-- ---------------------------------------------------------------------------

/-- Every chain stands for its row, no slot is in two rows, and a value in no row is unlinked. -/
structure Sound (s : Strands n α) : Prop where
  slab : s.nodes.Sound
  spells : ∀ k, (s.chain k).Spells s.nodes (s.row k)
  apart : ∀ k k' i, i ∈ s.row k → i ∈ s.row k' → k = k'
  loose : ∀ i link, s.nodes.link? i = some link → (∀ k, i ∉ s.row k) → link.linked = false

theorem sound_start : (start : Strands n α).Sound where
  slab := Slab.sound_empty
  spells _ := spells_empty _
  apart _ _ _ hi := absurd hi List.not_mem_nil
  loose i link hLink := by simp [start, Nodes.link?, Slab.empty, Slab.at?] at hLink

/-- A value in a row is linked, and any other is not. -/
theorem Sound.linked_iff (h : s.Sound) {link : Link} (hLink : s.nodes.link? i = some link) :
    link.linked = true ↔ ∃ k, i ∈ s.row k := by
  constructor
  · intro hLinked
    by_contra hNone
    rw [h.loose i link hLink (not_exists.mp hNone)] at hLinked
    exact absurd hLinked (by simp)
  · rintro ⟨k, hMem⟩
    obtain ⟨link', hLink', hLinked⟩ := (h.spells k).strung.exists_link hMem
    obtain rfl : link = link' := by simpa [hLink] using hLink'
    exact hLinked

theorem present_iff : s.Present i ↔ ∃ link, s.nodes.link? i = some link := by
  rw [Present, ← Option.isSome_iff_exists, Nodes.link?, Option.isSome_map]

theorem Sound.present (h : s.Sound) (hMem : i ∈ s.row k) : s.Present i := by
  obtain ⟨link, hLink, -⟩ := (h.spells k).strung.exists_link hMem
  exact present_iff.mpr ⟨link, hLink⟩

/-- A loose slot has a link that may be set. -/
theorem Sound.loose_iff (h : s.Sound) :
    s.Loose i ↔ ∃ link, s.nodes.link? i = some link ∧ link.linked = false := by
  rw [Loose, present_iff]
  constructor
  · rintro ⟨⟨link, hLink⟩, hOut⟩
    exact ⟨link, hLink, h.loose i link hLink hOut⟩
  · rintro ⟨link, hLink, hLoose⟩
    refine ⟨⟨link, hLink⟩, fun k hMem => ?_⟩
    rw [(h.linked_iff hLink).mpr ⟨k, hMem⟩] at hLoose
    exact absurd hLoose (by simp)

theorem Sound.not_loose_iff (h : s.Sound) :
    ¬ s.Loose i ↔ ∀ link, s.nodes.link? i = some link → link.linked = true := by
  rw [h.loose_iff]
  simp

/-- A slot is in no row if its value is unlinked, or if it has none. -/
theorem Sound.forall_notMem_iff (h : s.Sound) : (∀ k, i ∉ s.row k) ↔
    ∀ link, s.nodes.link? i = some link → link.linked = false := by
  constructor
  · exact fun hOut link hLink => h.loose i link hLink hOut
  · intro hAll k hMem
    obtain ⟨link, hLink, hLinked⟩ := (h.spells k).strung.exists_link hMem
    rw [hAll link hLink] at hLinked
    exact absurd hLinked (by simp)

/-- The links of the rows stay; a value may come or go beside them. -/
theorem Sound.beside (h : s.Sound) (hSlab : after.Sound)
    (hLinks : ∀ i link, s.nodes.link? i = some link → link.linked = true →
      after.link? i = s.nodes.link? i)
    (hLoose : ∀ i link, after.link? i = some link → (∀ k, i ∉ s.row k) → link.linked = false) :
    (⟨after, s.chain, s.row⟩ : Strands n α).Sound where
  slab := hSlab
  spells k := by
    refine (h.spells k).congr fun i hMem => ?_
    obtain ⟨link, hLink, hLinked⟩ := (h.spells k).strung.exists_link hMem
    exact hLinks i link hLink hLinked
  apart := h.apart
  loose := hLoose

/-- One chain stands for another row, which differs from its old one by at most one slot. -/
theorem Sound.replace (h : s.Sound) {ys : List Nat} (hSlab : after.Sound)
    (hSpells : c'.Spells after ys) (hSame : ∀ j, j ≠ i → (j ∈ ys ↔ j ∈ s.row k))
    (hOthers : ∀ k', k' ≠ k → i ∉ s.row k')
    (hLinks : ∀ j, j ≠ i → j ∉ s.row k → after.link? j = s.nodes.link? j)
    (hLoose : i ∉ ys → ∀ link, after.link? i = some link → link.linked = false) :
    (⟨after, Function.update s.chain k c', Function.update s.row k ys⟩ : Strands n α).Sound := by
  -- a slot of another row is not of this one, neither before nor after
  have hOut : ∀ k', k' ≠ k → ∀ j ∈ s.row k', j ≠ i ∧ j ∉ s.row k := fun k' hk j hj =>
    ⟨fun hEq => hOthers k' hk (hEq ▸ hj), fun hMem => hk (h.apart k' k j hj hMem)⟩
  have hApart : ∀ k', k' ≠ k → ∀ j ∈ s.row k', j ∉ ys := fun k' hk j hj hMem =>
    (hOut k' hk j hj).2 ((hSame j (hOut k' hk j hj).1).mp hMem)
  refine ⟨hSlab, fun k' => ?_, fun k₁ k₂ j hj₁ hj₂ => ?_, fun j link hLink hNone => ?_⟩
  -- the row itself, and the others, which are where they were
  · by_cases hk : k' = k
    · subst hk
      simpa using hSpells
    · simp only [Function.update_of_ne hk]
      exact (h.spells k').congr fun j hj => hLinks j (hOut k' hk j hj).1 (hOut k' hk j hj).2
  · dsimp only at hj₁ hj₂
    by_cases hk₁ : k₁ = k <;> by_cases hk₂ : k₂ = k
    · rw [hk₁, hk₂]
    · rw [hk₁, Function.update_self] at hj₁
      rw [Function.update_of_ne hk₂] at hj₂
      exact absurd hj₁ (hApart k₂ hk₂ j hj₂)
    · rw [hk₂, Function.update_self] at hj₂
      rw [Function.update_of_ne hk₁] at hj₁
      exact absurd hj₂ (hApart k₁ hk₁ j hj₁)
    · rw [Function.update_of_ne hk₁] at hj₁
      rw [Function.update_of_ne hk₂] at hj₂
      exact h.apart k₁ k₂ j hj₁ hj₂
  · dsimp only at hLink hNone
    have hys : j ∉ ys := by
      have hHere := hNone k
      rwa [Function.update_self] at hHere
    by_cases hj : j = i
    · subst hj
      exact hLoose hys link hLink
    -- a slot that is in no row now was in none before, but for the one
    · have hRow : j ∉ s.row k := mt (hSame j hj).mpr hys
      rw [hLinks j hj hRow] at hLink
      refine h.loose j link hLink fun k' => ?_
      by_cases hk : k' = k
      · rw [hk]
        exact hRow
      · have hThere := hNone k'
        rwa [Function.update_of_ne hk] at hThere

theorem Sound.insert (h : s.Sound) (value : α) : (s.step (.insert value)).Sound := by
  have hNext : ∀ link, s.nodes.link? s.nodes.nextKey.index ≠ some link := fun link hLink => by
    rw [Nodes.link?, h.slab.at?_nextKey] at hLink
    exact absurd hLink (by simp)
  unfold Strands.step Strands.act
  dsimp only
  refine h.beside (Nodes.sound_insertValue h.slab value) (fun i link hLink _ => ?_)
    fun i link hLink hOut => ?_
  · rw [Nodes.link?_insertValue h.slab, if_neg]
    rintro rfl
    exact hNext link hLink
  · rw [Nodes.link?_insertValue h.slab] at hLink
    split at hLink
    · obtain rfl := Option.some.inj hLink
      rfl
    · exact h.loose i link hLink hOut

/-- A value that is in no row can go, and a key that finds nothing changes nothing. -/
theorem Sound.remove (h : s.Sound) {key : Slab.Key} (hAllows : s.Allows (.remove key)) :
    (s.step (.remove key)).Sound := by
  unfold Strands.step Strands.act
  dsimp only
  cases hRemove : s.nodes.remove key with
  | none => exact h
  | some taken =>
    obtain ⟨node, nodes⟩ := taken
    -- only a value that is in no row may be removed
    have hOut : ∀ k, key.index ∉ s.row k := by
      obtain ⟨hFound, -⟩ := Slab.remove_eq_some hRemove
      rcases hAllows with hNone | hOut
      · rw [hFound] at hNone
        exact absurd hNone (by simp)
      · exact hOut
    refine h.beside (h.slab.remove hRemove) (fun i link hLink hLinked => ?_)
      fun i link hLink hFree => ?_
    · rw [Nodes.link?_remove hRemove, if_neg]
      rintro rfl
      obtain ⟨k, hMem⟩ := (h.linked_iff hLink).mp hLinked
      exact hOut k hMem
    · rw [Nodes.link?_remove hRemove] at hLink
      split at hLink
      · exact absurd hLink (by simp)
      · exact h.loose i link hLink hFree

theorem Sound.put (h : s.Sound) (key : Slab.Key) (value : α) :
    (s.step (.put key value)).Sound := by
  unfold Strands.step Strands.act
  dsimp only
  split
  · refine h.beside ((Nodes.sameKeys_putValue ..).sound h.slab) (fun i link _ _ => ?_)
      fun i link hLink hOut => ?_
    · exact Nodes.link?_putValue ..
    · rw [Nodes.link?_putValue] at hLink
      exact h.loose i link hLink hOut
  · exact h

/-- A slot that was loose comes to one end of a row. -/
theorem Sound.join (h : s.Sound) (hLoose : s.Loose i) {ys : List Nat} (hSlab : after.Sound)
    (hSpells : c'.Spells after ys) (hMem : ∀ j, j ∈ ys ↔ j = i ∨ j ∈ s.row k)
    (hLinks : ∀ j, j ≠ i → j ∉ s.row k → after.link? j = s.nodes.link? j) :
    (⟨after, Function.update s.chain k c', Function.update s.row k ys⟩ : Strands n α).Sound :=
  h.replace hSlab hSpells (fun j hj => by simp [hMem, hj]) (fun k' _ => hLoose.2 k') hLinks
    fun hOut => absurd ((hMem i).mpr (.inl rfl)) hOut

theorem Sound.pushFront (h : s.Sound) (k : Fin n) (i : Nat) :
    (s.step (.pushFront k i)).Sound := by
  unfold Strands.step Strands.act Strands.rowsAfter
  dsimp only
  by_cases hLoose : s.Loose i
  · obtain ⟨link, hLink, hUnlinked⟩ := h.loose_iff.mp hLoose
    obtain ⟨c', after, hPush, hSpells, hLinks⟩ := (h.spells k).pushFront hLink hUnlinked
    rw [hPush, if_pos hLoose]
    exact h.join hLoose ((relinked_pushFront hPush).sound h.slab) hSpells
      (fun j => List.mem_cons) hLinks
  · rw [pushFront_eq_none_iff.mpr (h.not_loose_iff.mp hLoose), if_neg hLoose]
    exact h

theorem Sound.pushBack (h : s.Sound) (k : Fin n) (i : Nat) : (s.step (.pushBack k i)).Sound := by
  unfold Strands.step Strands.act Strands.rowsAfter
  dsimp only
  by_cases hLoose : s.Loose i
  · obtain ⟨link, hLink, hUnlinked⟩ := h.loose_iff.mp hLoose
    obtain ⟨c', after, hPush, hSpells, hLinks⟩ := (h.spells k).pushBack hLink hUnlinked
    rw [hPush, if_pos hLoose]
    exact h.join hLoose ((relinked_pushBack hPush).sound h.slab) hSpells
      (fun j => by rw [List.mem_append, List.mem_singleton, or_comm]) hLinks
  · rw [pushBack_eq_none_iff.mpr (h.not_loose_iff.mp hLoose), if_neg hLoose]
    exact h

/-- A slot goes from where it stands in a row. -/
theorem Sound.part (h : s.Sound) {as bs : List Nat} (hRow : s.row k = as ++ i :: bs) :
    ∃ c' after, (s.chain k).unlink s.nodes i = some (c', after) ∧
      (⟨after, Function.update s.chain k c', Function.update s.row k (as ++ bs)⟩ :
        Strands n α).Sound := by
  have hSpells := h.spells k
  rw [hRow] at hSpells
  obtain ⟨c', after, hUnlink, hAfter, hAlone, hLinks⟩ := hSpells.unlink
  have hMem : i ∈ s.row k := by simp [hRow]
  refine ⟨c', after, hUnlink, h.replace ((relinked_unlink hUnlink).sound h.slab) hAfter
    (fun j hj => by simp [hRow, hj]) (fun k' hk hThere => hk (h.apart k' k i hThere hMem))
    (fun j _ hj => hLinks j (hRow ▸ hj)) fun _ link hLink => ?_⟩
  obtain rfl : {} = link := by simpa [hAlone] using hLink
  rfl

theorem Sound.unlink (h : s.Sound) (hAllows : s.Allows (.unlink k i)) :
    (s.step (.unlink k i)).Sound := by
  unfold Strands.step Strands.act Strands.rowsAfter
  dsimp only
  rcases hAllows with hMem | hOut
  · obtain ⟨as, bs, hRow⟩ := List.append_of_mem hMem
    obtain ⟨c', after, hUnlink, hAfter⟩ := h.part hRow
    have hNodup := (h.spells k).nodup
    rw [hRow, List.nodup_middle, List.nodup_cons, List.mem_append, not_or] at hNodup
    rw [hUnlink, hRow, List.erase_append_right _ hNodup.1.1, List.erase_cons_head]
    exact hAfter
  · rw [unlink_eq_none_iff.mpr (h.forall_notMem_iff.mp hOut), List.erase_of_not_mem (hOut k),
      Function.update_eq_self]
    exact h

/-- The first slot of a row is the one that comes out. -/
theorem Sound.popFront (h : s.Sound) (k : Fin n) :
    ((s.chain k).popFront s.nodes).1 = (s.row k).head? ∧ (s.step (.popFront k)).Sound := by
  have hHead := (h.spells k).head
  unfold Strands.step Strands.act Strands.rowsAfter Chain.popFront
  dsimp only
  cases hRow : s.row k with
  | nil =>
    rw [hRow] at hHead
    rw [hHead]
    have hSame : Function.update s.row k [] = s.row := by
      rw [← hRow, Function.update_eq_self]
    rw [List.head?_nil, List.tail_nil, hSame]
    refine ⟨rfl, ?_⟩
    show (⟨s.nodes, Function.update s.chain k (s.chain k), s.row⟩ : Strands n α).Sound
    rw [Function.update_eq_self]
    exact h
  | cons i rest =>
    rw [hRow] at hHead
    have hFirst : s.row k = [] ++ i :: rest := hRow
    obtain ⟨c', after, hUnlink, hAfter⟩ := h.part hFirst
    rw [hHead, List.head?_cons]
    dsimp only
    rw [hUnlink]
    exact ⟨rfl, hAfter⟩

theorem Sound.step (h : s.Sound) {op : Op n α} (hAllows : s.Allows op) : (s.step op).Sound := by
  cases op with
  | insert value => exact h.insert value
  | remove key => exact h.remove hAllows
  | put key value => exact h.put key value
  | pushFront k i => exact h.pushFront k i
  | pushBack k i => exact h.pushBack k i
  | unlink k i => exact h.unlink hAllows
  | popFront k => exact (h.popFront k).2

theorem Sound.run (h : s.Sound) {ops : List (Op n α)} (hOrderly : s.Orderly ops) :
    (s.run ops).Sound := by
  induction ops generalizing s with
  | nil => exact h
  | cons op rest ih => exact ih (h.step hOrderly.1) hOrderly.2

-- ---------------------------------------------------------------------------
-- Chains as rows
-- ---------------------------------------------------------------------------

/-- Every chain is its row, read from either end, and what the next request does is what it does to
the rows. -/
structure Faithful (s : Strands n α) : Prop where
  /-- However many slots are asked for, the walk gives those of the row and ends with it. -/
  walk : ∀ k count, (s.chain k).walk s.nodes count = (s.row k).take count
  walkBack : ∀ k count,
    walkBackFrom s.nodes count (s.chain k).tail = (s.row k).reverse.take count
  head : ∀ k, (s.chain k).head = (s.row k).head?
  tail : ∀ k, (s.chain k).tail = (s.row k).getLast?
  length : ∀ k, (s.chain k).length = (s.row k).length
  nodup : ∀ k, (s.row k).Nodup
  apart : ∀ k k' i, i ∈ s.row k → i ∈ s.row k' → k = k'
  present : ∀ k, ∀ i ∈ s.row k, s.Present i
  linked : ∀ i link, s.nodes.link? i = some link → (link.linked = true ↔ ∃ k, i ∈ s.row k)
  pushFront : ∀ k i, ((s.chain k).pushFront s.nodes i).isSome = true ↔ s.Loose i
  pushBack : ∀ k i, ((s.chain k).pushBack s.nodes i).isSome = true ↔ s.Loose i
  unlink : ∀ k i, ((s.chain k).unlink s.nodes i).isSome = true ↔ ∃ k', i ∈ s.row k'
  popFront : ∀ k, ((s.chain k).popFront s.nodes).1 = (s.row k).head?
  /-- A push that is refused changes nothing, and neither does taking out a slot of no row. -/
  refused : ∀ k i, (¬ s.Loose i → s.step (.pushFront k i) = s ∧ s.step (.pushBack k i) = s) ∧
    ((∀ k', i ∉ s.row k') → s.step (.unlink k i) = s)

theorem Sound.refused (h : s.Sound) (k : Fin n) (i : Nat) :
    (¬ s.Loose i → s.step (.pushFront k i) = s ∧ s.step (.pushBack k i) = s) ∧
      ((∀ k', i ∉ s.row k') → s.step (.unlink k i) = s) := by
  unfold Strands.step Strands.act Strands.rowsAfter
  dsimp only
  constructor
  · intro hLoose
    rw [pushFront_eq_none_iff.mpr (h.not_loose_iff.mp hLoose),
      pushBack_eq_none_iff.mpr (h.not_loose_iff.mp hLoose), if_neg hLoose, if_neg hLoose]
    exact ⟨rfl, rfl⟩
  · intro hOut
    rw [unlink_eq_none_iff.mpr (h.forall_notMem_iff.mp hOut), List.erase_of_not_mem (hOut k),
      Function.update_eq_self]
    rfl

/-- Rows that are spelled by their chains can be read off them, and tell what will be refused. -/
theorem Sound.faithful (h : s.Sound) : s.Faithful where
  walk k count := by
    rw [Chain.walk, (h.spells k).head]
    exact (h.spells k).strung.walkFrom_take count
  walkBack k count := by
    rw [(h.spells k).tail]
    exact walkBackFrom_take (h.spells k).strung count
  head k := (h.spells k).head
  tail k := (h.spells k).tail
  length k := (h.spells k).length
  nodup k := (h.spells k).nodup
  apart := h.apart
  present k i hMem := h.present hMem
  linked i link hLink := h.linked_iff hLink
  pushFront k i := by
    rw [Option.isSome_iff_ne_none, Ne, pushFront_eq_none_iff, ← h.not_loose_iff, not_not]
  pushBack k i := by
    rw [Option.isSome_iff_ne_none, Ne, pushBack_eq_none_iff, ← h.not_loose_iff, not_not]
  unlink k i := by
    rw [Option.isSome_iff_ne_none, Ne, unlink_eq_none_iff, ← h.forall_notMem_iff]
    simp
  popFront k := (h.popFront k).1
  refused := h.refused

/-- However many chains run through one slab, and whatever is asked of them in order, every chain
is its row. -/
theorem run_rows_faithful {ops : List (Op n α)} (hOrderly : (start : Strands n α).Orderly ops) :
    ((start : Strands n α).run ops).Faithful :=
  (sound_start.run hOrderly).faithful

/-- Of four values two come to each end of one chain, one of them moves to the other chain, and the
slot of one that went is used again. -/
theorem run_rows_faithful_two_chains :
    let ops : List (Op 2 Nat) := [.insert 7, .insert 8, .insert 9, .pushBack 0 0, .pushFront 0 1,
      .pushBack 0 2, .pushFront 1 0, .unlink 0 0, .pushFront 1 0, .popFront 0, .remove ⟨1, 0⟩,
      .remove ⟨1, 0⟩, .insert 6, .pushBack 1 1]
    let s := (start : Strands 2 Nat).run ops
    (start : Strands 2 Nat).Orderly ops ∧ s.Faithful ∧ s.row 0 = [2] ∧ s.row 1 = [0, 1] ∧
      s.nodes.value? 1 = some 6 := by
  intro ops s
  have hOrderly : (start : Strands 2 Nat).Orderly ops := by decide +kernel
  refine ⟨hOrderly, run_rows_faithful hOrderly, ?_, ?_, ?_⟩
  · decide +kernel
  · decide +kernel
  · decide +kernel

end Strands

end Chain

end BlockPool
