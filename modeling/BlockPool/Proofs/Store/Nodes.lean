import BlockPool.Store.Chain
import BlockPool.Proofs.Store.Slab

/-!
# BlockPool — values and links in one slab

A slab of nodes serves two masters: its keys find values, and chains run through its links. The
operations of a chain touch links only, so whoever looks a value up does not notice them. That is
what lets the statements about chunks and subpages ignore in which chain something is.

* `Nodes.find?` — the value under a key.
* `Nodes.SameKeys` — the same keys are in use, and the same ones come next.
* `Nodes.Relinked` — the same values under the same keys, whatever the links.
* `Chain.relinked_pushFront`, `Chain.relinked_pushBack`, `Chain.relinked_unlink` — the operations of
  a chain only relink.
-/

namespace BlockPool

namespace Nodes

variable {α : Type} {nodes before after later : Nodes α} {key other : Slab.Key} {value : α}
  {i : Nat}

/-- The value under a key. -/
def find? (nodes : Nodes α) (key : Slab.Key) : Option α := (nodes.get? key).map (·.value)

@[simp] theorem find?_empty (key : Slab.Key) : find? (Slab.empty : Nodes α) key = none := by
  simp [find?]

theorem find?_eq (nodes : Nodes α) (key : Slab.Key) :
    nodes.find? key =
      if nodes.generationAt key.index = key.generation then nodes.value? key.index else none := by
  rw [find?, Slab.get?_eq, value?]
  split <;> simp

/-- The value under a key is the value in the key's slot. -/
theorem value?_of_find? (h : nodes.find? key = some value) :
    nodes.value? key.index = some value := by
  rw [find?_eq] at h
  split at h
  · exact h
  · exact absurd h (by simp)

/-- A value in a slot is found under the slot's own key. -/
theorem find?_of_value? (h : nodes.value? i = some value) :
    nodes.find? ⟨i, nodes.generationAt i⟩ = some value := by
  rw [find?_eq, if_pos rfl]
  exact h

theorem exists_find?_of_value? (h : nodes.value? i = some value) :
    ∃ key : Slab.Key, key.index = i ∧ nodes.find? key = some value :=
  ⟨⟨i, nodes.generationAt i⟩, rfl, find?_of_value? h⟩

theorem get?_isSome_of_find? (h : nodes.find? key = some value) :
    ∃ node, nodes.get? key = some node ∧ node.value = value := by
  simpa [find?] using h

/-- Two keys that both find something in one slot are the same key. -/
theorem key_eq_of_index_eq {value' : α} (h : nodes.find? key = some value)
    (h' : nodes.find? other = some value') (hIndex : key.index = other.index) : key = other := by
  obtain ⟨node, hNode, -⟩ := get?_isSome_of_find? h
  obtain ⟨node', hNode', -⟩ := get?_isSome_of_find? h'
  exact Slab.key_eq_of_index_eq hNode hNode' hIndex

theorem find?_nextKey (hSound : nodes.Sound) : nodes.find? nodes.nextKey = none := by
  rw [find?, hSound.get?_nextKey, Option.map_none]

-- ---------------------------------------------------------------------------
-- The same keys
-- ---------------------------------------------------------------------------

/-- Values under the same keys, in slots that will be given out in the same order. -/
structure SameKeys (before after : Nodes α) : Prop where
  vacant : after.vacant = before.vacant
  slots : after.slots.size = before.slots.size
  generation : ∀ i, after.generationAt i = before.generationAt i
  absent : ∀ i, after.at? i = none ↔ before.at? i = none

theorem SameKeys.trans (h : SameKeys before after) (h' : SameKeys after later) :
    SameKeys before later where
  vacant := h'.vacant.trans h.vacant
  slots := h'.slots.trans h.slots
  generation i := (h'.generation i).trans (h.generation i)
  absent i := (h'.absent i).trans (h.absent i)

theorem SameKeys.sound (h : SameKeys before after) (hSound : before.Sound) : after.Sound where
  nodup := by
    rw [h.vacant]
    exact hSound.nodup
  mem_vacant i := by
    rw [h.vacant, h.slots, h.absent]
    exact hSound.mem_vacant i

theorem sameKeys_modifyAt (nodes : Nodes α) (i : Nat) (f : Node α → Node α) :
    SameKeys nodes (nodes.modifyAt i f) := by
  unfold Slab.modifyAt
  split
  · rename_i node hAt
    refine ⟨Slab.vacant_putAt .., Slab.size_slots_putAt .., Slab.generationAt_putAt _ _ _, ?_⟩
    intro j
    rw [Slab.at?_putAt]
    by_cases hji : j = i <;> simp [hji, hAt]
  · exact ⟨rfl, rfl, fun _ => rfl, fun _ => Iff.rfl⟩

theorem sameKeys_putValue (nodes : Nodes α) (i : Nat) (value : α) :
    SameKeys nodes (nodes.putValue i value) :=
  sameKeys_modifyAt ..

-- ---------------------------------------------------------------------------
-- Values come, change and go
-- ---------------------------------------------------------------------------

theorem insertValue_fst (nodes : Nodes α) (value : α) :
    (nodes.insertValue value).1 = nodes.nextKey :=
  Slab.insert_fst ..

theorem find?_insertValue (hSound : nodes.Sound) (value : α) (key : Slab.Key) :
    (nodes.insertValue value).2.find? key =
      if key = nodes.nextKey then some value else nodes.find? key := by
  rw [find?, insertValue, hSound.get?_insert]
  split <;> rfl

theorem sound_insertValue (hSound : nodes.Sound) (value : α) :
    (nodes.insertValue value).2.Sound :=
  hSound.insert _

theorem value?_putValue (nodes : Nodes α) (i : Nat) (value : α) (j : Nat) :
    (nodes.putValue i value).value? j =
      if j = i ∧ (nodes.value? i).isSome then some value else nodes.value? j := by
  unfold putValue Slab.modifyAt value?
  cases hAt : nodes.at? i with
  | none => simp
  | some node =>
    rw [Slab.at?_putAt]
    by_cases hji : j = i <;> simp [hji, hAt]

/-- Putting a value in the slot of a key changes what that key finds and no other. -/
theorem find?_putValue (h : nodes.find? key = some value) (new : α) (other : Slab.Key) :
    (nodes.putValue key.index new).find? other =
      if other = key then some new else nodes.find? other := by
  have hValue := value?_of_find? h
  rw [find?_eq, (sameKeys_putValue ..).generation, value?_putValue, hValue]
  by_cases hKey : other = key
  · rw [find?_eq] at h
    subst hKey
    split at h
    · rename_i hGen
      simp [hGen]
    · exact absurd h (by simp)
  · rw [if_neg hKey]
    by_cases hIndex : other.index = key.index
    · cases hFind : nodes.find? other with
      | some found => exact absurd (key_eq_of_index_eq hFind h hIndex) hKey
      | none =>
        rw [find?_eq, hIndex, hValue] at hFind
        have hGen : nodes.generationAt key.index ≠ other.generation := by
          intro hGen
          simp [hGen] at hFind
        simp [hIndex, hGen]
    · rw [find?_eq]
      simp [hIndex]

theorem exists_remove (h : nodes.find? key = some value) :
    ∃ node rest, nodes.remove key = some (node, rest) ∧ node.value = value := by
  obtain ⟨node, hNode, hValue⟩ := get?_isSome_of_find? h
  obtain ⟨rest, hRest⟩ := Slab.exists_remove hNode
  exact ⟨node, rest, hRest, hValue⟩

theorem find?_remove {node : Node α} {rest : Nodes α} (h : nodes.remove key = some (node, rest))
    (other : Slab.Key) : rest.find? other = if other = key then none else nodes.find? other := by
  rw [find?, Slab.get?_remove h]
  split <;> rfl

-- ---------------------------------------------------------------------------
-- Relinking
-- ---------------------------------------------------------------------------

/-- The same values under the same keys; only links may differ. -/
structure Relinked (before after : Nodes α) : Prop extends SameKeys before after where
  value : ∀ i, after.value? i = before.value? i

theorem Relinked.refl (nodes : Nodes α) : Relinked nodes nodes :=
  ⟨⟨rfl, rfl, fun _ => rfl, fun _ => Iff.rfl⟩, fun _ => rfl⟩

theorem Relinked.trans (h : Relinked before after) (h' : Relinked after later) :
    Relinked before later :=
  ⟨h.toSameKeys.trans h'.toSameKeys, fun i => (h'.value i).trans (h.value i)⟩

theorem Relinked.find? (h : Relinked before after) (key : Slab.Key) :
    after.find? key = before.find? key := by
  rw [find?_eq, find?_eq, h.generation, h.value]

theorem relinked_modifyLink (nodes : Nodes α) (i : Nat) (f : Link → Link) :
    Relinked nodes (nodes.modifyLink i f) := by
  refine ⟨sameKeys_modifyAt .., fun j => ?_⟩
  unfold modifyLink Slab.modifyAt value?
  split
  · rename_i node hAt
    rw [Slab.at?_putAt]
    by_cases hji : j = i <;> simp [hji, hAt]
  · rfl

end Nodes

-- ---------------------------------------------------------------------------
-- Chains only relink
-- ---------------------------------------------------------------------------

namespace Chain

variable {α : Type} {c c' : Chain} {nodes after : Nodes α} {i : Nat}

theorem relinked_pushFront (h : c.pushFront nodes i = some (c', after)) :
    Nodes.Relinked nodes after := by
  unfold pushFront at h
  split at h
  · exact absurd h (by simp)
  · split at h
    · exact absurd h (by simp)
    · dsimp only at h
      have hFirst := Nodes.relinked_modifyLink nodes i
        fun _ => { next := c.head, prev := none, linked := true }
      split at h
      · split at h
        · obtain ⟨-, rfl⟩ := by simpa using h
          exact hFirst.trans (Nodes.relinked_modifyLink ..)
        · obtain ⟨-, rfl⟩ := by simpa using h
          exact hFirst
      · obtain ⟨-, rfl⟩ := by simpa using h
        exact hFirst

theorem relinked_pushBack (h : c.pushBack nodes i = some (c', after)) :
    Nodes.Relinked nodes after := by
  unfold pushBack at h
  split at h
  · exact absurd h (by simp)
  · split at h
    · exact absurd h (by simp)
    · dsimp only at h
      have hLast := Nodes.relinked_modifyLink nodes i
        fun _ => { next := none, prev := c.tail, linked := true }
      split at h
      · split at h
        · obtain ⟨-, rfl⟩ := by simpa using h
          exact hLast.trans (Nodes.relinked_modifyLink ..)
        · obtain ⟨-, rfl⟩ := by simpa using h
          exact hLast
      · obtain ⟨-, rfl⟩ := by simpa using h
        exact hLast

theorem relinked_joinForward (c : Chain) (nodes : Nodes α) (prev next : Option Nat) :
    Nodes.Relinked nodes (c.joinForward nodes prev next).2 := by
  unfold joinForward
  split
  · split
    · dsimp only
      exact Nodes.relinked_modifyLink ..
    · exact Nodes.Relinked.refl nodes
  · exact Nodes.Relinked.refl nodes

theorem relinked_joinBackward (c : Chain) (nodes : Nodes α) (prev next : Option Nat) :
    Nodes.Relinked nodes (c.joinBackward nodes prev next).2 := by
  unfold joinBackward
  split
  · split
    · dsimp only
      exact Nodes.relinked_modifyLink ..
    · exact Nodes.Relinked.refl nodes
  · exact Nodes.Relinked.refl nodes

theorem relinked_unlink (h : c.unlink nodes i = some (c', after)) :
    Nodes.Relinked nodes after := by
  unfold unlink at h
  split at h
  · exact absurd h (by simp)
  · split at h
    · obtain ⟨-, rfl⟩ := by simpa using h
      exact ((Nodes.relinked_modifyLink nodes i fun _ => {}).trans
        (relinked_joinForward ..)).trans (relinked_joinBackward ..)
    · exact absurd h (by simp)

end Chain

end BlockPool
