/-!
# BlockPool — slabs

A `Slab` stores values under keys that it chooses itself. A key names a slot and the generation
the slot was in when the value came; the generation advances each time a value is removed, so a
key does not find what a later value left in the same slot.

* `Slab.insert`, `Slab.remove`, `Slab.get?` — a value comes, goes and is found by its key.
* `Slab.at?`, `Slab.keyAt?` — the value in a slot, whatever its generation.
* `Slab.entries` — every value with its key, by slot.
-/

namespace BlockPool

/-- The address of a value in a slab. -/
structure Slab.Key where
  index : Nat
  generation : UInt32
deriving DecidableEq, Repr, Inhabited

/-- The key as diagnostics show it. -/
def Slab.Key.describe (key : Slab.Key) : String :=
  "SlabKey \x7b index: " ++ toString key.index
    ++ ", generation: " ++ toString key.generation ++ " \x7d"

/-- A place for one value. -/
structure Slab.Slot (α : Type) where
  value : Option α
  generation : UInt32

/-- Values under keys of the slab's own choice. -/
structure Slab (α : Type) where
  slots : Array (Slab.Slot α)
  /-- The slots without a value, the one vacated last in front. -/
  vacant : List Nat
  /-- The number of values. -/
  size : Nat

namespace Slab

variable {α : Type}

/-- The slab without slots. -/
def empty : Slab α := ⟨#[], [], 0⟩

instance : Inhabited (Slab α) := ⟨empty⟩

/-- Whether there is no value. -/
def isEmpty (s : Slab α) : Bool := s.size == 0

/-- The generation of a slot, zero for a slot that does not exist yet. -/
def generationAt (s : Slab α) (index : Nat) : UInt32 :=
  match s.slots[index]? with
  | some slot => slot.generation
  | none => 0

/-- The key under which the next value will be stored: the slot vacated last, or else a new one. -/
def nextKey (s : Slab α) : Key :=
  match s.vacant with
  | index :: _ => ⟨index, s.generationAt index⟩
  | [] => ⟨s.slots.size, 0⟩

/-- Stores a value under the next key. -/
def insert (s : Slab α) (value : α) : Key × Slab α :=
  match s.vacant with
  | index :: rest =>
    let generation := s.generationAt index
    (⟨index, generation⟩,
      { slots := s.slots.setIfInBounds index ⟨some value, generation⟩
        vacant := rest
        size := s.size + 1 })
  | [] =>
    (⟨s.slots.size, 0⟩,
      { slots := s.slots.push ⟨some value, 0⟩
        vacant := []
        size := s.size + 1 })

/-- The value in a slot. -/
def at? (s : Slab α) (index : Nat) : Option α :=
  s.slots[index]?.bind (·.value)

/-- The value under a key. -/
def get? (s : Slab α) (key : Key) : Option α :=
  match s.slots[key.index]? with
  | some slot => if slot.generation = key.generation then slot.value else none
  | none => none

/-- The key of the value in a slot. -/
def keyAt? (s : Slab α) (index : Nat) : Option Key :=
  match s.slots[index]? with
  | some ⟨some _, generation⟩ => some ⟨index, generation⟩
  | _ => none

/-- Puts another value in place of the one in a slot; a slot without a value stays so. -/
def putAt (s : Slab α) (index : Nat) (value : α) : Slab α :=
  match s.slots[index]? with
  | some ⟨some _, generation⟩ =>
    { s with slots := s.slots.setIfInBounds index ⟨some value, generation⟩ }
  | _ => s

/-- Changes the value in a slot, where there is one. -/
def modifyAt (s : Slab α) (index : Nat) (f : α → α) : Slab α :=
  match s.at? index with
  | some value => s.putAt index (f value)
  | none => s

/-- Takes the value under a key. Its slot enters the next generation. -/
def remove (s : Slab α) (key : Key) : Option (α × Slab α) :=
  match s.get? key with
  | none => none
  | some value =>
    some (value,
      { slots := s.slots.setIfInBounds key.index ⟨none, key.generation + 1⟩
        vacant := key.index :: s.vacant
        size := s.size - 1 })

/-- Every value with its key, by slot. -/
def entries (s : Slab α) : List (Key × α) :=
  s.slots.toList.zipIdx.filterMap fun (slot, index) =>
    slot.value.map fun value => (⟨index, slot.generation⟩, value)

/-- Takes every value, by slot. The slots go too. -/
def drain (s : Slab α) : List α × Slab α :=
  (s.slots.toList.filterMap (·.value), empty)

end Slab

end BlockPool
