/-!
# BlockPool — bitmaps

A `Bitmap` is a finite set of indices below a logical length, kept in 64-bit words. The length can
change within the words, so one that is made for the largest use serves the smaller ones too.

* `Bitmap.set`, `Bitmap.clear` — one index in or out; each refuses a change that is none.
* `Bitmap.findSet?`, `Bitmap.findClear?`, `Bitmap.findClearFrom?` — searches, a word at a time.
-/

namespace BlockPool

/-- Why a bitmap refused an operation. -/
inductive BitmapError where
  | insufficientSize (room need : Nat)
  | outOfBounds (index size : Nat)
  | alreadySet (index : Nat)
  | notSet (index : Nat)
deriving DecidableEq, Repr

/-- The text of the error. -/
def BitmapError.message : BitmapError → String
  | .insufficientSize room need => s!"bitmap holds {room} bits but {need} are needed"
  | .outOfBounds index size => s!"bit {index} out of bounds for bitmap of {size} bits"
  | .alreadySet index => s!"bit {index} is already set"
  | .notSet index => s!"bit {index} is not set"

/-- The kind of the error. -/
def BitmapError.kind : BitmapError → String
  | .insufficientSize _ _ => "InsufficientSize"
  | .outOfBounds _ _ => "OutOfBounds"
  | .alreadySet _ => "AlreadySet"
  | .notSet _ => "NotSet"

/-- A set of indices below `bits`. -/
structure Bitmap where
  /-- The words that hold the bits, lowest index first. -/
  store : Array (BitVec 64)
  /-- The logical length. -/
  bits : Nat
  /-- The number of indices in the set. -/
  used : Nat
deriving DecidableEq, Repr

namespace Bitmap

/-- The bits of a word. -/
def wordBits : Nat := 64

/-- The words that so many bits need. -/
def wordsFor (bits : Nat) : Nat := (bits + (wordBits - 1)) / wordBits

/-- The bytes of the words that so many bits need. -/
def bytesFor (bits : Nat) : Nat := wordsFor bits * 8

/-- The empty set below `bits`, with words enough for `capacity`. There is always one word. -/
def withCapacity (bits capacity : Nat) : Bitmap where
  store := Array.replicate (max (wordsFor (max capacity bits)) 1) 0
  bits := bits
  used := 0

/-- The empty set below `bits`. -/
def empty (bits : Nat) : Bitmap := withCapacity bits bits

instance : Inhabited Bitmap := ⟨empty 0⟩

/-- The number of bits that the words can hold. -/
def available (b : Bitmap) : Nat := b.store.size * wordBits

/-- Whether the words can hold so many bits. -/
def check (b : Bitmap) (need : Nat) : Except BitmapError Unit :=
  if need > b.available then .error (.insufficientSize b.available need) else .ok ()

/-- The word that holds an index. -/
def wordOf (b : Bitmap) (index : Nat) : BitVec 64 := b.store.getD (index / wordBits) 0

/-- The word with one bit set, at the place of the index. -/
def maskOf (index : Nat) : BitVec 64 := 1#64 <<< (index % wordBits)

/-- Whether an index is in the set, without regard to the length. -/
def holds (b : Bitmap) (index : Nat) : Bool := b.wordOf index &&& maskOf index != 0

/-- Whether an index below the length is in the set. -/
def get (b : Bitmap) (index : Nat) : Except BitmapError Bool :=
  if index ≥ b.bits then .error (.outOfBounds index b.bits) else .ok (b.holds index)

/-- Puts an index into the set; it must not be there yet. -/
def set (b : Bitmap) (index : Nat) : Except BitmapError Bitmap :=
  if index ≥ b.bits then .error (.outOfBounds index b.bits)
  else if b.holds index then .error (.alreadySet index)
  else .ok
    { b with
      store := b.store.setIfInBounds (index / wordBits) (b.wordOf index ||| maskOf index)
      used := b.used + 1 }

/-- Takes an index out of the set; it must be there. -/
def clear (b : Bitmap) (index : Nat) : Except BitmapError Bitmap :=
  if index ≥ b.bits then .error (.outOfBounds index b.bits)
  else if b.holds index then .ok
    { b with
      store := b.store.setIfInBounds (index / wordBits) (b.wordOf index &&& ~~~maskOf index)
      used := b.used - 1 }
  else .error (.notSet index)

/-- Takes every index out of the set. -/
def clearAll (b : Bitmap) : Bitmap :=
  { b with store := b.store.map fun _ => 0, used := 0 }

/-- Puts every index below the length into the set: whole words, and of the word the length ends
in the lower part. -/
def setAll (b : Bitmap) : Bitmap :=
  let full := b.bits / wordBits
  let rest := b.bits % wordBits
  { b with
    store := b.store.mapIdx fun i word =>
      if i < full then BitVec.allOnes 64
      else if i = full ∧ rest > 0 then BitVec.allOnes 64 >>> (wordBits - rest)
      else word
    used := b.bits }

/-- Takes every index out of the set and changes the length to `bits`, which the words must be
able to hold. -/
def reset (b : Bitmap) (bits : Nat) : Except BitmapError Bitmap := do
  b.check bits
  return { b.clearAll with bits }

-- ---------------------------------------------------------------------------
-- Searches
-- ---------------------------------------------------------------------------

/-- The place of the lowest bit of a word that is not zero. -/
def lowestBit? (word : BitVec 64) : Option Nat :=
  (List.range wordBits).find? fun i => word.getLsbD i

/-- The first of `count` words from `first` on that is not zero, as seen through `view`, and the
place of its lowest bit. Of the word `start` lies in, only the bits from `start` on are seen. -/
def scan (b : Bitmap) (view : BitVec 64 → BitVec 64) (start : Nat) : Nat → Nat → Option Nat
  | _, 0 => none
  | word, count + 1 =>
    let seen := view (b.store.getD word 0)
    let kept := if word = start / wordBits
      then seen &&& (BitVec.allOnes 64 <<< (start % wordBits))
      else seen
    match lowestBit? kept with
    | some place => some (word * wordBits + place)
    | none => scan b view start (word + 1) count

/-- The first index from `start` on that is in the set as seen through `view`. -/
def findFrom? (b : Bitmap) (view : BitVec 64 → BitVec 64) (start : Nat) : Option Nat :=
  let first := start / wordBits
  (b.scan view start first (wordsFor b.bits - first)).filter (· < b.bits)

/-- The least index in the set. -/
def findSet? (b : Bitmap) : Option Nat := b.findFrom? (fun word => word) 0

/-- The least index below the length that is not in the set. -/
def findClear? (b : Bitmap) : Option Nat := b.findFrom? (fun word => ~~~word) 0

/-- The least index from `start` on that is not in the set, or else the least one at all. -/
def findClearFrom? (b : Bitmap) (start : Nat) : Option Nat :=
  if start ≥ b.bits then b.findClear?
  else (b.findFrom? (fun word => ~~~word) start).or b.findClear?

-- ---------------------------------------------------------------------------
-- How full it is
-- ---------------------------------------------------------------------------

/-- Whether the set is empty. -/
def isClear (b : Bitmap) : Bool := b.used == 0

/-- Whether every index below the length is in the set. -/
def isFull (b : Bitmap) : Bool := b.used == b.bits

/-- Whether some index below the length is not in the set. -/
def hasClear (b : Bitmap) : Bool := b.used < b.bits

end Bitmap

end BlockPool
