/-!
# BlockPool — machine words

Sizes, counts and offsets are natural numbers; what a 64-bit word can hold is said here, once.

* `Word.limit` — the number of values of a word; every size below it is representable.
* `Word.alignUp?` — the least multiple of a power of two that is at least a value, if it still
  fits a word.
* `Word.nextPowerOfTwo` — the least power of two at or above a value, or the largest power of two
  a word can hold.
* `Word.log2` — the place of the highest set bit, by counting the zeros above it.
-/

namespace BlockPool.Word

/-- The number of bits of a word. -/
def bits : Nat := 64

/-- The number of values of a word. -/
def limit : Nat := 1 <<< 64

/-- The largest word. -/
def maxValue : Nat := limit - 1

/-- The largest signed word, which also bounds the size of any single object in memory. -/
def maxSigned : Nat := 1 <<< 63 - 1

/-- The sum of two words, if it is a word. -/
def add? (a b : Nat) : Option Nat :=
  if a + b < limit then some (a + b) else none

/-- A word moved left; the bits that leave it at the top are lost. -/
def shiftLeft (value amount : Nat) : Nat :=
  (value <<< amount) % limit

/-- Whether exactly one bit of the number is set: a power of two has no bit in common with its
predecessor. -/
def isPowerOfTwo (n : Nat) : Bool :=
  n != 0 && n &&& (n - 1) == 0

-- ---------------------------------------------------------------------------
-- Alignment
-- ---------------------------------------------------------------------------

/-- Whether `value` is a multiple of `align`; only powers of two are alignments. -/
def isAligned? (value align : Nat) : Option Bool :=
  if isPowerOfTwo align then some (value % align == 0) else none

/-- The least multiple of `align` that is at least `value`. There is none when `align` is not a
power of two or when the step past `value` leaves the word. -/
def alignUp? (value align : Nat) : Option Nat :=
  if isPowerOfTwo align then
    (add? value (align - 1)).map fun sum => sum / align * align
  else none

-- ---------------------------------------------------------------------------
-- Powers of two
-- ---------------------------------------------------------------------------

/-- Copies the highest set bit of a word into every lower position: each step doubles the length
of the run of ones below it, so six steps fill 64 bits. -/
def smear (n : Nat) : Nat :=
  [1, 2, 4, 8, 16, 32].foldl (fun filled step => filled ||| filled >>> step) n

/-- The least power of two that is at least `value` and at least one. Where that would leave the
word, the highest power of two that a word holds. -/
def nextPowerOfTwo (value : Nat) : Nat :=
  if value ≤ 1 then 1
  else (add? (smear (value - 1)) 1).getD (1 <<< 63)

/-- The number of zeros above the highest set bit of a word; all of its places for zero. -/
def leadingZeros (value : Nat) : Nat :=
  (BitVec.ofNat bits value).clz.toNat

/-- The logarithm of a word to base two, rounded down, and zero for zero. -/
def log2 (value : Nat) : Nat :=
  if value = 0 then 0 else bits - 1 - leadingZeros value

/-- The number of binary digits of `n`, zero for zero. -/
def bitLength (n : Nat) : Nat :=
  if n = 0 then 0 else n.log2 + 1

end BlockPool.Word
