import BlockPool.Word

/-!
# BlockPool — geometry and size classes

A `Geometry` fixes how memory is cut: pages of `pageSize` bytes, chunks of `pageSize * 2 ^ maxOrder`
bytes and, where it is not zero, an alignment for every block. From these follow the size that a
request is rounded to and the class it is served from.

* `Geometry.normalize` — the size of the block that serves a request.
* `Geometry.sizeClass` — tiny and small blocks share a page, normal ones are runs of pages, huge
  ones have a memory of their own.
* `Geometry.poolIndex` and `Geometry.poolElemSize` — the pool that serves a tiny or small size.
* `Geometry.runDepth` — how deep in a chunk's tree the runs of a normal size lie.
-/

namespace BlockPool

/-- The four ways to serve a request. -/
inductive SizeClass where
  | tiny
  | small
  | normal
  | huge
deriving DecidableEq, Repr

/-- The name of the class. -/
def SizeClass.name : SizeClass → String
  | .tiny => "tiny"
  | .small => "small"
  | .normal => "normal"
  | .huge => "huge"

/-- The class of a name. -/
def SizeClass.ofName? (name : String) : Option SizeClass :=
  [SizeClass.tiny, .small, .normal, .huge].find? fun k => k.name == name

/-- The sizes that memory is cut into. -/
structure Geometry where
  pageSize : Nat
  maxOrder : Nat
  alignment : Nat
deriving DecidableEq, Repr

namespace Geometry

/-- Tiny sizes lie below this one. -/
def tinyLimit : Nat := 512

/-- The step between two tiny sizes. -/
def tinyQuantum : Nat := 16

/-- One pool for each multiple of the quantum below the limit, zero included. -/
def numTinyPools : Nat := tinyLimit / tinyQuantum

/-- The number of binary places of a page. -/
def pageShift (g : Geometry) : Nat := g.pageSize.log2

/-- The bytes of a chunk, computed in a word. -/
def chunkSize (g : Geometry) : Nat := Word.shiftLeft g.pageSize g.maxOrder

-- ---------------------------------------------------------------------------
-- From a request to a size
-- ---------------------------------------------------------------------------

/-- Rounds a huge request to the alignment, where there is one and the result fits a word. -/
def align (g : Geometry) (request : Nat) : Nat :=
  if g.alignment = 0 then request
  else (Word.alignUp? request g.alignment).getD request

/-- The size of the block that serves a request. Requests of a chunk and more keep their size up
to the alignment, requests from the tiny limit on become powers of two, and tiny ones multiples of
the quantum. A smaller alignment than the quantum would give two sizes one pool, so the larger of
the two is the step. -/
def normalize (g : Geometry) (request : Nat) : Nat :=
  if request ≥ g.chunkSize then g.align request
  else if request ≥ tinyLimit then Word.nextPowerOfTwo request
  else (Word.alignUp? request (max g.alignment tinyQuantum)).getD request

-- ---------------------------------------------------------------------------
-- Classes
-- ---------------------------------------------------------------------------

/-- Whether blocks of this size share pages with others of their size. -/
def isTinyOrSmall (g : Geometry) (size : Nat) : Bool := size < g.pageSize

/-- Whether the size is below the tiny limit. -/
def isTiny (size : Nat) : Bool := size < tinyLimit

/-- The class of a normalized size. -/
def sizeClass (g : Geometry) (size : Nat) : SizeClass :=
  if g.isTinyOrSmall size then
    if isTiny size then .tiny else .small
  else if size ≤ g.chunkSize then .normal
  else .huge

-- ---------------------------------------------------------------------------
-- Pools of tiny and small blocks
-- ---------------------------------------------------------------------------

/-- The place of a tiny size among the tiny ones. -/
def tinyIndex (size : Nat) : Nat := size / tinyQuantum

/-- The place of a small size among the small ones: the smallest is the tiny limit itself, and
each next one is double the last. -/
def smallIndex (size : Nat) : Nat := Word.bitLength (size / (2 * tinyLimit))

/-- One pool for each power of two from the tiny limit up to half a page. -/
def numSmallPools (g : Geometry) : Nat := g.pageShift - tinyLimit.log2

/-- The pools of both kinds. -/
def numPools (g : Geometry) : Nat := numTinyPools + g.numSmallPools

/-- The pool that serves a size, tiny pools first. -/
def poolIndex (size : Nat) : Nat :=
  if isTiny size then tinyIndex size else numTinyPools + smallIndex size

/-- The size that a pool serves. -/
def poolElemSize (index : Nat) : Nat :=
  if index < numTinyPools then index * tinyQuantum
  else tinyLimit <<< (index - numTinyPools)

-- ---------------------------------------------------------------------------
-- Runs of pages
-- ---------------------------------------------------------------------------

/-- The depth in a chunk's tree at which runs of this size lie: a chunk is one run at depth zero,
and each level halves the runs of the one above. -/
def runDepth (g : Geometry) (size : Nat) : Nat :=
  g.maxOrder - (size.log2 - g.pageShift)

end Geometry

end BlockPool
