import BlockPool.Arena.Basic

/-!
# BlockPool — metrics of an arena

A view of an arena at one moment: its counts, and the usage of its chunks by band.
-/

namespace BlockPool

/-- The state of one chunk. -/
structure ChunkMetrics where
  usage : Int
  chunkSize : Nat
  freeBytes : Nat
deriving DecidableEq, Repr

/-- The bytes of the chunk that are in use. -/
def ChunkMetrics.usedBytes (m : ChunkMetrics) : Nat := m.chunkSize - m.freeBytes

/-- The chunks of one band. -/
structure BandMetrics where
  band : Band
  chunks : List ChunkMetrics
deriving DecidableEq, Repr

namespace BandMetrics

/-- The least usage of the band, as a percentage of something in use. -/
def minUsage (m : BandMetrics) : Int := max m.band.minUsage 1

/-- The greatest usage of the band, as a percentage. -/
def maxUsage (m : BandMetrics) : Int := min m.band.maxUsage 100

/-- The band in one line. -/
def describe (m : BandMetrics) : String :=
  if m.chunks.isEmpty then m.band.name ++ ": none"
  else
    m.band.name ++ ":"
      ++ String.join (m.chunks.map fun chunk =>
        " Chunk(" ++ toString chunk.usage ++ "%, " ++ toString chunk.usedBytes ++ "/"
          ++ toString chunk.chunkSize ++ ")")

end BandMetrics

/-- The state of one arena. -/
structure ArenaMetrics where
  index : Nat
  numCaches : Nat
  allocations : ClassCounts
  deallocations : ClassCounts
  hugeBytes : Nat
  bands : List BandMetrics
  tinySubpages : Nat
  smallSubpages : Nat
deriving DecidableEq, Repr

namespace ArenaMetrics

/-- The blocks handed out and not given back; those in a thread cache are among them. -/
def activeAllocations (m : ArenaMetrics) : Nat := m.allocations.total - m.deallocations.total

/-- The chunks in some band. -/
def numChunks (m : ArenaMetrics) : Nat := total (m.bands.map (·.chunks.length))

/-- The bytes in use in some chunk. -/
def pooledBytes (m : ArenaMetrics) : Nat :=
  total ((m.bands.flatMap (·.chunks)).map (·.usedBytes))

/-- The arena in several lines, one for each band. -/
def describe (m : ArenaMetrics) : String :=
  "Arena #" ++ toString m.index ++ ": " ++ toString m.numCaches ++ " thread caches, "
    ++ toString m.activeAllocations ++ " active allocations ("
    ++ toString m.hugeBytes ++ " huge bytes)\n"
    ++ String.join (m.bands.map fun band => "  " ++ band.describe ++ "\n")
    ++ "  subpages: " ++ toString m.tinySubpages ++ " tiny, "
    ++ toString m.smallSubpages ++ " small"

end ArenaMetrics

/-- The metrics of a chunk. -/
def Chunk.metrics (c : Chunk) : ChunkMetrics := ⟨c.usage, c.size, c.freeBytes⟩

/-- The metrics of the chunks in a band. -/
def Arena.bandMetrics (a : Arena) (band : Band) : BandMetrics where
  band := band
  chunks := (a.lists.members a.chunks band).filterMap fun index =>
    (a.chunks.value? index).map (·.metrics)

/-- The metrics of the arena now. -/
def Arena.metrics (a : Arena) : ArenaMetrics where
  index := a.index
  numCaches := a.numCaches
  allocations := a.allocations
  deallocations := a.deallocations
  hugeBytes := a.hugeBytes
  bands := Band.all.map a.bandMetrics
  tinySubpages := total ((a.pools.toList.take Geometry.numTinyPools).map (·.size))
  smallSubpages := total ((a.pools.toList.drop Geometry.numTinyPools).map (·.size))

end BlockPool
