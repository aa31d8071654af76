import BlockPool.Config.Setting
import BlockPool.Chunk.Geometry

/-!
# BlockPool — configuration of a pool

The tunables of an allocator, their defaults, the variables they are read from and the ranges they
must lie in.

* `PoolConfig.validate` — accepts exactly the configurations an allocator can be built from, and
  names the first range that is violated otherwise.
* `PoolConfig.ofEnvironment` — the configuration that an environment describes.
-/

namespace BlockPool

/-- The tunables of an allocator. -/
structure PoolConfig where
  pageSize : Nat := 8192
  maxOrder : Nat := 11
  numArenas : Nat
  tinyCacheSize : Nat := 512
  smallCacheSize : Nat := 256
  normalCacheSize : Nat := 64
  maxCachedCapacity : Nat := 32768
  cacheTrimInterval : Nat := 8192
  alignment : Nat := 0
  useThreadCache : Bool := true
deriving DecidableEq, Repr

namespace PoolConfig

/-- The smallest page. -/
def minPageSize : Nat := 4096

/-- The highest order of a chunk. -/
def orderLimit : Nat := 14

/-- The largest chunk. -/
def chunkLimit : Nat := 1 <<< 30

/-- The defaults on a machine of so many cores: two arenas for each core. -/
def defaults (cores : Nat) : PoolConfig := { numArenas := cores * 2 }

/-- The bytes of a chunk, computed in a word. -/
def chunkSize (c : PoolConfig) : Nat := Word.shiftLeft c.pageSize c.maxOrder

/-- The sizes that memory is cut into under this configuration. -/
def geometry (c : PoolConfig) : Geometry := ⟨c.pageSize, c.maxOrder, c.alignment⟩

/-- The same configuration with every cache queue at size zero. -/
def withoutCache (c : PoolConfig) : PoolConfig :=
  { c with
    useThreadCache := false
    tinyCacheSize := 0
    smallCacheSize := 0
    normalCacheSize := 0 }

/-- Whether blocks may be aligned so: not at all, or to a power of two between the step of the
tiny sizes and a page. -/
def alignmentFits (c : PoolConfig) : Bool :=
  c.alignment == 0
    || (Word.isPowerOfTwo c.alignment && decide (Geometry.tinyQuantum ≤ c.alignment)
      && decide (c.alignment ≤ c.pageSize))

/-- Checks the ranges one after the other; the first that is violated is the error. -/
def validate (c : PoolConfig) : Except ConfigError Unit :=
  if c.pageSize < minPageSize ∨ Word.isPowerOfTwo c.pageSize = false then
    .error (.outOfRange "POOLBUF_PAGE_SIZE" c.pageSize "expected a power of two of at least 4096")
  else if c.maxOrder > orderLimit then
    .error (.outOfRange "POOLBUF_MAX_ORDER" c.maxOrder "expected at most 14")
  else if c.chunkSize > chunkLimit then
    .error (.outOfRange "POOLBUF_MAX_ORDER" c.maxOrder "chunk size would exceed 1 GiB")
  else if c.numArenas = 0 then
    .error (.outOfRange "POOLBUF_NUM_ARENAS" 0 "at least one arena is required")
  else if c.alignmentFits = false then
    .error (.outOfRange "POOLBUF_ALIGNMENT" c.alignment
      "expected zero or a power of two between 16 and the page size")
  else if c.cacheTrimInterval = 0 then
    .error (.outOfRange "POOLBUF_CACHE_TRIM_INTERVAL" 0 "expected a positive allocation count")
  else .ok ()

/-- The numbers of the configuration, by name. -/
def numbers (c : PoolConfig) : List (String × Nat) :=
  [("page_size", c.pageSize), ("max_order", c.maxOrder), ("num_arenas", c.numArenas),
    ("tiny_cache_size", c.tinyCacheSize), ("small_cache_size", c.smallCacheSize),
    ("normal_cache_size", c.normalCacheSize), ("max_cached_buffer_capacity", c.maxCachedCapacity),
    ("cache_trim_interval", c.cacheTrimInterval), ("alignment", c.alignment)]

/-- The same configuration with other numbers where `value?` names one. -/
def override (c : PoolConfig) (value? : String → Option Nat) : PoolConfig :=
  { c with
    pageSize := (value? "page_size").getD c.pageSize
    maxOrder := (value? "max_order").getD c.maxOrder
    numArenas := (value? "num_arenas").getD c.numArenas
    tinyCacheSize := (value? "tiny_cache_size").getD c.tinyCacheSize
    smallCacheSize := (value? "small_cache_size").getD c.smallCacheSize
    normalCacheSize := (value? "normal_cache_size").getD c.normalCacheSize
    maxCachedCapacity := (value? "max_cached_buffer_capacity").getD c.maxCachedCapacity
    cacheTrimInterval := (value? "cache_trim_interval").getD c.cacheTrimInterval
    alignment := (value? "alignment").getD c.alignment }

/-- Reads every variable in a fixed order, over the defaults, and validates the result. -/
def ofEnvironment (cores : Nat) (env : Environment) : Except ConfigError PoolConfig := do
  let base := defaults cores
  let pageSize ← Setting.wordOr env "POOLBUF_PAGE_SIZE" base.pageSize
  let maxOrder ← Setting.wordOr env "POOLBUF_MAX_ORDER" base.maxOrder
  let numArenas ← Setting.wordOr env "POOLBUF_NUM_ARENAS" base.numArenas
  let tinyCacheSize ← Setting.wordOr env "POOLBUF_TINY_CACHE_SIZE" base.tinyCacheSize
  let smallCacheSize ← Setting.wordOr env "POOLBUF_SMALL_CACHE_SIZE" base.smallCacheSize
  let normalCacheSize ← Setting.wordOr env "POOLBUF_NORMAL_CACHE_SIZE" base.normalCacheSize
  let maxCachedCapacity ←
    Setting.wordOr env "POOLBUF_MAX_CACHED_BUFFER_CAPACITY" base.maxCachedCapacity
  let cacheTrimInterval ←
    Setting.wordOr env "POOLBUF_CACHE_TRIM_INTERVAL" base.cacheTrimInterval
  let alignment ← Setting.wordOr env "POOLBUF_ALIGNMENT" base.alignment
  let useThreadCache ← Setting.switchOr env "POOLBUF_USE_THREAD_CACHE" base.useThreadCache
  let config : PoolConfig :=
    { pageSize, maxOrder, numArenas, tinyCacheSize, smallCacheSize, normalCacheSize,
      maxCachedCapacity, cacheTrimInterval, alignment, useThreadCache }
  config.validate
  return config

/-- The configuration of the whole process: what the environment describes, or the defaults where
it describes none. -/
def resolve (cores : Nat) (env : Environment) : PoolConfig :=
  match ofEnvironment cores env with
  | .ok config => config
  | .error _ => defaults cores

/-- The fields of the configuration, for a reader of diagnostics. -/
def describe (c : PoolConfig) : String :=
  "PoolConfig \x7b "
    ++ String.join (c.numbers.map fun field => field.1 ++ ": " ++ toString field.2 ++ ", ")
    ++ "use_thread_cache: " ++ toString c.useThreadCache ++ " \x7d"

end PoolConfig

end BlockPool
