import BlockPool.Config.Setting

/-!
# BlockPool — configuration of a recycler

The limits of a recycler, their defaults, the variables they are read from and the ranges they
must lie in.

* `RecyclerConfig.validate` — names the first range that is violated, if any is.
* `RecyclerConfig.sharedCapacity` — how many objects may wait, in all, on their way back to one
  thread.
-/

namespace BlockPool

/-- The limits of a recycler. -/
structure RecyclerConfig where
  maxCapacityPerThread : Nat := 4096
  maxSharedCapacityFactor : Nat := 2
  ratio : Nat := 8
  maxDelayedQueuesPerThread : Nat
  linkCapacity : Nat := 16
deriving DecidableEq, Repr

namespace RecyclerConfig

/-- The fewest slots of a link. -/
def minLinkCapacity : Nat := 16

/-- The defaults on a machine of so many cores: two queues for each core. -/
def defaults (cores : Nat) : RecyclerConfig := { maxDelayedQueuesPerThread := cores * 2 }

/-- Whether objects are not pooled at all. -/
def isDisabled (c : RecyclerConfig) : Bool := c.maxCapacityPerThread == 0

/-- The budget that other threads share for handing objects back to one stack. It always has room
for one link. -/
def sharedCapacity (c : RecyclerConfig) : Nat :=
  max (c.maxCapacityPerThread / max c.maxSharedCapacityFactor 1) c.linkCapacity

/-- The capacity that a stack starts with. -/
def initialCapacity (c : RecyclerConfig) : Nat := min c.maxCapacityPerThread 256

/-- Checks the ranges one after the other; the first that is violated is the error. -/
def validate (c : RecyclerConfig) : Except ConfigError Unit :=
  if Word.isPowerOfTwo c.ratio = false then
    .error (.outOfRange "POOLBUF_RECYCLER_RATIO" c.ratio "expected a positive power of two")
  else if c.maxSharedCapacityFactor = 0 then
    .error (.outOfRange "POOLBUF_RECYCLER_MAX_SHARED_CAPACITY_FACTOR" 0 "expected at least 1")
  else if c.linkCapacity < minLinkCapacity ∨ Word.isPowerOfTwo c.linkCapacity = false then
    .error (.outOfRange "POOLBUF_RECYCLER_LINK_CAPACITY" c.linkCapacity
      "expected a power of two of at least 16")
  else .ok ()

/-- The numbers of the configuration, by name. -/
def numbers (c : RecyclerConfig) : List (String × Nat) :=
  [("max_capacity_per_thread", c.maxCapacityPerThread),
    ("max_shared_capacity_factor", c.maxSharedCapacityFactor), ("ratio", c.ratio),
    ("max_delayed_queues_per_thread", c.maxDelayedQueuesPerThread),
    ("link_capacity", c.linkCapacity)]

/-- The same configuration with other numbers where `value?` names one. -/
def override (c : RecyclerConfig) (value? : String → Option Nat) : RecyclerConfig where
  maxCapacityPerThread := (value? "max_capacity_per_thread").getD c.maxCapacityPerThread
  maxSharedCapacityFactor :=
    (value? "max_shared_capacity_factor").getD c.maxSharedCapacityFactor
  ratio := (value? "ratio").getD c.ratio
  maxDelayedQueuesPerThread :=
    (value? "max_delayed_queues_per_thread").getD c.maxDelayedQueuesPerThread
  linkCapacity := (value? "link_capacity").getD c.linkCapacity

/-- Reads every variable in a fixed order, over the defaults, and validates the result. -/
def ofEnvironment (cores : Nat) (env : Environment) : Except ConfigError RecyclerConfig := do
  let base := defaults cores
  let maxCapacityPerThread ←
    Setting.wordOr env "POOLBUF_RECYCLER_MAX_CAPACITY_PER_THREAD" base.maxCapacityPerThread
  let maxSharedCapacityFactor ←
    Setting.wordOr env "POOLBUF_RECYCLER_MAX_SHARED_CAPACITY_FACTOR" base.maxSharedCapacityFactor
  let ratio ← Setting.wordOr env "POOLBUF_RECYCLER_RATIO" base.ratio
  let maxDelayedQueuesPerThread ←
    Setting.wordOr env "POOLBUF_RECYCLER_MAX_DELAYED_QUEUES_PER_THREAD"
      base.maxDelayedQueuesPerThread
  let linkCapacity ← Setting.wordOr env "POOLBUF_RECYCLER_LINK_CAPACITY" base.linkCapacity
  let config : RecyclerConfig :=
    { maxCapacityPerThread, maxSharedCapacityFactor, ratio, maxDelayedQueuesPerThread,
      linkCapacity }
  config.validate
  return config

/-- The configuration of the whole process: what the environment describes, or the defaults where
it describes none. -/
def resolve (cores : Nat) (env : Environment) : RecyclerConfig :=
  match ofEnvironment cores env with
  | .ok config => config
  | .error _ => defaults cores

end RecyclerConfig

end BlockPool
