/-!
# BlockPool — utilization bands

A chunk belongs to one of six bands by how much of it is in use, in percent. The bands overlap, so
that a chunk at a threshold does not move at every request: it moves up when its usage reaches the
upper bound of its band and down when it falls below the lower one.

* `Band.onwards` — the bands a chunk may move up into.
* `Band.downwards` — the bands a chunk may fall into; below the lowest there is none.
-/

namespace BlockPool

/-- A range of utilization, named for the percentage it starts around. -/
inductive Band where
  | fresh
  | q000
  | q025
  | q050
  | q075
  | q100
deriving DecidableEq, Repr, Inhabited

namespace Band

/-- The six bands, from the emptiest to the fullest. -/
def all : List Band := [fresh, q000, q025, q050, q075, q100]

/-- The order in which the bands are asked for room: busy chunks first, fresh and nearly full ones
last. A full chunk is never asked. -/
def searchOrder : List Band := [q050, q025, q000, fresh, q075]

/-- The place of the band among the six. -/
def index : Band → Fin 6
  | fresh => 0
  | q000 => 1
  | q025 => 2
  | q050 => 3
  | q075 => 4
  | q100 => 5

/-- The name of the band. -/
def name : Band → String
  | fresh => "qInit"
  | q000 => "q000"
  | q025 => "q025"
  | q050 => "q050"
  | q075 => "q075"
  | q100 => "q100"

/-- The band of a name. -/
def ofName? (name : String) : Option Band := all.find? fun b => b.name == name

/-- The name of the band in diagnostics. -/
def tag : Band → String
  | fresh => "Init"
  | q000 => "Q000"
  | q025 => "Q025"
  | q050 => "Q050"
  | q075 => "Q075"
  | q100 => "Q100"

/-- The least usage of the band. No chunk falls below the first one. -/
def minUsage : Band → Int
  | fresh => -2147483648
  | q000 => 1
  | q025 => 25
  | q050 => 50
  | q075 => 75
  | q100 => 100

/-- The usage at which a chunk leaves the band upwards. No chunk rises above the last one. -/
def maxUsage : Band → Int
  | fresh => 25
  | q000 => 50
  | q025 => 75
  | q050 => 100
  | q075 => 100
  | q100 => 2147483647

/-- The band above. -/
def next? : Band → Option Band
  | fresh => some q000
  | q000 => some q025
  | q025 => some q050
  | q050 => some q075
  | q075 => some q100
  | q100 => none

/-- The band below. The first band lies below itself, so a chunk that never left it stays; below
`q000` there is none, and a chunk that falls out of it is given up. -/
def prev? : Band → Option Band
  | fresh => some fresh
  | q000 => none
  | q025 => some q000
  | q050 => some q025
  | q075 => some q050
  | q100 => some q075

/-- The band and those above it, in rising order. -/
def onwards : Band → List Band
  | fresh => [fresh, q000, q025, q050, q075, q100]
  | q000 => [q000, q025, q050, q075, q100]
  | q025 => [q025, q050, q075, q100]
  | q050 => [q050, q075, q100]
  | q075 => [q075, q100]
  | q100 => [q100]

/-- The bands below, in falling order. -/
def downwards : Band → List Band
  | fresh => [fresh]
  | q000 => []
  | q025 => [q000]
  | q050 => [q025, q000]
  | q075 => [q050, q025, q000]
  | q100 => [q075, q050, q025, q000]

/-- The band that takes in a chunk of some usage which asks for this one: the first from here on
whose upper bound the usage does not reach. -/
def accept (band : Band) (usage : Int) : Band :=
  (band.onwards.find? fun b => decide (usage < b.maxUsage)).getD q100

/-- The band that a chunk of some usage falls into from this one, if any does. -/
def demote? (band : Band) (usage : Int) : Option Band :=
  band.downwards.find? fun b => decide (b.minUsage ≤ usage)

/-- The largest block that a chunk of the band can be expected to have room for. -/
def maxCapacity (band : Band) (chunkSize : Nat) : Nat :=
  let least := (max band.minUsage 1).toNat
  if least ≥ 100 then 0 else chunkSize * (100 - least) / 100

end Band

end BlockPool
