import MeshSecurity.Time

/-!
# Configuration of a node

The durations are given in ticks, so the defaults depend on the tick rate.
-/

namespace MeshSecurity

/-- Parameters of HELLO dissemination. -/
structure TrickleConfig where
  enabled : Bool
  minInterval : UInt64
  /-- How often the smallest interval may be doubled. -/
  doublings : UInt8
  /-- How many HELLOs of others make our own redundant. -/
  redundancy : UInt16
  /-- The window in which resets caused by new neighbors are counted. -/
  resetWindow : UInt64
  /-- How many such resets one window admits. -/
  resetsPerWindow : UInt8
  /-- How long answers to our HELLO are awaited. -/
  ackWait : UInt64
deriving DecidableEq

namespace TrickleConfig

def minIntervalSeconds : UInt32 := 30

def defaultDoublings : UInt8 := 8

def defaultRedundancy : UInt16 := 2

def resetWindowSeconds : UInt32 := 600

def defaultResetsPerWindow : UInt8 := 3

/-- How long a neighbor may take to answer a HELLO, in seconds. -/
def maxAckSeconds : UInt32 := 5

def ackLeewaySeconds : UInt32 := 1

/-- The defaults in ticks of the given rate. -/
def forRate (r : TickRate) : TrickleConfig where
  enabled := true
  minInterval := r.ticksOfSeconds minIntervalSeconds
  doublings := defaultDoublings
  redundancy := defaultRedundancy
  resetWindow := r.ticksOfSeconds resetWindowSeconds
  resetsPerWindow := defaultResetsPerWindow
  ackWait := r.ticksOfSeconds (maxAckSeconds + ackLeewaySeconds)

/-- The largest interval: the smallest one doubled as often as allowed, or the largest word where
that does not fit. -/
def maxInterval (c : TrickleConfig) : UInt64 :=
  if c.doublings ≥ 64 || c.minInterval > Saturating.maxWord >>> c.doublings.toUInt64 then
    Saturating.maxWord
  else
    c.minInterval <<< c.doublings.toUInt64

end TrickleConfig

structure RevocationConfig where
  enabled : Bool
  /-- Whether broadcasts are protected by a group key, which a revocation has to replace. -/
  groupKeys : Bool
  persistent : Bool
deriving DecidableEq

/-- Everything is on by default. -/
def RevocationConfig.standard : RevocationConfig := ⟨true, true, true⟩

structure Config where
  tickRate : TickRate
  trickle : TrickleConfig
  revocation : RevocationConfig
deriving DecidableEq

namespace Config

def forRate (r : TickRate) : Config := ⟨r, .forRate r, .standard⟩

/-- The defaults for one tick per millisecond. -/
def standard : Config := forRate .kilohertz

end Config

end MeshSecurity
