import MeshSecurity.Config
import MeshSecurity.Network
import MeshSecurity.Timer

/-!
# Dissemination of HELLOs

HELLOs are paced by the Trickle algorithm. An interval of size `I` has a transmission point `t`
in its second half, where a HELLO is broadcast unless enough neighbors have sent theirs. The next
interval is twice as long, up to a largest size. A reset begins an interval of the smallest size.

After a broadcast a second timer runs while answers are awaited. No HELLO is sent in that time,
and when it ends the challenge of the HELLOs is replaced.
-/

namespace MeshSecurity

/-- What the engine did. -/
inductive TrickleEvent
  | started (interval : UInt64)
  | helloBroadcast
  /-- The link layer refused a HELLO. -/
  | helloFailed (error : Error)
  /-- A HELLO was redundant. -/
  | suppressed (counter : UInt16)
  /-- Answers to the last HELLO are still awaited. -/
  | awaitingAcks
  /-- The time for answers ended and the challenge was replaced. -/
  | challengeChanged
  | intervalStarted (interval transmissionPoint : UInt64)
  /-- An interval of the smallest size began. -/
  | reset (transmissionPoint : UInt64)
  /-- A reset was refused because the window has had its share. -/
  | resetRateLimited
deriving DecidableEq

/-- What the interval timer is set to. -/
inductive TricklePhase
  | transmission
  | intervalEnd
deriving DecidableEq

/-- The state of the engine. -/
structure Trickle where
  config : TrickleConfig
  /-- The size `I` of the interval. -/
  interval : UInt64
  /-- The offset `t` of the transmission point in the interval. -/
  transmissionPoint : UInt64
  /-- The fresh HELLOs heard in the interval. -/
  counter : UInt16
  /-- The neighbors that became permanent in the interval. -/
  newcomers : UInt16
  intervalTimer : Timer
  ackTimer : Timer
  phase : TricklePhase
  /-- The begin of the window in which resets are counted. -/
  windowStart : Instant
  /-- The resets of that window. -/
  windowResets : UInt8
deriving DecidableEq

namespace Trickle

/-- How many events one operation yields at most. -/
def maxEvents : Nat := 4

/-- The engine before its start. -/
def stopped (c : TrickleConfig) : Trickle where
  config := c
  interval := c.minInterval
  transmissionPoint := 0
  counter := 0
  newcomers := 0
  intervalTimer := .idle
  ackTimer := .idle
  phase := .transmission
  windowStart := .zero
  windowResets := 0

def isRunning (t : Trickle) : Bool := t.intervalTimer.armed

def isAwaitingAcks (t : Trickle) : Bool := t.ackTimer.armed

/-- The earliest time at which a timer runs out. -/
def nextDeadline (t : Trickle) : Option Instant :=
  match t.intervalTimer.deadline, t.ackTimer.deadline with
  | some a, some b => some (a.earlier b)
  | some a, none => some a
  | none, b => b

/-- The size of the interval after one of size `from`. -/
def intervalAfter (size : UInt64) (t : Trickle) : UInt64 :=
  min (Saturating.add size size) t.config.maxInterval

/-- Begins an interval at `at`. -/
def enter (begin : Instant) (interval transmissionPoint : UInt64) (t : Trickle) : Trickle :=
  { t with
    interval, transmissionPoint
    counter := 0
    newcomers := 0
    intervalTimer := t.intervalTimer.set begin transmissionPoint
    phase := .transmission }

def stop (t : Trickle) : Trickle :=
  { t with intervalTimer := t.intervalTimer.stop, ackTimer := t.ackTimer.stop }

/-- A permanent neighbor sent a fresh authentic HELLO. It counts once until our next broadcast. -/
def hear (sender : Permanent) (t : Trickle) : Bool × Permanent × Trickle :=
  if !t.config.enabled || sender.heard then (false, sender, t)
  else (true, ⟨true⟩, { t with counter := Saturating.succ16 t.counter })

section Random

variable {ρ : Type} [RandomSource ρ]

/-- Begins at `begin` the interval after one of size `size`, with a transmission point drawn from
its second half. Without a draw nothing happens. -/
def beginAfter (begin : Instant) (size : UInt64) (t : Trickle) (random : ρ) :
    Option (UInt64 × UInt64) × Trickle × ρ :=
  let interval := t.intervalAfter size
  match RandomSource.between (interval / 2) interval random with
  | (some point, random) => (some (interval, point), t.enter begin interval point, random)
  | (none, random) => (none, t, random)

/-- Begins an interval of the smallest size, unless the engine is stopped or in such an
interval. -/
def reset (now : Instant) (t : Trickle) (random : ρ) :
    Except Error (Option TrickleEvent) × Trickle × ρ :=
  if !t.config.enabled || !t.isRunning || t.interval == t.config.minInterval then
    (.ok none, t, random)
  else
    match t.beginAfter now (t.config.minInterval / 2) random with
    | (some (_, point), t, random) => (.ok (some (.reset point)), t, random)
    | (none, t, random) => (.error .randomFailure, t, random)

/-- How many newcomers cause a reset: a quarter of the permanent neighbors, but at least one. -/
def resetThreshold (permanentNeighbors : Nat) : Nat := max (permanentNeighbors / 4) 1

/-- Opens a new window at `now`, if the current one has had no reset or is over. -/
def openWindow (now : Instant) (t : Trickle) : Trickle :=
  if t.windowResets == 0 || t.windowStart.hasElapsed now t.config.resetWindow then
    { t with windowStart := now, windowResets := 0 }
  else t

/-- A neighbor became permanent. When enough have, the engine is reset, but only so often in one
window. -/
def newNeighbor (now : Instant) (permanentNeighbors : Nat) (t : Trickle) (random : ρ) :
    Except Error (Option TrickleEvent) × Trickle × ρ :=
  if !t.config.enabled then (.ok none, t, random)
  else
    let t := { t with newcomers := Saturating.succ16 t.newcomers }
    if t.newcomers.toNat < resetThreshold permanentNeighbors || !t.isRunning ||
        t.interval == t.config.minInterval then
      (.ok none, t, random)
    else
      let t := t.openWindow now
      if t.windowResets ≥ t.config.resetsPerWindow then (.ok (some .resetRateLimited), t, random)
      else
        match t.reset now random with
        | (.ok (some event), t, random) =>
          (.ok (some event), { t with windowResets := t.windowResets + 1 }, random)
        | other => other

end Random

section Link

variable {width size : Nat} {ρ ℓ π : Type} [LinkLayer ℓ width]

/-- A fresh authentic HELLO of the peer, if it is a permanent neighbor. -/
def hearFrom (peer : Address width) (t : Trickle) (neighbors : NeighborTable width size) :
    Option Bool × Trickle × NeighborTable width size :=
  match (neighbors.lookup peer).bind (·.permanent) with
  | none => (none, t, neighbors)
  | some sender =>
    let (counted, sender, t) := t.hear sender
    (some counted, t, neighbors.adjust peer fun n => some { n with permanent := some sender })

/-- What is done at the transmission point, and the time for answers that it begins. -/
def transmit (now : Instant) (t : Trickle) (net : Network width size ℓ π) :
    TrickleEvent × Timer × Network width size ℓ π :=
  if t.counter ≥ t.config.redundancy then (.suppressed t.counter, t.ackTimer, net)
  else if !t.ackTimer.expired now then (.awaitingAcks, t.ackTimer, net)
  else
    match LinkLayer.broadcastHello net.link with
    | (.ok (), link) =>
      (.helloBroadcast, t.ackTimer.set now t.config.ackWait,
        { net with link, neighbors := net.neighbors.clearHeard })
    | (.error e, link) => (.helloFailed e, t.ackTimer, { net with link })

/-- The transmission point is reached; the interval timer is set to the end of the interval. -/
def passTransmission (now : Instant) (t : Trickle) (net : Network width size ℓ π) :
    TrickleEvent × Trickle × Network width size ℓ π :=
  let (event, ackTimer, net) := t.transmit now net
  (event,
    { t with
      ackTimer
      intervalTimer := t.intervalTimer.set now (Saturating.sub t.interval t.transmissionPoint)
      phase := .intervalEnd },
    net)

/-- Handles the end of the time for answers. -/
def pollAcks (now : Instant) (t : Trickle) (net : Network width size ℓ π) :
    List TrickleEvent × Trickle × Network width size ℓ π :=
  match t.ackTimer.poll now with
  | (true, ackTimer) =>
    ([.challengeChanged], { t with ackTimer },
      { net with link := LinkLayer.changeChallenge net.link })
  | (false, _) => ([], t, net)

variable [RandomSource ρ]

/-- Starts the engine with a fresh challenge and an interval between the smallest and the largest
size, and reaches the transmission point at once. Without a draw nothing happens. -/
def start (now : Instant) (t : Trickle) (random : ρ) (net : Network width size ℓ π) :
    Except Error (List TrickleEvent) × Trickle × ρ × Network width size ℓ π :=
  if !t.config.enabled then (.ok [], t, random, net)
  else
    match RandomSource.between t.config.minInterval t.config.maxInterval random with
    | (none, random) => (.error .randomFailure, t, random, net)
    | (some interval, random) =>
      let net := { net with link := LinkLayer.changeChallenge net.link }
      let (event, t, net) :=
        passTransmission now { t with interval, transmissionPoint := 0 } net
      (.ok [.started interval, event], t, random, net)

/-- The interval timer has run out at `deadline`: the transmission point or the end of the
interval is reached. Where no transmission point can be drawn for the next interval, it is the
middle of it. -/
def passDeadline (deadline : Instant) (t : Trickle) (random : ρ)
    (net : Network width size ℓ π) :
    Except Error TrickleEvent × Trickle × ρ × Network width size ℓ π :=
  match t.phase with
  | .transmission =>
    let (event, t, net) := t.passTransmission deadline net
    (.ok event, t, random, net)
  | .intervalEnd =>
    match t.beginAfter deadline t.interval random with
    | (some (interval, point), t, random) =>
      (.ok (.intervalStarted interval point), t, random, net)
    | (none, t, random) =>
      let interval := t.intervalAfter t.interval
      (.error .randomFailure, t.enter deadline interval (interval / 2), random, net)

/-- Lets both timers run out that are due at `now`, each at most once. What the interval timer
causes counts from its deadline, however late the poll comes. -/
def poll (now : Instant) (t : Trickle) (random : ρ) (net : Network width size ℓ π) :
    Except Error (List TrickleEvent) × Trickle × ρ × Network width size ℓ π :=
  if !t.config.enabled then (.ok [], t, random, net)
  else
    let (events, t, net) := t.pollAcks now net
    let deadline := t.intervalTimer.deadline.getD now
    match t.intervalTimer.poll now with
    | (false, _) => (.ok events, t, random, net)
    | (true, intervalTimer) =>
      match passDeadline deadline { t with intervalTimer } random net with
      | (.ok event, rest) => (.ok (events ++ [event]), rest)
      | (.error e, rest) => (.error e, rest)

end Link

end Trickle

end MeshSecurity
