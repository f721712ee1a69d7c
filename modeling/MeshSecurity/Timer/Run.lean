import MeshSecurity.Timer

/-!
# Runs of a timer

The operations that change a timer as data, and what a sequence of them does. What a timer waits for
is told from the calls alone: it was set, and since then neither set again, nor stopped, nor polled
when its interval had passed.
-/

namespace MeshSecurity.Timer

/-- A call of a timer. -/
inductive Call
  | set (now : Instant) (interval : UInt64)
  | stop
  | poll (now : Instant)
deriving DecidableEq

/-- Carries out a call and tells whether the timer fired. -/
def perform (t : Timer) : Call → Bool × Timer
  | .set now interval => (false, t.set now interval)
  | .stop => (false, t.stop)
  | .poll now => t.poll now

/-- Carries out calls one after the other and tells of each whether the timer fired. -/
def run : List Call → Timer → List Bool × Timer
  | [], t => ([], t)
  | call :: calls, t =>
    let (fired, t) := t.perform call
    let (answers, t) := run calls t
    (fired :: answers, t)

namespace Call

/-- The time of a call that sets the timer. -/
def setTime? : Call → Option Instant
  | set now _ => some now
  | _ => none

/-- Whether a timer that was set at `start` for `interval` ticks is still waiting after a call. -/
def Spares (start : Instant) (interval : UInt64) : Call → Prop
  | set _ _ => False
  | stop => False
  | poll now => now.ticks.toNat - start.ticks.toNat < interval.toNat

instance (start : Instant) (interval : UInt64) :
    (call : Call) → Decidable (call.Spares start interval)
  | set _ _ => inferInstanceAs (Decidable False)
  | stop => inferInstanceAs (Decidable False)
  | poll _ => inferInstanceAs (Decidable ((_ : Nat) < _))

end Call

section History

variable (calls : List Call)

/-- The times at which the timer was set, in the order of the calls. -/
def setTimes : List Instant := calls.filterMap Call.setTime?

/-- Whether calls leave a new timer waiting, since `start`, for `interval` ticks to pass. -/
def Awaits (start : Instant) (interval : UInt64) : Prop :=
  ∃ before after, calls = before ++ .set start interval :: after ∧
    ∀ call ∈ after, call.Spares start interval

/-- Whether calls leave a new timer waiting for a time after the last tick. -/
def OutlastsClock : Prop :=
  ∃ start interval, Awaits calls start interval ∧
    0xFFFFFFFFFFFFFFFF < start.ticks.toNat + interval.toNat

end History

end MeshSecurity.Timer
