import MeshSecurity.Simulation.Recorded
import MeshSecurity.Trickle.Run

/-!
# What a run asks of the link layer

The calls of a run are overheard by a tap on the link layer, so they do not depend on what the
engine reports of them.
-/

namespace MeshSecurity.Trickle

variable {width size : Nat} {ρ ℓ π : Type}

/-- The time that is given with a call. -/
def Operation.time? : Operation width → Option Instant
  | .start now => some now
  | .stop => none
  | .poll now => some now
  | .reset now => some now
  | .newNeighbor now _ => some now
  | .hearFrom _ => none

def times (ops : List (Operation width)) : List Instant := ops.filterMap Operation.time?

/-- The times of the calls never go back. -/
def Chronological (ops : List (Operation width)) : Prop :=
  (times ops).Pairwise fun a b => a.ticks ≤ b.ticks

instance (ops : List (Operation width)) : Decidable (Chronological ops) :=
  inferInstanceAs (Decidable ((times ops).Pairwise fun a b => a.ticks ≤ b.ticks))

/-- The challenge of each HELLO sent, where challenges are numbered in the order in which they come
and `current` is the one at the begin. -/
def challengesSent : (current : Nat) → List LinkCall → List Nat
  | _, [] => []
  | current, .challengeChanged :: calls => challengesSent (current + 1) calls
  | current, .helloSent :: calls => current :: challengesSent current calls
  | current, .helloRefused _ :: calls => challengesSent current calls

/-- A HELLO of ours, sent by a call at `sent` for a transmission point at `due`. -/
structure Dispatch where
  due : Instant
  sent : Instant
deriving DecidableEq

/-- What a call at `now` counts from: a poll from the deadline of the interval timer. -/
def dueTime (t : Trickle) (now : Instant) : Operation width → Instant
  | .poll _ => t.intervalTimer.deadline.getD now
  | _ => now

namespace Scene

def tapped (calls : List LinkCall) (s : Scene width size ρ ℓ π) :
    Scene width size ρ (Tapped ℓ) π :=
  ⟨s.trickle, s.random, s.net.tapped calls⟩

variable [RandomSource ρ] [LinkLayer ℓ width]

/-- What a run asks of the link layer. -/
def traffic (ops : List (Operation width)) (s : Scene width size ρ ℓ π) : List LinkCall :=
  (run ops (s.tapped [])).2.net.link.calls

/-- The HELLO that a call sends. -/
def dispatch? (op : Operation width) (s : Scene width size ρ ℓ π) : Option Dispatch :=
  if .helloSent ∈ traffic [op] s then
    op.time?.map fun now => ⟨s.trickle.dueTime now op, now⟩
  else none

/-- The HELLOs that a run sends, one after the other. -/
def dispatches : List (Operation width) → Scene width size ρ ℓ π → List Dispatch
  | [], _ => []
  | op :: ops, s => (dispatch? op s).toList ++ dispatches ops (s.perform op).2

end Scene

end MeshSecurity.Trickle
