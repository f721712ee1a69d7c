import Mathlib.Data.List.Defs
import MeshSecurity.Trickle.Run

/-!
# The timetable of the intervals

When the intervals of an engine begin, how long they are and where their transmission points lie,
told without polls and without a clock: from the first interval and the random words to come.
-/

namespace MeshSecurity

/-- The words that a source yields, one after the other. -/
def RandomSource.words {ρ : Type} [RandomSource ρ] (source : ρ) : Nat → Option UInt32
  | 0 => (word source).1
  | k + 1 => words (word source).2 k

namespace Trickle

/-- An interval before its transmission point or after it, with the random words to come. -/
structure Lap where
  begin : Nat
  size : Nat
  point : Nat
  phase : TricklePhase
  words : Nat → Option UInt32

/-- When the transmission point or the end of the interval is reached. -/
def Lap.due (l : Lap) : Nat :=
  match l.phase with
  | .transmission => l.begin + l.point
  | .intervalEnd => l.begin + l.size

/-- The transmission point of an interval: in its second half at the relative position
`w / 2 ^ 32`, or in its middle. -/
def drawnPoint (size : Nat) : Option UInt32 → Nat
  | some w => size / 2 + ((size - size / 2) * w.toNat) >>> 32
  | none => size / 2

/-- The next interval begins where the last one ends and is twice as long, up to a largest size. -/
def Lap.next (longest : Nat) (l : Lap) : Lap :=
  match l.phase with
  | .transmission => { l with phase := .intervalEnd }
  | .intervalEnd =>
    { begin := l.begin + l.size
      size := min (2 * l.size) longest
      point := drawnPoint (min (2 * l.size) longest) (l.words 0)
      phase := .transmission
      words := fun k => l.words (k + 1) }

section Phases

variable {l : Lap}

theorem Lap.due_of_transmission (hphase : l.phase = .transmission) :
    l.due = l.begin + l.point := by
  rw [due, hphase]

theorem Lap.due_of_intervalEnd (hphase : l.phase = .intervalEnd) : l.due = l.begin + l.size := by
  rw [due, hphase]

theorem Lap.next_of_transmission (longest : Nat) (hphase : l.phase = .transmission) :
    l.next longest = { l with phase := .intervalEnd } := by
  rw [next, hphase]

theorem Lap.next_of_intervalEnd (longest : Nat) (hphase : l.phase = .intervalEnd) :
    l.next longest = ⟨l.begin + l.size, min (2 * l.size) longest,
      drawnPoint (min (2 * l.size) longest) (l.words 0), .transmission,
      fun k => l.words (k + 1)⟩ := by
  rw [next, hphase]

end Phases

theorem Lap.phase_next_ne (longest : Nat) (l : Lap) : (l.next longest).phase ≠ l.phase := by
  cases hphase : l.phase with
  | transmission => simp [next_of_transmission longest hphase]
  | intervalEnd => simp [next_of_intervalEnd longest hphase]

/-- How an interval follows another one. -/
structure Lap.Follows (longest : Nat) (l l' : Lap) : Prop where
  begin : l'.begin = l.begin + l.size
  size : l'.size = min (2 * l.size) longest
  low : l'.size / 2 ≤ l'.point
  high : l'.point < l'.size
  undrawn : l.words 0 = none → l'.point = l'.size / 2

/-- What can be seen of an engine on its way. -/
structure Position where
  size : Nat
  point : Nat
  phase : TricklePhase
  deadline : Option Nat
deriving DecidableEq

def Lap.position (l : Lap) : Position := ⟨l.size, l.point, l.phase, some l.due⟩

/-- The positions of `n` laps, of which `l` is the first. -/
def Lap.positions (longest : Nat) (l : Lap) (n : Nat) : List Position :=
  (List.iterate (Lap.next longest) l n).map Lap.position

def position (t : Trickle) : Position where
  size := t.interval.toNat
  point := t.transmissionPoint.toNat
  phase := t.phase
  deadline := t.intervalTimer.deadline.map (·.ticks.toNat)

namespace Scene

variable {width size : Nat} {ρ ℓ π : Type} [RandomSource ρ]

/-- The lap of an engine whose interval began at `begin`. -/
def lap (begin : Instant) (s : Scene width size ρ ℓ π) : Lap where
  begin := begin.ticks.toNat
  size := s.trickle.interval.toNat
  point := s.trickle.transmissionPoint.toNat
  phase := s.trickle.phase
  words := RandomSource.words s.random

variable [LinkLayer ℓ width]

/-- The positions that a run passes, each once however long the engine stays there. -/
def positions : List (Operation width) → Scene width size ρ ℓ π → List Position
  | [], s => [s.trickle.position]
  | op :: ops, s =>
    let rest := positions ops (s.perform op).2
    if (s.perform op).2.trickle.position = s.trickle.position then rest
    else s.trickle.position :: rest

/-- Whether no deadline of the interval timer lies beyond the last tick, from the begin of a run to
its end. -/
def DeadlinesFit : List (Operation width) → Scene width size ρ ℓ π → Prop
  | [], s => s.trickle.intervalTimer.Fits
  | op :: ops, s => s.trickle.intervalTimer.Fits ∧ DeadlinesFit ops (s.perform op).2

instance decidableDeadlinesFit : (ops : List (Operation width)) → (s : Scene width size ρ ℓ π) →
    Decidable (DeadlinesFit ops s)
  | [], s => inferInstanceAs (Decidable s.trickle.intervalTimer.Fits)
  | _ :: ops, _ => @instDecidableAnd _ _ _ (decidableDeadlinesFit ops _)

end Scene

end Trickle

end MeshSecurity
