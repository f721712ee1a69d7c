import MeshSecurity.Saturating

/-!
# Time in ticks

An instant is a count of ticks since the node started; a duration is a number of ticks. The
tick rate converts between ticks and seconds.
-/

namespace MeshSecurity

/-- A point in time, in ticks of the system counter. -/
structure Instant where
  ticks : UInt64
deriving DecidableEq, Inhabited

namespace Instant

def zero : Instant := ⟨0⟩

instance : Ord Instant := ⟨fun a b => compare a.ticks b.ticks⟩

/-- The ticks from `since` to `now`; none have passed when `now` is the earlier one. -/
def elapsed (since now : Instant) : UInt64 := Saturating.sub now.ticks since.ticks

/-- Whether at least `duration` ticks have passed from `since` to `now`. -/
def hasElapsed (since now : Instant) (duration : UInt64) : Bool := duration ≤ elapsed since now

/-- The instant `duration` ticks later, at most the last one. -/
def after (t : Instant) (duration : UInt64) : Instant := ⟨Saturating.add t.ticks duration⟩

def earlier (a b : Instant) : Instant := if a.ticks ≤ b.ticks then a else b

theorem toNat_elapsed (since now : Instant) :
    (elapsed since now).toNat = now.ticks.toNat - since.ticks.toNat :=
  Saturating.toNat_sub _ _

theorem toNat_after (t : Instant) (duration : UInt64) :
    (after t duration).ticks.toNat = min (t.ticks.toNat + duration.toNat) 0xFFFFFFFFFFFFFFFF :=
  Saturating.toNat_add _ _

theorem hasElapsed_iff {since now : Instant} {duration : UInt64} :
    hasElapsed since now duration = true ↔
      duration.toNat ≤ now.ticks.toNat - since.ticks.toNat := by
  rw [hasElapsed, decide_eq_true_iff, UInt64.le_iff_toNat_le, toNat_elapsed]

theorem toNat_earlier (a b : Instant) :
    (earlier a b).ticks.toNat = min a.ticks.toNat b.ticks.toNat := by
  unfold earlier
  split <;> rename_i h <;> rw [UInt64.le_iff_toNat_le] at h <;> omega

end Instant

structure TickRate where
  hertz : UInt32
deriving DecidableEq

namespace TickRate

def kilohertz : TickRate := ⟨1000⟩

/-- The ticks in a number of seconds. Both factors have 32 bits, so the product always fits. -/
def ticksOfSeconds (r : TickRate) (seconds : UInt32) : UInt64 :=
  seconds.toUInt64 * r.hertz.toUInt64

/-- The whole seconds in a number of ticks; none when the counter stands still. -/
def secondsOfTicks (r : TickRate) (ticks : UInt64) : UInt64 :=
  if r.hertz = 0 then 0 else ticks / r.hertz.toUInt64

/-- The whole ticks in a number of milliseconds. -/
def ticksOfMillis (r : TickRate) (millis : UInt32) : UInt64 :=
  millis.toUInt64 * r.hertz.toUInt64 / 1000

end TickRate

end MeshSecurity
