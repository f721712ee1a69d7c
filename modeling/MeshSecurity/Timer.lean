import MeshSecurity.Time

/-!
# Single-shot timers

A timer does not fire on its own. Its owner polls it with the current time; it reports expiry
once and then stays disarmed until it is set again.
-/

namespace MeshSecurity

/-- A timer that was last armed at `start` for `interval` ticks. -/
structure Timer where
  start : Instant
  interval : UInt64
  armed : Bool
deriving DecidableEq

namespace Timer

def idle : Timer := ⟨.zero, 0, false⟩

/-- Arms the timer to expire `interval` ticks after `now`. -/
def set (now : Instant) (interval : UInt64) (_ : Timer) : Timer := ⟨now, interval, true⟩

def stop (t : Timer) : Timer := { t with armed := false }

/-- Whether the armed timer has run out at `now`. -/
def due (now : Instant) (t : Timer) : Bool := t.armed && t.start.hasElapsed now t.interval

/-- Whether the timer is not running at `now`: it has run out or is not armed. -/
def expired (now : Instant) (t : Timer) : Bool := !t.armed || t.start.hasElapsed now t.interval

/-- The instant at which the timer runs out, while it is armed. -/
def deadline (t : Timer) : Option Instant :=
  if t.armed then some (t.start.after t.interval) else none

/-- Fires a timer that is due: reports it and disarms it. -/
def poll (now : Instant) (t : Timer) : Bool × Timer :=
  if t.due now then (true, t.stop) else (false, t)

theorem fst_poll (now : Instant) (t : Timer) : (t.poll now).1 = t.due now := by
  cases hdue : t.due now <;> simp [poll, hdue]

theorem snd_poll (now : Instant) (t : Timer) :
    (t.poll now).2 = if t.due now then t.stop else t := by
  unfold poll
  split <;> rfl

theorem due_iff {now : Instant} {t : Timer} : t.due now = true ↔
    t.armed = true ∧ t.interval.toNat ≤ now.ticks.toNat - t.start.ticks.toNat := by
  rw [due, Bool.and_eq_true, Instant.hasElapsed_iff]

theorem expired_iff {now : Instant} {t : Timer} : t.expired now = true ↔
    (t.armed = true → t.interval.toNat ≤ now.ticks.toNat - t.start.ticks.toNat) := by
  cases harmed : t.armed <;> simp [expired, harmed, Instant.hasElapsed_iff]

theorem expired_of_due {now : Instant} {t : Timer} (hdue : t.due now = true) :
    t.expired now = true :=
  expired_iff.mpr fun _ => (due_iff.mp hdue).2

theorem expired_of_le {earlier now : Instant} {t : Timer} (hle : earlier.ticks ≤ now.ticks)
    (hexpired : t.expired earlier = true) : t.expired now = true := by
  rw [UInt64.le_iff_toNat_le] at hle
  refine expired_iff.mpr fun harmed => ?_
  have helapsed := expired_iff.mp hexpired harmed
  omega

theorem deadline_of_armed {t : Timer} (harmed : t.armed = true) :
    t.deadline = some (t.start.after t.interval) := by
  rw [deadline, if_pos harmed]

/-- Whether the timer runs out at the last tick or before it, if it is armed. -/
def Fits (t : Timer) : Prop := t.start.ticks.toNat + t.interval.toNat ≤ 0xFFFFFFFFFFFFFFFF

instance (t : Timer) : Decidable t.Fits := inferInstanceAs (Decidable ((_ : Nat) ≤ _))

theorem toNat_deadline (now : Instant) {t : Timer} (harmed : t.armed = true) (hfits : t.Fits) :
    (t.deadline.getD now).ticks.toNat = t.start.ticks.toNat + t.interval.toNat := by
  rw [deadline_of_armed harmed, Option.getD_some, Instant.toNat_after, Nat.min_eq_left hfits]

/-- A timer does not fire before its deadline, unless the time goes back behind its start. -/
theorem deadline_le_of_due {now : Instant} {t : Timer} (hstart : t.start.ticks ≤ now.ticks)
    (hdue : t.due now = true) : (t.deadline.getD now).ticks ≤ now.ticks := by
  obtain ⟨harmed, helapsed⟩ := due_iff.mp hdue
  rw [UInt64.le_iff_toNat_le] at hstart
  rw [deadline_of_armed harmed, Option.getD_some, UInt64.le_iff_toNat_le, Instant.toNat_after]
  omega

theorem start_le_deadline (now : Instant) {t : Timer} (harmed : t.armed = true) :
    t.start.ticks ≤ (t.deadline.getD now).ticks := by
  have hword := t.start.ticks.toNat_lt
  rw [deadline_of_armed harmed, Option.getD_some, UInt64.le_iff_toNat_le, Instant.toNat_after]
  omega

theorem armed_of_deadline {d : Instant} {t : Timer} (hdeadline : t.deadline = some d) :
    t.armed = true := by
  cases harmed : t.armed with
  | true => rfl
  | false => simp [deadline, harmed] at hdeadline

theorem toNat_of_deadline {d : Instant} {t : Timer} (hfits : t.Fits)
    (hdeadline : t.deadline = some d) :
    d.ticks.toNat = t.start.ticks.toNat + t.interval.toNat := by
  have harmed := armed_of_deadline hdeadline
  have htime := toNat_deadline d harmed hfits
  rwa [hdeadline, Option.getD_some] at htime

theorem due_of_deadline_le {now d : Instant} {t : Timer} (hfits : t.Fits)
    (hdeadline : t.deadline = some d) (hle : d.ticks ≤ now.ticks) : t.due now = true := by
  have htime := toNat_of_deadline hfits hdeadline
  rw [UInt64.le_iff_toNat_le] at hle
  exact due_iff.mpr ⟨armed_of_deadline hdeadline, by omega⟩

theorem exists_deadline_of_due {now : Instant} {t : Timer} (hstart : t.start.ticks ≤ now.ticks)
    (hdue : t.due now = true) : ∃ d, t.deadline = some d ∧ d.ticks ≤ now.ticks := by
  have hdeadline := deadline_of_armed (due_iff.mp hdue).1
  have hle := deadline_le_of_due hstart hdue
  rw [hdeadline, Option.getD_some] at hle
  exact ⟨_, hdeadline, hle⟩

theorem due_iff_deadline_le {now : Instant} {t : Timer} (hfits : t.armed = true → t.Fits)
    (hpast : t.armed = true → t.start.ticks ≤ now.ticks) :
    t.due now = true ↔ ∃ d, t.deadline = some d ∧ d.ticks ≤ now.ticks := by
  refine ⟨fun hdue => exists_deadline_of_due (hpast (due_iff.mp hdue).1) hdue, ?_⟩
  rintro ⟨d, hdeadline, hle⟩
  exact due_of_deadline_le (hfits (armed_of_deadline hdeadline)) hdeadline hle

end Timer

end MeshSecurity
