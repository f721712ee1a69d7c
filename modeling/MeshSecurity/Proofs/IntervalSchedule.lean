import Mathlib.Data.List.Iterate
import MeshSecurity.Proofs.ClockSteps
import MeshSecurity.Proofs.HelloHistory
import MeshSecurity.Proofs.IntervalBounds
import MeshSecurity.Trickle.Timetable

/-!
# Intervals keep to a timetable

What an interval timer causes counts from its deadline, so a late poll delays nothing that comes
after it. Between a start or a reset and the next one an engine therefore passes the laps of a
timetable that the first interval and the random words determine, and the polls decide only how
soon it passes them.
-/

namespace MeshSecurity

namespace RandomSource

variable {ρ ρ' : Type} [RandomSource ρ] [RandomSource ρ']

/-- A draw from the second half of an interval takes one word. -/
theorem between_half {size : UInt64} (hsize : 2 ≤ size.toNat) (source : ρ) :
    between (size / 2) size source =
      ((word source).1.map (scale (size / 2) size), (word source).2) := by
  have hhalf : (size / 2).toNat = size.toNat / 2 := UInt64.toNat_div _ _
  apply between_of_lt
  rw [UInt64.lt_iff_toNat_lt]
  omega

/-- Sources that yield the same words draw the same numbers, and yield the same words then. -/
theorem between_congr {source : ρ} {source' : ρ'} (hwords : words source = words source')
    (low high : UInt64) : (between low high source).1 = (between low high source').1 ∧
      words (between low high source).2 = words (between low high source').2 := by
  have hword : (word source).1 = (word source').1 := congrFun hwords 0
  have hrest : words (word source).2 = words (word source').2 :=
    funext fun k => congrFun hwords (k + 1)
  unfold between
  split
  · exact ⟨rfl, hwords⟩
  · generalize word source = taken at hword hrest ⊢
    generalize word source' = taken' at hword hrest ⊢
    obtain ⟨drawn, rest⟩ := taken
    obtain ⟨drawn', rest'⟩ := taken'
    obtain rfl : drawn = drawn' := hword
    cases drawn with
    | none => exact ⟨rfl, hrest⟩
    | some w => exact ⟨rfl, hrest⟩

end RandomSource

namespace Trickle

open Scene

theorem toNat_drawnPoint {size : UInt64} (hsize : 2 ≤ size.toNat) {word : Option UInt32}
    {w : UInt32} (hword : word = some w) :
    (RandomSource.scale (size / 2) size w).toNat = drawnPoint size.toNat word := by
  have hhalf : (size / 2).toNat = size.toNat / 2 := UInt64.toNat_div _ _
  rw [RandomSource.toNat_scale (by rw [UInt64.lt_iff_toNat_lt]; omega), hhalf, hword]
  rfl

/-- The transmission point lies in the second half of the interval. -/
theorem drawnPoint_bounds {size : Nat} (hsize : 0 < size) (word : Option UInt32) :
    size / 2 ≤ drawnPoint size word ∧ drawnPoint size word < size := by
  cases word with
  | none =>
    simp only [drawnPoint]
    omega
  | some w =>
    have hshare : ((size - size / 2) * w.toNat) >>> 32 < size - size / 2 :=
      RandomSource.share_lt (by omega) w
    simp only [drawnPoint]
    omega

variable {width size : Nat} {ρ ℓ π : Type} [RandomSource ρ]

/-- Whether a call leaves the engine to its timetable. -/
def Operation.pollsOrHears : Operation width → Bool
  | .poll _ => true
  | .hearFrom _ => true
  | _ => false

/-- An engine on its lap: at its deadline the lap is due, and that is later than its timer was
set. -/
structure OnSchedule (c : TrickleConfig) (l : Lap) (s : Scene width size ρ ℓ π) : Prop where
  config : s.trickle.config = c
  size : s.trickle.interval.toNat = l.size
  point : s.trickle.transmissionPoint.toNat = l.point
  phase : s.trickle.phase = l.phase
  running : s.trickle.isRunning = true
  due : s.trickle.intervalTimer.start.ticks.toNat + s.trickle.intervalTimer.interval.toNat = l.due
  ahead : 0 < s.trickle.intervalTimer.interval.toNat
  wide : 2 ≤ l.size
  point_lt : l.point < l.size
  words : RandomSource.words s.random = l.words

variable {c : TrickleConfig} {l : Lap} {s : Scene width size ρ ℓ π}

theorem OnSchedule.position (h : OnSchedule c l s) (hfits : s.trickle.intervalTimer.Fits) :
    s.trickle.position = l.position := by
  have hdeadline := Timer.toNat_deadline .zero h.running hfits
  rw [Timer.deadline_of_armed h.running, Option.getD_some, h.due] at hdeadline
  rw [Trickle.position, Timer.deadline_of_armed h.running, Option.map_some, hdeadline, h.size,
    h.point, h.phase]
  rfl

theorem OnSchedule.due_iff (h : OnSchedule c l s) (now : Instant) :
    s.trickle.intervalTimer.due now = true ↔ l.due ≤ now.ticks.toNat := by
  have hdue := h.due
  have hahead := h.ahead
  rw [Timer.due_iff]
  exact ⟨fun ⟨_, helapsed⟩ => by omega, fun hle => ⟨h.running, by omega⟩⟩

/-- A lap does not depend on what the engine counts, nor does it end with the random words. -/
theorem OnSchedule.relaid (h : OnSchedule c l s) (s' : Scene width size ρ ℓ π)
    (halike : Alike s.trickle s'.trickle) :
    OnSchedule c { l with words := RandomSource.words s'.random } s' where
  config := halike.config.trans h.config
  size := halike.interval ▸ h.size
  point := halike.transmissionPoint ▸ h.point
  phase := halike.phase.trans h.phase
  running := (congrArg Timer.armed halike.intervalTimer).trans h.running
  due := halike.intervalTimer ▸ h.due
  ahead := halike.intervalTimer ▸ h.ahead
  wide := h.wide
  point_lt := h.point_lt
  words := rfl

theorem OnSchedule.of_alike (h : OnSchedule c l s) {t : Trickle} (halike : Alike s.trickle t)
    (net : Network width size ℓ π) : OnSchedule c l ⟨t, s.random, net⟩ := by
  have hrelaid := h.relaid ⟨t, s.random, net⟩ halike
  rwa [h.words] at hrelaid

/-- At the transmission point the timer is set to the end of the interval. -/
theorem OnSchedule.transmitted (h : OnSchedule c l s) (hl : l.phase = .transmission)
    {deadline : Instant} (hdeadline : deadline.ticks.toNat = l.due) (ackTimer : Timer)
    (net : Network width size ℓ π) : OnSchedule c (l.next c.maxInterval.toNat)
      ⟨{ s.trickle with
          ackTimer
          intervalTimer :=
            ⟨deadline, Saturating.sub s.trickle.interval s.trickle.transmissionPoint, true⟩
          phase := .intervalEnd },
        s.random, net⟩ := by
  have hsize := h.size
  have hpoint := h.point
  have hlt := h.point_lt
  have hrest := Saturating.toNat_sub s.trickle.interval s.trickle.transmissionPoint
  rw [Lap.due_of_transmission hl] at hdeadline
  rw [Lap.next_of_transmission _ hl]
  refine ⟨h.config, hsize, hpoint, rfl, rfl, ?_, ?_, h.wide, hlt, h.words⟩
  · rw [Lap.due_of_intervalEnd rfl]
    dsimp only
    omega
  · dsimp only
    omega

theorem OnSchedule.toNat_intervalAfter (h : OnSchedule c l s) :
    (s.trickle.intervalAfter s.trickle.interval).toNat =
      min (2 * l.size) c.maxInterval.toNat := by
  rw [Trickle.toNat_intervalAfter, h.size, h.config]

theorem OnSchedule.two_le_intervalAfter (h : OnSchedule c l s)
    (hlongest : 2 ≤ c.maxInterval.toNat) :
    2 ≤ (s.trickle.intervalAfter s.trickle.interval).toNat := by
  have hwide := h.wide
  rw [h.toNat_intervalAfter]
  omega

/-- At the end of an interval the timer is set to the transmission point of the next one. -/
theorem OnSchedule.begun (h : OnSchedule c l s) (hl : l.phase = .intervalEnd)
    (hlongest : 2 ≤ c.maxInterval.toNat) {deadline : Instant}
    (hdeadline : deadline.ticks.toNat = l.due) {point : UInt64}
    (hpoint : point.toNat = drawnPoint (s.trickle.intervalAfter s.trickle.interval).toNat
      (RandomSource.word s.random).1) (ackTimer : Timer) (net : Network width size ℓ π) :
    OnSchedule c (l.next c.maxInterval.toNat)
      ⟨enter deadline (s.trickle.intervalAfter s.trickle.interval) point
          { s.trickle with ackTimer },
        (RandomSource.word s.random).2, net⟩ := by
  have hsize := h.two_le_intervalAfter hlongest
  have hbounds := drawnPoint_bounds (Nat.lt_of_lt_of_le Nat.zero_lt_two hsize)
    (RandomSource.word s.random).1
  rw [← hpoint] at hbounds
  rw [h.toNat_intervalAfter] at hsize hpoint hbounds
  have hword : (RandomSource.word s.random).1 = l.words 0 := congrFun h.words 0
  rw [hword] at hpoint
  rw [Lap.due_of_intervalEnd hl] at hdeadline
  rw [Lap.next_of_intervalEnd _ hl]
  refine ⟨h.config, h.toNat_intervalAfter, hpoint, rfl, rfl, ?_, ?_, hsize, ?_, ?_⟩
  · rw [Lap.due_of_transmission rfl]
    exact congrArg₂ (· + ·) hdeadline hpoint
  · change 0 < point.toNat
    omega
  · rw [← hpoint]
    exact hbounds.2
  · exact funext fun k => congrFun h.words (k + 1)

section Poll

variable [LinkLayer ℓ width]

theorem passDeadline_of_transmission (deadline : Instant) {t : Trickle}
    (hphase : t.phase = .transmission) (random : ρ) (net : Network width size ℓ π) :
    ∃ ackTimer net', (t.passDeadline deadline random net).2 = (
      { t with
        ackTimer
        intervalTimer := ⟨deadline, Saturating.sub t.interval t.transmissionPoint, true⟩
        phase := .intervalEnd },
      random, net') := by
  obtain ⟨event, ackTimer, net', hpass⟩ := t.passTransmission_frame deadline net
  refine ⟨ackTimer, net', ?_⟩
  simp only [passDeadline, hphase, hpass]

/-- Drawn or not, the next transmission point takes one word of the source. -/
theorem passDeadline_of_intervalEnd (deadline : Instant) {t : Trickle}
    (hphase : t.phase = .intervalEnd) (hsize : 2 ≤ (t.intervalAfter t.interval).toNat) (random : ρ)
    (net : Network width size ℓ π) :
    ∃ point, (t.passDeadline deadline random net).2 =
        (t.enter deadline (t.intervalAfter t.interval) point, (RandomSource.word random).2, net) ∧
      point.toNat = drawnPoint (t.intervalAfter t.interval).toNat (RandomSource.word random).1 := by
  rcases t.beginAfter_cases deadline t.interval random with
    ⟨point, random', hdraw, hbegin⟩ | ⟨random', hdraw, hbegin⟩
  · rw [RandomSource.between_half hsize, Prod.mk.injEq, Option.map_eq_some_iff] at hdraw
    obtain ⟨⟨w, hword, rfl⟩, rfl⟩ := hdraw
    exact ⟨_, by simp only [passDeadline, hphase, hbegin], toNat_drawnPoint hsize hword⟩
  · rw [RandomSource.between_half hsize, Prod.mk.injEq, Option.map_eq_none_iff] at hdraw
    obtain ⟨hword, rfl⟩ := hdraw
    refine ⟨t.intervalAfter t.interval / 2, by simp only [passDeadline, hphase, hbegin], ?_⟩
    rw [hword]
    exact UInt64.toNat_div _ _

/-- A poll that comes too early leaves the engine on its lap. -/
theorem OnSchedule.poll_of_early (h : OnSchedule c l s) (henabled : c.enabled = true)
    {now : Instant} (hearly : now.ticks.toNat < l.due) :
    OnSchedule c l (s.perform (.poll now)).2 := by
  rw [← h.config] at henabled
  obtain ⟨events, ackTimer, net, hacks⟩ := s.trickle.pollAcks_frame now s.net
  have hpoll := poll_of_enabled henabled hacks s.random
  have hwaits : s.trickle.intervalTimer.due now = false := by
    rw [← Bool.not_eq_true, h.due_iff]
    exact Nat.not_le.mpr hearly
  rw [hwaits] at hpoll
  simp only [perform, hpoll]
  exact ⟨h.config, h.size, h.point, h.phase, h.running, h.due, h.ahead, h.wide, h.point_lt,
    h.words⟩

/-- A poll moves the engine on to the next lap exactly if the lap is due. -/
theorem OnSchedule.poll (h : OnSchedule c l s) (henabled : c.enabled = true)
    (hlongest : 2 ≤ c.maxInterval.toNat) (hfits : s.trickle.intervalTimer.Fits) (now : Instant) :
    if l.due ≤ now.ticks.toNat then
      OnSchedule c (l.next c.maxInterval.toNat) (s.perform (.poll now)).2
    else OnSchedule c l (s.perform (.poll now)).2 := by
  split
  · rename_i hpast
    rw [← h.config] at henabled
    obtain ⟨events, ackTimer, net, hacks⟩ := s.trickle.pollAcks_frame now s.net
    have hpoll := poll_of_enabled henabled hacks s.random
    have hfires : s.trickle.intervalTimer.due now = true := (h.due_iff now).mpr hpast
    have hdeadline := (Timer.toNat_deadline now h.running hfits).trans h.due
    rw [hfires] at hpoll
    cases hl : l.phase with
    | transmission =>
      obtain ⟨ackTimer', net', hpass⟩ := passDeadline_of_transmission
        (s.trickle.intervalTimer.deadline.getD now)
        (t := { s.trickle with ackTimer, intervalTimer := s.trickle.intervalTimer.stop })
        (h.phase.trans hl) s.random net
      simp only [hpass] at hpoll
      simp only [perform, hpoll]
      exact h.transmitted hl hdeadline ackTimer' net'
    | intervalEnd =>
      obtain ⟨point, hpass, hpoint⟩ := passDeadline_of_intervalEnd
        (s.trickle.intervalTimer.deadline.getD now)
        (t := { s.trickle with ackTimer, intervalTimer := s.trickle.intervalTimer.stop })
        (h.phase.trans hl) (h.two_le_intervalAfter hlongest) s.random net
      simp only [hpass] at hpoll
      simp only [perform, hpoll]
      exact h.begun hl hlongest hdeadline hpoint ackTimer net
  · rename_i hearly
    exact h.poll_of_early henabled (Nat.not_le.mp hearly)

/-- A timer that has run out does not reach beyond the last tick. -/
theorem OnSchedule.poll_of_due (h : OnSchedule c l s) (henabled : c.enabled = true)
    (hlongest : 2 ≤ c.maxInterval.toNat) {now : Instant} (hdue : l.due ≤ now.ticks.toNat) :
    OnSchedule c (l.next c.maxInterval.toNat) (s.perform (.poll now)).2 := by
  have hword := now.ticks.toNat_lt
  have hfits : s.trickle.intervalTimer.Fits := by
    rw [← h.due] at hdue
    unfold Timer.Fits
    omega
  have hpoll := h.poll henabled hlongest hfits now
  rwa [if_pos hdue] at hpoll

/-- The phase shows whether a poll moved the engine on. -/
theorem OnSchedule.moves_iff (h : OnSchedule c l s) (henabled : c.enabled = true)
    (hlongest : 2 ≤ c.maxInterval.toNat) (hfits : s.trickle.intervalTimer.Fits) (now : Instant) :
    (s.perform (.poll now)).2.trickle.phase ≠ s.trickle.phase ↔ l.due ≤ now.ticks.toNat := by
  have hpoll := h.poll henabled hlongest hfits now
  split at hpoll
  · rename_i hdue
    rw [hpoll.phase, h.phase]
    exact iff_of_true (l.phase_next_ne _) hdue
  · rename_i hearly
    rw [hpoll.phase, h.phase]
    exact iff_of_false (not_not_intro rfl) hearly

theorem OnSchedule.step {op : Operation width} (h : OnSchedule c l s) (hop : op.pollsOrHears = true)
    (hlongest : 2 ≤ c.maxInterval.toNat) (hfits : s.trickle.intervalTimer.Fits) :
    OnSchedule c l (s.perform op).2 ∨
      OnSchedule c (l.next c.maxInterval.toNat) (s.perform op).2 := by
  cases op with
  | poll now =>
    cases henabled : c.enabled with
    | false =>
      have hidle : (s.perform (.poll now)).2 = s := by
        rw [← h.config] at henabled
        simp [perform, Trickle.poll, henabled]
      exact .inl (hidle.symm ▸ h)
    | true =>
      have hpoll := h.poll henabled hlongest hfits now
      split at hpoll
      · exact .inr hpoll
      · exact .inl hpoll
  | hearFrom peer =>
    have heffect := (s.perform_clockEffect (.hearFrom peer)).1
    cases heffect with
    | kept hquiet halike => exact .inl (h.of_alike halike _)
  | start => cases hop
  | stop => cases hop
  | reset => cases hop
  | newNeighbor => cases hop

theorem Scene.DeadlinesFit.first {ops : List (Operation width)} {s : Scene width size ρ ℓ π}
    (hfits : DeadlinesFit ops s) : s.trickle.intervalTimer.Fits := by
  cases ops with
  | nil => exact hfits
  | cons op ops => exact hfits.1

theorem Scene.DeadlinesFit.last {ops : List (Operation width)} {s : Scene width size ρ ℓ π}
    (hfits : DeadlinesFit ops s) : (s.run ops).2.trickle.intervalTimer.Fits := by
  induction ops generalizing s with
  | nil => exact hfits
  | cons op ops ih => exact ih hfits.2

theorem OnSchedule.run (hlongest : 2 ≤ c.maxInterval.toNat) (ops : List (Operation width))
    (h : OnSchedule c l s) (hops : ∀ op ∈ ops, op.pollsOrHears = true)
    (hfits : DeadlinesFit ops s) :
    ∃ n, positions ops s = l.positions c.maxInterval.toNat (n + 1) ∧
      OnSchedule c ((Lap.next c.maxInterval.toNat)^[n] l) (s.run ops).2 := by
  induction ops generalizing l s with
  | nil => exact ⟨0, congrArg (fun p => [p]) (h.position hfits), h⟩
  | cons op ops ih =>
    have hops' : ∀ op ∈ ops, op.pollsOrHears = true :=
      fun op hmem => hops op (List.mem_cons_of_mem _ hmem)
    have hposition := h.position hfits.1
    -- a call that does not move the engine on is not seen in the positions
    rcases h.step (hops op List.mem_cons_self) hlongest hfits.1 with hstay | hmove
    · obtain ⟨n, hpositions, hrun⟩ := ih hstay hops' hfits.2
      have hsame := (hstay.position hfits.2.first).trans hposition.symm
      exact ⟨n, by rw [positions, if_pos hsame, hpositions], hrun⟩
    · obtain ⟨n, hpositions, hrun⟩ := ih hmove hops' hfits.2
      have hother : (s.perform op).2.trickle.position ≠ s.trickle.position := by
        rw [hmove.position hfits.2.first, hposition]
        exact fun hsame => l.phase_next_ne _ (congrArg Position.phase hsame)
      refine ⟨n + 1, ?_, hrun⟩
      rw [positions, if_neg hother, hpositions, hposition]
      rfl

/-- The time at which a call begins an interval, if it does. -/
def Operation.beginTime? : Operation width → Option Instant
  | .start now => some now
  | .reset now => some now
  | .newNeighbor now _ => some now
  | _ => none

/-- What is left by a call that begins an interval. -/
inductive Begun (c : TrickleConfig) (begin : Instant) (random : ρ) :
    Operation width → Trickle → ρ → Prop
  | started {t interval random'}
      (hdraw : RandomSource.between c.minInterval c.maxInterval random = (some interval, random'))
      (hinterval : t.interval = interval) (hpoint : t.transmissionPoint = 0)
      (hphase : t.phase = .intervalEnd)
      (htimer : t.intervalTimer = ⟨begin, Saturating.sub interval 0, true⟩) :
      Begun c begin random (.start begin) t random'
  | reset {op t point random'} (hop : op ≠ .start begin)
      (hdraw : RandomSource.between (resetInterval c / 2) (resetInterval c) random =
        (some point, random'))
      (hinterval : t.interval = resetInterval c) (hpoint : t.transmissionPoint = point)
      (hphase : t.phase = .transmission) (htimer : t.intervalTimer = ⟨begin, point, true⟩) :
      Begun c begin random op t random'

theorem Scene.perform_begun {s : Scene width size ρ ℓ π} {op : Operation width} {begin : Instant}
    (htime : op.beginTime? = some begin) (hbegins : signs op (s.perform op).1 ≠ []) :
    Begun s.trickle.config begin s.random op (s.perform op).2.trickle (s.perform op).2.random := by
  obtain ⟨t, random, net⟩ := s
  cases op with
  | start now =>
    cases htime
    cases henabled : t.config.enabled with
    | false => exact absurd (by simp only [perform, start, henabled]; rfl) hbegins
    | true =>
      rcases hdraw : RandomSource.between t.config.minInterval t.config.maxInterval random with
        ⟨_ | interval, random'⟩
      · exact absurd (by simp only [perform, start, henabled, hdraw]; rfl) hbegins
      · obtain ⟨events, ackTimer, net', hstart⟩ := start_of_draw begin henabled hdraw net
        simp only [perform, hstart]
        exact .started hdraw rfl rfl rfl rfl
  | reset now =>
    cases htime
    rcases t.reset_cases begin random with
      ⟨random', hreset | hreset⟩ | ⟨point, random', -, -, hdraw, hreset⟩
    · exact absurd (by simp only [perform, hreset]; rfl) hbegins
    · exact absurd (by simp only [perform, hreset]; rfl) hbegins
    · rw [intervalAfter_half] at hdraw hreset
      simp only [perform, hreset]
      exact .reset (fun h => by cases h) hdraw rfl rfl rfl rfl
  | newNeighbor now permanentNeighbors =>
    cases htime
    rcases t.newNeighbor_cases begin permanentNeighbors random with
      ⟨result, newcomers, windowStart, windowResets, random', hresult, hnew⟩ |
        ⟨point, windowStart, windowResets, random', -, -, hdraw, hnew⟩
    · refine absurd ?_ hbegins
      simp only [perform, hnew]
      rcases hresult with rfl | rfl | rfl <;> rfl
    · rw [intervalAfter_half] at hdraw hnew
      simp only [perform, hnew]
      exact .reset (fun h => by cases h) hdraw rfl rfl rfl rfl
  | poll => cases htime
  | stop => cases htime
  | hearFrom => cases htime

end Poll

/-- A drawn interval is at its end from the begin on, and one after a reset has its transmission
point ahead. -/
theorem Begun.onSchedule (hmin : 2 ≤ c.minInterval) {begin : Instant} {random : ρ}
    {op : Operation width} (hconfig : s.trickle.config = c)
    (h : Begun c begin random op s.trickle s.random) : OnSchedule c (lap begin s) s := by
  have hmin' : 2 ≤ c.minInterval.toNat := UInt64.le_iff_toNat_le.mp hmin
  cases h with
  | started hdraw hinterval hpoint hphase htimer =>
    -- the transmission point is passed at once, so the lap is the rest of the interval
    have hlow := (RandomSource.between_bounds c.minInterval_le_maxInterval
      (congrArg Prod.fst hdraw)).1
    rw [← hinterval, UInt64.le_iff_toNat_le] at hlow
    have hrest := Saturating.toNat_sub s.trickle.interval 0
    rw [← hinterval] at htimer
    refine ⟨hconfig, rfl, rfl, rfl, congrArg Timer.armed htimer, ?_, ?_, ?_, ?_, rfl⟩
    · rw [Lap.due_of_intervalEnd hphase, htimer]
      exact congrArg (begin.ticks.toNat + ·) hrest
    · rw [htimer, hrest]
      exact Nat.lt_of_lt_of_le (Nat.lt_of_lt_of_le Nat.zero_lt_two hmin') hlow
    · exact hmin'.trans hlow
    · change s.trickle.transmissionPoint.toNat < s.trickle.interval.toNat
      rw [hpoint]
      exact Nat.lt_of_lt_of_le (Nat.lt_of_lt_of_le Nat.zero_lt_two hmin') hlow
  | reset hop hdraw hinterval hpoint hphase htimer =>
    have hsize := toNat_resetInterval c
    rw [RandomSource.between_half (by omega), Prod.mk.injEq, Option.map_eq_some_iff] at hdraw
    obtain ⟨⟨w, hword, rfl⟩, hrandom⟩ := hdraw
    have hwide : 2 ≤ (resetInterval c).toNat := by omega
    have hdrawn := toNat_drawnPoint hwide hword
    have hbounds := drawnPoint_bounds (Nat.lt_of_lt_of_le Nat.zero_lt_two hwide)
      (RandomSource.word random).1
    rw [← hdrawn, ← hpoint, ← hinterval] at hbounds
    rw [← hinterval] at hsize
    rw [← hpoint] at htimer
    refine ⟨hconfig, rfl, rfl, rfl, congrArg Timer.armed htimer, ?_, ?_, ?_, hbounds.2, rfl⟩
    · rw [Lap.due_of_transmission hphase, htimer]
      rfl
    · rw [htimer]
      dsimp only
      omega
    · change 2 ≤ s.trickle.interval.toNat
      omega

/-- The same call begins the same interval when the random words are the same. -/
theorem Begun.lap_eq {begin : Instant} {random : ρ} {op : Operation width}
    (h : Begun c begin random op s.trickle s.random) {size' : Nat} {ρ' ℓ' π' : Type}
    [RandomSource ρ'] {random' : ρ'} {s' : Scene width size' ρ' ℓ' π'}
    (h' : Begun c begin random' op s'.trickle s'.random)
    (hwords : RandomSource.words random = RandomSource.words random') :
    lap begin s = lap begin s' := by
  cases h with
  | started hdraw hinterval hpoint hphase htimer =>
    cases h' with
    | started hdraw' hinterval' hpoint' hphase' htimer' =>
      have hsame := RandomSource.between_congr hwords c.minInterval c.maxInterval
      rw [hdraw, hdraw', Option.some.injEq] at hsame
      rw [lap, lap, hinterval, hinterval', hpoint, hpoint', hphase, hphase', hsame.1, hsame.2]
    | reset hop => exact absurd rfl hop
  | reset hop hdraw hinterval hpoint hphase htimer =>
    cases h' with
    | started => exact absurd rfl hop
    | reset hop' hdraw' hinterval' hpoint' hphase' htimer' =>
      have hsame := RandomSource.between_congr hwords (resetInterval c / 2) (resetInterval c)
      rw [hdraw, hdraw', Option.some.injEq] at hsame
      rw [lap, lap, hinterval, hinterval', hpoint, hpoint', hphase, hphase', hsame.1, hsame.2]

theorem Lap.follows_next {longest : Nat} (hlongest : 2 ≤ longest) (hwide : 2 ≤ l.size)
    (hphase : l.phase = .intervalEnd) : l.Follows longest (l.next longest) := by
  rw [Lap.next_of_intervalEnd longest hphase]
  have hbounds := drawnPoint_bounds (by omega : 0 < min (2 * l.size) longest) (l.words 0)
  refine ⟨rfl, rfl, hbounds.1, hbounds.2, fun hundrawn => ?_⟩
  rw [hundrawn]
  rfl

theorem Lap.two_le_size_iterate {longest : Nat} (hlongest : 2 ≤ longest) (hwide : 2 ≤ l.size)
    (n : Nat) : 2 ≤ ((Lap.next longest)^[n] l).size := by
  induction n with
  | zero => exact hwide
  | succ n ih =>
    rw [Function.iterate_succ_apply']
    cases hphase : ((Lap.next longest)^[n] l).phase with
    | transmission => rwa [Lap.next_of_transmission longest hphase]
    | intervalEnd =>
      rw [(Lap.follows_next hlongest ih hphase).size]
      omega

theorem Lap.positions_isPrefix (longest : Nat) (l : Lap) {m n : Nat} (hle : m ≤ n) :
    l.positions longest m <+: l.positions longest n := by
  rw [positions, positions, ← Nat.min_eq_left hle, ← List.take_iterate]
  exact (List.take_prefix m _).map _

section Segment

variable [LinkLayer ℓ width]

/-- A call that begins an interval at `begin`, and after it polls and HELLOs of others. -/
structure Segment (c : TrickleConfig) (begin : Instant) (op : Operation width)
    (ops : List (Operation width)) (s : Scene width size ρ ℓ π) : Prop where
  config : s.trickle.config = c
  time : op.beginTime? = some begin
  begins : signs op (s.perform op).1 ≠ []
  polls : ∀ op ∈ ops, op.pollsOrHears = true
  fits : DeadlinesFit ops (s.perform op).2

theorem Segment.onSchedule {begin : Instant} {op : Operation width} {ops : List (Operation width)}
    (hsegment : Segment c begin op ops s) (hmin : 2 ≤ c.minInterval) :
    OnSchedule c (lap begin (s.perform op).2) (s.perform op).2 := by
  have hbegun := perform_begun hsegment.time hsegment.begins
  rw [hsegment.config] at hbegun
  exact hbegun.onSchedule hmin ((s.perform_clockEffect op).1.config.trans hsegment.config)

/-- From the begin of an interval on, an engine passes the laps of its timetable however late it is
polled. It moves on exactly when a lap is due, and engines with the same random words pass the same
laps. -/
theorem schedule_without_drift (hmin : 2 ≤ c.minInterval) {begin : Instant}
    {op : Operation width} {ops : List (Operation width)} (hsegment : Segment c begin op ops s) :
    let l := lap begin (s.perform op).2
    let longest := c.maxInterval.toNat
    (∃ n, positions ops (s.perform op).2 = l.positions longest (n + 1) ∧
      (run ops (s.perform op).2).2.trickle.position = ((Lap.next longest)^[n] l).position ∧
      (c.enabled = true → ∀ now,
        ((run ops (s.perform op).2).2.perform (.poll now)).2.trickle.phase ≠
          (run ops (s.perform op).2).2.trickle.phase ↔
        ((Lap.next longest)^[n] l).due ≤ now.ticks.toNat)) ∧
    (∀ n, ((Lap.next longest)^[n] l).phase = .intervalEnd →
      ((Lap.next longest)^[n] l).Follows longest ((Lap.next longest)^[n + 1] l)) ∧
    ∀ (size' : Nat) (ρ' ℓ' π' : Type) [RandomSource ρ'] [LinkLayer ℓ' width]
      (s' : Scene width size' ρ' ℓ' π') (ops' : List (Operation width)),
      Segment c begin op ops' s' → RandomSource.words s.random = RandomSource.words s'.random →
        positions ops (s.perform op).2 <+: positions ops' (s'.perform op).2 ∨
          positions ops' (s'.perform op).2 <+: positions ops (s.perform op).2 := by
  intro l longest
  have hlongest : 2 ≤ longest := UInt64.le_iff_toNat_le.mp
    (UInt64.le_trans hmin c.minInterval_le_maxInterval)
  have hschedule : OnSchedule c l (s.perform op).2 := hsegment.onSchedule hmin
  obtain ⟨n, hpositions, hrun⟩ := hschedule.run hlongest ops hsegment.polls hsegment.fits
  have hlast := hsegment.fits.last
  refine ⟨⟨n, hpositions, hrun.position hlast,
    fun henabled now => hrun.moves_iff henabled hlongest hlast now⟩, fun n hphase => ?_,
    fun size' ρ' ℓ' π' _ _ s' ops' hsegment' hwords => ?_⟩
  · rw [Function.iterate_succ_apply']
    exact Lap.follows_next hlongest (Lap.two_le_size_iterate hlongest hschedule.wide n) hphase
  · have hbegun := perform_begun hsegment.time hsegment.begins
    have hbegun' := perform_begun hsegment'.time hsegment'.begins
    rw [hsegment.config] at hbegun
    rw [hsegment'.config] at hbegun'
    have hsame : l = lap begin (s'.perform op).2 := hbegun.lap_eq hbegun' hwords
    have hschedule' := hsegment'.onSchedule hmin
    rw [← hsame] at hschedule'
    obtain ⟨n', hpositions', -⟩ :=
      hschedule'.run hlongest ops' hsegment'.polls hsegment'.fits
    rw [hpositions, hpositions']
    exact (Nat.le_total (n + 1) (n' + 1)).imp (l.positions_isPrefix longest)
      (l.positions_isPrefix longest)

end Segment

/-- Polls at the deadlines of an engine whose first interval has three ticks. -/
def inTime : List (Operation 8) := [.poll ⟨3⟩, .poll ⟨6⟩, .poll ⟨9⟩]

def tooLate : List (Operation 8) := [.poll ⟨100⟩, .hearFrom (.repeated 2), .poll ⟨100⟩]

theorem schedule_without_drift_threeTicks :
    2 ≤ threeTicks.minInterval ∧
    Segment threeTicks .zero (.start .zero) inTime (lowest threeTicks) ∧
    Segment threeTicks .zero (.start .zero) tooLate (lowest threeTicks) ∧
    (positions inTime ((lowest threeTicks).perform (.start .zero)).2 <+:
        positions tooLate ((lowest threeTicks).perform (.start .zero)).2 ∨
      positions tooLate ((lowest threeTicks).perform (.start .zero)).2 <+:
        positions inTime ((lowest threeTicks).perform (.start .zero)).2) := by
  have hmin : 2 ≤ threeTicks.minInterval := by decide
  have hinTime : Segment threeTicks .zero (.start .zero) inTime (lowest threeTicks) :=
    ⟨rfl, rfl, by decide, by decide, by decide⟩
  have htooLate : Segment threeTicks .zero (.start .zero) tooLate (lowest threeTicks) :=
    ⟨rfl, rfl, by decide, by decide, by decide⟩
  obtain ⟨-, -, hsame⟩ := schedule_without_drift hmin hinTime
  exact ⟨hmin, hinTime, htooLate,
    hsame 4 ConstantWord (Radio 8) Unit (lowest threeTicks) tooLate htooLate rfl⟩

end Trickle

end MeshSecurity
