import MeshSecurity.Proofs.IntervalSchedule

/-!
# Polls at the next deadline

A poll before the next deadline does nothing, and one from it on lets a timer run out. Whoever
polls at the next deadline again and again gets ahead in time: the interval timer is set to a later
deadline than the one that passed, and the wait for answers ends once for each of those.
-/

namespace MeshSecurity.Trickle

open Scene

variable {width size : Nat} {ρ ℓ π : Type}

/-- Whether no timer runs out after the last tick. -/
def TimersFit (t : Trickle) : Prop :=
  (t.intervalTimer.armed = true → t.intervalTimer.Fits) ∧
    (t.ackTimer.armed = true → t.ackTimer.Fits)

instance (t : Trickle) : Decidable t.TimersFit := inferInstanceAs (Decidable (_ ∧ _))

section Next

variable {t : Trickle} {d : Instant}

/-- The next deadline is the earlier one of the two. -/
theorem nextDeadline_cases (hnext : t.nextDeadline = some d) :
    (t.intervalTimer.deadline = some d ∨ t.ackTimer.deadline = some d) ∧
      ∀ e, t.intervalTimer.deadline = some e ∨ t.ackTimer.deadline = some e →
        d.ticks ≤ e.ticks := by
  unfold nextDeadline at hnext
  rcases hinterval : t.intervalTimer.deadline with _ | a
  · rw [hinterval] at hnext
    refine ⟨.inr hnext, fun e he => ?_⟩
    obtain rfl : d = e := Option.some.inj (hnext.symm.trans (he.resolve_left nofun))
    exact UInt64.le_refl _
  · rcases hacks : t.ackTimer.deadline with _ | b
    · rw [hinterval, hacks] at hnext
      refine ⟨.inl hnext, fun e he => ?_⟩
      obtain rfl : d = e := Option.some.inj (hnext.symm.trans (he.resolve_right nofun))
      exact UInt64.le_refl _
    · rw [hinterval, hacks] at hnext
      obtain rfl : a.earlier b = d := Option.some.inj hnext
      have hmin := Instant.toNat_earlier a b
      refine ⟨?_, fun e he => ?_⟩
      · unfold Instant.earlier
        split
        · exact .inl rfl
        · exact .inr rfl
      · rw [UInt64.le_iff_toNat_le]
        rcases he with he | he
        · cases he
          omega
        · cases he
          omega

theorem exists_nextDeadline (hrunning : t.isRunning = true) : ∃ d, t.nextDeadline = some d := by
  unfold nextDeadline
  rw [Timer.deadline_of_armed hrunning]
  cases t.ackTimer.deadline with
  | none => exact ⟨_, rfl⟩
  | some b => exact ⟨_, rfl⟩

/-- Before the next deadline no timer has run out. -/
theorem not_due_of_lt {now : Instant} {timer : Timer}
    (htimer : timer = t.intervalTimer ∨ timer = t.ackTimer)
    (hrunning : timer.armed = true → t.isRunning = true)
    (hpast : timer.armed = true → timer.start.ticks ≤ now.ticks)
    (hearly : ∀ d, t.nextDeadline = some d → now.ticks < d.ticks) :
    timer.due now = false := by
  rw [← Bool.not_eq_true]
  intro hdue
  have harmed := (Timer.due_iff.mp hdue).1
  obtain ⟨e, hdeadline, hle⟩ := Timer.exists_deadline_of_due (hpast harmed) hdue
  obtain ⟨d, hnext⟩ := exists_nextDeadline (hrunning harmed)
  have hfirst : d.ticks ≤ e.ticks := by
    refine (nextDeadline_cases hnext).2 e ?_
    rcases htimer with rfl | rfl
    · exact .inl hdeadline
    · exact .inr hdeadline
  exact UInt64.not_lt.mpr (UInt64.le_trans hfirst hle) (hearly d hnext)

end Next

section Polled

variable {now : Instant} {t t' : Trickle} {result : Except Error (List TrickleEvent)}
  {calls : List LinkCall}

/-- A transmission changes no challenge. -/
theorem Transmission.challenge_kept {event : TrickleEvent} {ackTimer : Timer}
    (h : Transmission now t event calls ackTimer) : .challengeChanged ∉ calls := by
  cases h <;> simp

theorem Polled.challengeChanged_iff (h : Polled now t result calls t') :
    .challengeChanged ∈ calls ↔ t.ackTimer.due now = true := by
  obtain ⟨hacks, hinterval⟩ := h
  cases hacks with
  | ended hdue => exact iff_of_true (List.mem_append_left _ List.mem_cons_self) hdue
  | waiting hdue =>
    rw [List.nil_append, hdue]
    refine iff_of_false ?_ Bool.false_ne_true
    cases hinterval with
    | early => exact List.not_mem_nil
    | fired hfires hpass =>
      cases hpass with
      | transmission hphase hpass => exact hpass.challenge_kept
      | ended => exact List.not_mem_nil

/-- A poll that lets a timer run out reports it. -/
theorem Polled.result_ne (h : Polled now t result calls t')
    (hdue : t.intervalTimer.due now = true ∨ t.ackTimer.due now = true) : result ≠ .ok [] := by
  obtain ⟨hacks, hinterval⟩ := h
  cases hinterval with
  | @fired result _ _ hfires hpass =>
    cases result with
    | error e => exact nofun
    | ok event => simp [Except.map]
  | early hearly =>
    cases hacks with
    | ended => simp [Except.map]
    | waiting hwaits =>
      rw [hwaits, hearly] at hdue
      exact absurd hdue (by decide)

/-- The interval timer that has run out is set anew at its deadline. -/
theorem Polled.restarted (h : Polled now t result calls t')
    (hdue : t.intervalTimer.due now = true) :
    t.intervalTimer.deadline = some t'.intervalTimer.start := by
  obtain ⟨hacks, hinterval⟩ := h
  obtain ⟨ackTimer, rfl⟩ := hacks.frame
  have hdeadline := Timer.deadline_of_armed (Timer.due_iff.mp hdue).1
  cases hinterval with
  | early hearly => exact absurd hdue (Bool.eq_false_iff.mp hearly)
  | fired hdue hpass =>
    dsimp only at hpass
    rw [hdeadline, Option.getD_some] at hpass
    cases hpass with
    | transmission => exact hdeadline
    | ended => exact hdeadline

theorem Polled.intervalTimer_kept (h : Polled now t result calls t')
    (hearly : t.intervalTimer.due now = false) : t'.intervalTimer = t.intervalTimer := by
  obtain ⟨hacks, hinterval⟩ := h
  obtain ⟨ackTimer, rfl⟩ := hacks.frame
  cases hinterval with
  | early => rfl
  | fired hdue => exact absurd hdue (Bool.eq_false_iff.mp hearly)

/-- After a poll answers are awaited since the deadline of the interval, or as before, and then
they were not due. -/
theorem Polled.ackTimer_cases (h : Polled now t result calls t')
    (harmed : t'.ackTimer.armed = true) :
    (t.ackTimer.due now = false ∧ t'.ackTimer = t.ackTimer) ∨
      t.intervalTimer.due now = true ∧
        t'.ackTimer = ⟨t'.intervalTimer.start, t.config.ackWait, true⟩ := by
  obtain @⟨_, _, t₁, _, _, _, hacks, hinterval⟩ := h
  have hkept (hsame : t'.ackTimer = t₁.ackTimer) :
      t.ackTimer.due now = false ∧ t'.ackTimer = t.ackTimer := by
    cases hacks with
    | waiting hdue => exact ⟨hdue, hsame⟩
    | ended =>
      rw [hsame] at harmed
      cases harmed
  obtain ⟨ackTimer, rfl⟩ := hacks.frame
  cases hinterval with
  | early => exact .inl (hkept rfl)
  | fired hdue hpass =>
    cases hpass with
    | ended => exact .inl (hkept rfl)
    | transmission hphase hpass =>
      cases hpass with
      | suppressed => exact .inl (hkept rfl)
      | awaiting => exact .inl (hkept rfl)
      | refused => exact .inl (hkept rfl)
      | sent => exact .inr ⟨hdue, rfl⟩

end Polled

/-- Answers are awaited only while the interval timer is armed, and since an instant that is not
after the one at which it was set. -/
def AwaitsBehind (t : Trickle) : Prop :=
  t.ackTimer.armed = true →
    t.isRunning = true ∧ t.ackTimer.start.ticks ≤ t.intervalTimer.start.ticks

section AwaitsBehind

variable {now : Instant} {t t' : Trickle}

theorem AwaitsBehind.of_alike (h : AwaitsBehind t) (halike : Alike t t') : AwaitsBehind t' := by
  rw [AwaitsBehind, isRunning, halike.ackTimer, halike.intervalTimer]
  exact h

theorem Transmission.ackTimer_le {event : TrickleEvent} {calls : List LinkCall} {ackTimer : Timer}
    (hpass : Transmission now t event calls ackTimer)
    (h : t.ackTimer.armed = true → t.ackTimer.start.ticks ≤ now.ticks)
    (harmed : ackTimer.armed = true) : ackTimer.start.ticks ≤ now.ticks := by
  cases hpass with
  | suppressed => exact h harmed
  | awaiting => exact h harmed
  | refused => exact h harmed
  | sent => exact UInt64.le_refl _

theorem AwaitsBehind.polled {result : Except Error (List TrickleEvent)} {calls : List LinkCall}
    (h : AwaitsBehind t) (hpolled : Polled now t result calls t') : AwaitsBehind t' := by
  obtain @⟨_, _, t₁, _, _, _, hacks, hinterval⟩ := hpolled
  have hacked : AwaitsBehind t₁ := by
    cases hacks with
    | waiting => exact h
    | ended => exact fun harmed => absurd harmed Bool.false_ne_true
  cases hinterval with
  | early => exact hacked
  | fired hdue hpass =>
    -- what begins now begins at the deadline, which the wait for answers does not follow
    have hpast (harmed : t₁.ackTimer.armed = true) :
        t₁.ackTimer.start.ticks ≤ (t₁.intervalTimer.deadline.getD now).ticks :=
      UInt64.le_trans (hacked harmed).2
        (Timer.start_le_deadline now (Timer.due_iff.mp hdue).1)
    cases hpass with
    | transmission hphase hpass => exact fun harmed => ⟨rfl, hpass.ackTimer_le hpast harmed⟩
    | ended => exact fun harmed => ⟨rfl, hpast harmed⟩

theorem AwaitsBehind.begun {op : Operation width} {answer : Answer} {calls : List LinkCall}
    (h : AwaitsBehind t) (heffect : ClockEffect t op answer calls t')
    (htime : op.beginTime? = some now)
    (hlater : t.isRunning = true → t.intervalTimer.start.ticks ≤ now.ticks) :
    AwaitsBehind t' := by
  have hpast (harmed : t.ackTimer.armed = true) : t.ackTimer.start.ticks ≤ now.ticks :=
    UInt64.le_trans (h harmed).2 (hlater (h harmed).1)
  cases heffect with
  | kept hquiet halike => exact h.of_alike halike
  | stopped => cases htime
  | started henabled hpass =>
    cases htime
    exact fun harmed => ⟨rfl, hpass.ackTimer_le hpast harmed⟩
  | @reset _ begin point _ htime' hrunning hcounter halike =>
    obtain rfl : begin = now := by cases op <;> cases htime <;> cases htime' <;> rfl
    have hentered : AwaitsBehind
        (t.enter begin (t.intervalAfter (t.config.minInterval / 2)) point) :=
      fun harmed => ⟨rfl, hpast harmed⟩
    exact hentered.of_alike halike
  | polled => cases htime

end AwaitsBehind

theorem ClockEffect.alike_of_unsigned {op : Operation width} {answer : Answer}
    {calls : List LinkCall} {now : Instant} {t t' : Trickle}
    (heffect : ClockEffect t op answer calls t') (htime : op.beginTime? = some now)
    (hnone : signs op answer = []) : Alike t t' := by
  cases heffect with
  | kept hquiet halike => exact halike
  | stopped => cases htime
  | started => exact absurd hnone (List.cons_ne_nil _ _)
  | reset =>
    rw [signs_reset] at hnone
    exact absurd hnone (List.cons_ne_nil _ _)
  | polled => cases htime

variable [RandomSource ρ] {c : TrickleConfig} {s : Scene width size ρ ℓ π}

/-- What holds of the timers all along a run: while the engine runs, the interval timer is set to
an instant ahead of it. -/
structure Clocked (c : TrickleConfig) (s : Scene width size ρ ℓ π) : Prop where
  config : s.trickle.config = c
  scheduled : s.trickle.isRunning = true → ∃ l, OnSchedule c l s
  awaiting : AwaitsBehind s.trickle

namespace Clocked

theorem of_stopped (c : TrickleConfig) (random : ρ) (net : Network width size ℓ π) :
    Clocked c ⟨stopped c, random, net⟩ where
  config := rfl
  scheduled hrunning := absurd hrunning Bool.false_ne_true
  awaiting harmed := absurd harmed Bool.false_ne_true

theorem of_alike (h : Clocked c s) {s' : Scene width size ρ ℓ π}
    (halike : Alike s.trickle s'.trickle) : Clocked c s' where
  config := halike.config.trans h.config
  scheduled hrunning := by
    rw [isRunning, halike.intervalTimer] at hrunning
    obtain ⟨l, hl⟩ := h.scheduled hrunning
    exact ⟨_, hl.relaid s' halike⟩
  awaiting := h.awaiting.of_alike halike

theorem ahead (h : Clocked c s) (hrunning : s.trickle.isRunning = true) :
    0 < s.trickle.intervalTimer.interval.toNat := by
  obtain ⟨l, hl⟩ := h.scheduled hrunning
  exact hl.ahead

theorem deadline_later (h : Clocked c s) (hrunning : s.trickle.isRunning = true) :
    ∃ d, s.trickle.intervalTimer.deadline = some d ∧
      (s.trickle.TimersFit → s.trickle.intervalTimer.start.ticks < d.ticks) := by
  refine ⟨_, Timer.deadline_of_armed hrunning, fun hfits => ?_⟩
  have hahead := h.ahead hrunning
  have htime := Timer.toNat_of_deadline (hfits.1 hrunning) (Timer.deadline_of_armed hrunning)
  rw [UInt64.lt_iff_toNat_lt]
  omega

variable [LinkLayer ℓ width]

theorem poll (h : Clocked c s) (henabled : c.enabled = true) (hmin : 2 ≤ c.minInterval)
    (now : Instant) : Clocked c (s.perform (.poll now)).2 := by
  have henabled' : s.trickle.config.enabled = true := by rw [h.config, henabled]
  have hlongest : 2 ≤ c.maxInterval.toNat := UInt64.le_iff_toNat_le.mp
    (UInt64.le_trans hmin c.minInterval_le_maxInterval)
  obtain ⟨result, -, hpolled⟩ := perform_polled henabled' now
  refine ⟨(s.perform_clockEffect (.poll now)).1.config.trans h.config, fun hrunning => ?_,
    h.awaiting.polled hpolled⟩
  obtain ⟨l, hl⟩ := h.scheduled (hpolled.running_iff.mp hrunning)
  by_cases hdue : l.due ≤ now.ticks.toNat
  · exact ⟨_, hl.poll_of_due henabled hlongest hdue⟩
  · exact ⟨l, hl.poll_of_early henabled (Nat.not_le.mp hdue)⟩

theorem begun (h : Clocked c s) (hmin : 2 ≤ c.minInterval) {op : Operation width} {now : Instant}
    (htime : op.beginTime? = some now)
    (hlater : s.trickle.isRunning = true → s.trickle.intervalTimer.start.ticks ≤ now.ticks) :
    Clocked c (s.perform op).2 := by
  have heffect := (s.perform_clockEffect op).1
  by_cases hbegins : signs op (s.perform op).1 = []
  · exact h.of_alike (heffect.alike_of_unsigned htime hbegins)
  · have hconfig := heffect.config.trans h.config
    have hbegun := perform_begun htime hbegins
    rw [h.config] at hbegun
    exact ⟨hconfig, fun _ => ⟨_, hbegun.onSchedule hmin hconfig⟩,
      h.awaiting.begun heffect htime hlater⟩

theorem step (h : Clocked c s) (henabled : c.enabled = true) (hmin : 2 ≤ c.minInterval)
    {op : Operation width} {ops : List (Operation width)}
    (hbefore : SetBefore s.trickle (op :: ops)) :
    Clocked c (s.perform op).2 := by
  cases op with
  | poll now => exact h.poll henabled hmin now
  | stop =>
    exact ⟨h.config, fun hrunning => absurd hrunning Bool.false_ne_true,
      fun harmed => absurd harmed Bool.false_ne_true⟩
  | hearFrom peer =>
    cases (s.perform_clockEffect (.hearFrom peer)).1 with
    | kept hquiet halike => exact h.of_alike halike
  | start now => exact h.begun hmin rfl fun hrunning => hbefore hrunning now (mem_times_of_time rfl)
  | reset now => exact h.begun hmin rfl fun hrunning => hbefore hrunning now (mem_times_of_time rfl)
  | newNeighbor now permanentNeighbors =>
    exact h.begun hmin rfl fun hrunning => hbefore hrunning now (mem_times_of_time rfl)

theorem run (henabled : c.enabled = true) (hmin : 2 ≤ c.minInterval)
    (ops later : List (Operation width)) (h : Clocked c s)
    (hbefore : SetBefore s.trickle (ops ++ later)) (htimes : Chronological (ops ++ later)) :
    Clocked c (run ops s).2 ∧ SetBefore (run ops s).2.trickle later := by
  induction ops generalizing s with
  | nil => exact ⟨h, hbefore⟩
  | cons op ops ih =>
    exact ih (h.step henabled hmin hbefore)
      (hbefore.step htimes (s.perform_clockEffect op).1) (chronological_cons.mp htimes).2

end Clocked

section Exact

variable [LinkLayer ℓ width] {now : Instant}

theorem perform_poll_of_not_due (hinterval : s.trickle.intervalTimer.due now = false)
    (hacks : s.trickle.ackTimer.due now = false) :
    s.perform (.poll now) = (.events (.ok []), s) := by
  cases henabled : s.trickle.config.enabled with
  | false =>
    simp only [perform, Trickle.poll, henabled]
    rfl
  | true =>
    have hnone : s.trickle.pollAcks now s.net = ([], s.trickle, s.net) := by
      simp only [pollAcks, Timer.poll, hacks]
      rfl
    simp only [perform, poll_of_enabled henabled hnone, hinterval]

/-- A poll before the next deadline does nothing. -/
theorem Clocked.poll_of_lt (h : Clocked c s)
    (hpast : s.trickle.isRunning = true → s.trickle.intervalTimer.start.ticks ≤ now.ticks)
    (hearly : ∀ d, s.trickle.nextDeadline = some d → now.ticks < d.ticks) :
    s.perform (.poll now) = (.events (.ok []), s) := by
  refine perform_poll_of_not_due (not_due_of_lt (.inl rfl) id hpast hearly)
    (not_due_of_lt (.inr rfl) (fun harmed => (h.awaiting harmed).1) (fun harmed => ?_) hearly)
  obtain ⟨hrunning, hbehind⟩ := h.awaiting harmed
  exact UInt64.le_trans hbehind (hpast hrunning)

/-- What can be seen of a poll that lets the interval timer run out: the phase changes. -/
def IntervalFires (now : Instant) (s : Scene width size ρ ℓ π) : Prop :=
  (s.perform (.poll now)).2.trickle.phase ≠ s.trickle.phase

/-- What can be seen of a poll that ends the wait for answers: the challenge changes. -/
def AcksFire (now : Instant) (s : Scene width size ρ ℓ π) : Prop :=
  .challengeChanged ∈ traffic [.poll now] s

/-- From its deadline on, and not before, a timer is let run out by a poll. -/
theorem Clocked.fires_iff (h : Clocked c s) (henabled : c.enabled = true)
    (hpast : s.trickle.isRunning = true → s.trickle.intervalTimer.start.ticks ≤ now.ticks)
    (hfits : s.trickle.TimersFit) :
    (IntervalFires now s ↔
        ∃ d, s.trickle.intervalTimer.deadline = some d ∧ d.ticks ≤ now.ticks) ∧
      (AcksFire now s ↔ ∃ d, s.trickle.ackTimer.deadline = some d ∧ d.ticks ≤ now.ticks) := by
  rw [← h.config] at henabled
  obtain ⟨result, -, hpolled⟩ := perform_polled henabled now
  refine ⟨hpolled.phase_ne_iff.trans (Timer.due_iff_deadline_le hfits.1 hpast),
    hpolled.challengeChanged_iff.trans (Timer.due_iff_deadline_le hfits.2 fun harmed => ?_)⟩
  obtain ⟨hrunning, hbehind⟩ := h.awaiting harmed
  exact UInt64.le_trans hbehind (hpast hrunning)

/-- A poll from the next deadline on lets a timer run out, and reports it. -/
theorem fires_of_le {d : Instant} (henabled : s.trickle.config.enabled = true)
    (hfits : s.trickle.TimersFit) (hnext : s.trickle.nextDeadline = some d)
    (hle : d.ticks ≤ now.ticks) :
    (IntervalFires now s ∨ AcksFire now s) ∧ (s.perform (.poll now)).1 ≠ .events (.ok []) := by
  obtain ⟨result, hanswer, hpolled⟩ := perform_polled henabled now
  have hdue : s.trickle.intervalTimer.due now = true ∨ s.trickle.ackTimer.due now = true :=
    (nextDeadline_cases hnext).1.imp
      (fun hdeadline => Timer.due_of_deadline_le
        (hfits.1 (Timer.armed_of_deadline hdeadline)) hdeadline hle)
      fun hdeadline => Timer.due_of_deadline_le
        (hfits.2 (Timer.armed_of_deadline hdeadline)) hdeadline hle
  refine ⟨hdue.imp hpolled.phase_ne_iff.mpr hpolled.challengeChanged_iff.mpr, ?_⟩
  rw [hanswer]
  exact fun hnone => hpolled.result_ne hdue (Answer.events.inj hnone)

/-- The interval timer that was let run out is set to a later deadline. -/
theorem Clocked.advances (h : Clocked c s) (henabled : c.enabled = true)
    (hmin : 2 ≤ c.minInterval) (hfires : IntervalFires now s) :
    ∃ d d', s.trickle.intervalTimer.deadline = some d ∧
      (s.perform (.poll now)).2.trickle.intervalTimer.deadline = some d' ∧
      ((s.perform (.poll now)).2.trickle.TimersFit → d.ticks < d'.ticks) := by
  have hlater := h.poll henabled hmin now
  rw [← h.config] at henabled
  obtain ⟨result, -, hpolled⟩ := perform_polled henabled now
  have hdue := hpolled.phase_ne_iff.mp hfires
  obtain ⟨d', hdeadline, hless⟩ :=
    hlater.deadline_later (hpolled.running_iff.mpr (Timer.due_iff.mp hdue).1)
  exact ⟨_, d', hpolled.restarted hdue, hdeadline, hless⟩

/-- After a poll at the next deadline the interval timer runs out later, and so do the answers
unless they are awaited since then. -/
theorem Clocked.after_next (h : Clocked c s) (henabled : c.enabled = true)
    (hmin : 2 ≤ c.minInterval) {d : Instant} (hnext : s.trickle.nextDeadline = some d)
    (hfits : s.trickle.TimersFit) (hfits' : (s.perform (.poll d)).2.trickle.TimersFit) :
    (∀ e, (s.perform (.poll d)).2.trickle.intervalTimer.deadline = some e → d.ticks < e.ticks) ∧
      ∀ e, (s.perform (.poll d)).2.trickle.ackTimer.deadline = some e → d.ticks < e.ticks ∨
        s.trickle.intervalTimer.deadline = some d ∧
          e.ticks.toNat = d.ticks.toNat + c.ackWait.toNat := by
  have hlater := h.poll henabled hmin d
  rw [← h.config] at henabled
  obtain ⟨result, -, hpolled⟩ := perform_polled henabled d
  obtain ⟨-, hfirst⟩ := nextDeadline_cases hnext
  -- a timer that is not due has its deadline after `d`
  have hwaiting {timer : Timer} (hfits : timer.armed = true → timer.Fits)
      (hearly : timer.due d = false) {e : Instant} (hdeadline : timer.deadline = some e) :
      d.ticks < e.ticks := UInt64.not_le.mp fun hle => Bool.eq_false_iff.mp hearly
        (Timer.due_of_deadline_le (hfits (Timer.armed_of_deadline hdeadline)) hdeadline hle)
  -- the interval timer is due only at its deadline
  have hsame (hdue : s.trickle.intervalTimer.due d = true) :
      s.trickle.intervalTimer.deadline = some d ∧
        (s.perform (.poll d)).2.trickle.intervalTimer.start = d := by
    obtain ⟨hrunning, helapsed⟩ := Timer.due_iff.mp hdue
    have hahead := h.ahead hrunning
    have hstart : s.trickle.intervalTimer.start.ticks ≤ d.ticks := by
      rw [UInt64.le_iff_toNat_le]
      omega
    obtain ⟨e, hdeadline, hle⟩ := Timer.exists_deadline_of_due hstart hdue
    obtain rfl : e = d :=
      congrArg Instant.mk (UInt64.le_antisymm hle (hfirst e (.inl hdeadline)))
    exact ⟨hdeadline, Option.some.inj ((hpolled.restarted hdue).symm.trans hdeadline)⟩
  refine ⟨fun e hdeadline => ?_, fun e hdeadline => ?_⟩
  · cases hdue : s.trickle.intervalTimer.due d with
    | false =>
      rw [hpolled.intervalTimer_kept hdue] at hdeadline
      exact hwaiting hfits.1 hdue hdeadline
    | true =>
      obtain ⟨e', hdeadline', hless⟩ := hlater.deadline_later (Timer.armed_of_deadline hdeadline)
      obtain rfl : e = e' := Option.some.inj (hdeadline.symm.trans hdeadline')
      have hless' := hless hfits'
      rwa [(hsame hdue).2] at hless'
  · have harmed := Timer.armed_of_deadline hdeadline
    rcases hpolled.ackTimer_cases harmed with ⟨hearly, hkept⟩ | ⟨hdue, hset⟩
    · rw [hkept] at hdeadline
      exact .inl (hwaiting hfits.2 hearly hdeadline)
    · have htime := Timer.toNat_of_deadline (hfits'.2 harmed) hdeadline
      rw [hset, (hsame hdue).2, h.config] at htime
      exact .inr ⟨(hsame hdue).1, htime⟩

end Exact

section Loop

variable [LinkLayer ℓ width] {n : Nat} {d d' : Instant}

/-- The times at which an engine is polled that is polled at its next deadlines. -/
def pollTimes (n : Nat) (s : Scene width size ρ ℓ π) : List Instant :=
  (pollDeadlines n s).1.map Prod.fst

theorem pollDeadlines_succ (hnext : s.trickle.nextDeadline = some d) (n : Nat) :
    pollDeadlines (n + 1) s = ((d, (s.perform (.poll d)).1) ::
      (pollDeadlines n (s.perform (.poll d)).2).1,
      (pollDeadlines n (s.perform (.poll d)).2).2) := by
  simp only [pollDeadlines, hnext]

theorem pollTimes_succ (hnext : s.trickle.nextDeadline = some d) (n : Nat) :
    pollTimes (n + 1) s = d :: pollTimes n (s.perform (.poll d)).2 := by
  simp only [pollTimes, pollDeadlines_succ hnext, List.map_cons]

/-- A running engine before `n` polls at its next deadlines, with timers that fit all the time. -/
structure Looping (c : TrickleConfig) (n : Nat) (s : Scene width size ρ ℓ π) : Prop where
  clocked : Clocked c s
  running : s.trickle.isRunning = true
  fits : ∀ k ≤ n, (pollDeadlines k s).2.trickle.TimersFit

namespace Looping

theorem poll (h : Looping c (n + 1) s) (henabled : c.enabled = true) (hmin : 2 ≤ c.minInterval)
    (hnext : s.trickle.nextDeadline = some d) : Looping c n (s.perform (.poll d)).2 := by
  refine ⟨h.clocked.poll henabled hmin d, ?_, fun k hk => ?_⟩
  · rw [← h.clocked.config] at henabled
    obtain ⟨result, -, hpolled⟩ := perform_polled henabled d
    exact hpolled.running_iff.mpr h.running
  · have hfits := h.fits (k + 1) (Nat.succ_le_succ hk)
    rwa [pollDeadlines_succ hnext] at hfits

/-- The polls never go back in time, and stay only where answers are awaited for no time at all. -/
theorem later (h : Looping c (n + 1) s) (henabled : c.enabled = true) (hmin : 2 ≤ c.minInterval)
    (hnext : s.trickle.nextDeadline = some d)
    (hnext' : (s.perform (.poll d)).2.trickle.nextDeadline = some d') :
    d.ticks ≤ d'.ticks ∧
      (0 < c.ackWait ∨ s.trickle.intervalTimer.deadline ≠ some d → d.ticks < d'.ticks) := by
  have hfits' := (h.poll henabled hmin hnext).fits 0 (Nat.zero_le n)
  obtain ⟨hinterval, hacks⟩ :=
    h.clocked.after_next henabled hmin hnext (h.fits 0 (Nat.zero_le _)) hfits'
  rcases (nextDeadline_cases hnext').1 with hdeadline | hdeadline
  · have hless := hinterval d' hdeadline
    exact ⟨UInt64.le_of_lt hless, fun _ => hless⟩
  · rcases hacks d' hdeadline with hless | ⟨hsame, htime⟩
    · exact ⟨UInt64.le_of_lt hless, fun _ => hless⟩
    · refine ⟨by rw [UInt64.le_iff_toNat_le]; omega, fun hwait => ?_⟩
      have hpositive := UInt64.lt_iff_toNat_lt.mp (hwait.resolve_right (not_not_intro hsame))
      rw [UInt64.lt_iff_toNat_lt]
      rw [UInt64.toNat_zero] at hpositive
      omega

/-- The second one of two polls at one time ends a wait for answers, so the third one is later. -/
theorem later_two (h : Looping c (n + 2) s) (henabled : c.enabled = true)
    (hmin : 2 ≤ c.minInterval) {d'' : Instant} (hnext : s.trickle.nextDeadline = some d)
    (hnext' : (s.perform (.poll d)).2.trickle.nextDeadline = some d')
    (hnext'' : ((s.perform (.poll d)).2.perform (.poll d')).2.trickle.nextDeadline = some d'') :
    d.ticks < d''.ticks := by
  have h' := h.poll henabled hmin hnext
  obtain ⟨hle, -⟩ := h.later henabled hmin hnext hnext'
  obtain ⟨hle', hless'⟩ := h'.later henabled hmin hnext' hnext''
  obtain ⟨hinterval, -⟩ := h.clocked.after_next henabled hmin hnext (h.fits 0 (Nat.zero_le _))
    (h'.fits 0 (Nat.zero_le _))
  by_cases hsame : (s.perform (.poll d)).2.trickle.intervalTimer.deadline = some d'
  · exact UInt64.lt_of_lt_of_le (hinterval d' hsame) hle'
  · exact UInt64.lt_of_le_of_lt hle (hless' (.inr hsame))

theorem length_pollTimes (h : Looping c n s) (henabled : c.enabled = true)
    (hmin : 2 ≤ c.minInterval) : (pollTimes n s).length = n := by
  induction n generalizing s with
  | zero => rfl
  | succ n ih =>
    obtain ⟨d, hnext⟩ := exists_nextDeadline h.running
    rw [pollTimes_succ hnext, List.length_cons, ih (h.poll henabled hmin hnext)]

/-- One poll and the next one. -/
def Later (c : TrickleConfig) (a b : Instant) : Prop :=
  a.ticks ≤ b.ticks ∧ (0 < c.ackWait → a.ticks < b.ticks)

instance (c : TrickleConfig) : Trans (Later c) (Later c) (Later c) where
  trans hab hbc := ⟨UInt64.le_trans hab.1 hbc.1, fun hwait => UInt64.lt_trans (hab.2 hwait)
    (hbc.2 hwait)⟩

theorem pairwise_pollTimes (h : Looping c n s) (henabled : c.enabled = true)
    (hmin : 2 ≤ c.minInterval) : (pollTimes n s).Pairwise (Later c) := by
  rw [← List.isChain_iff_pairwise]
  induction n generalizing s with
  | zero => exact .nil
  | succ n ih =>
    obtain ⟨d, hnext⟩ := exists_nextDeadline h.running
    have h' := h.poll henabled hmin hnext
    have hrest := ih h'
    rw [pollTimes_succ hnext]
    cases n with
    | zero => exact .singleton d
    | succ n =>
      obtain ⟨d', hnext'⟩ := exists_nextDeadline h'.running
      obtain ⟨hle, hless⟩ := h.later henabled hmin hnext hnext'
      rw [pollTimes_succ hnext'] at hrest ⊢
      exact List.isChain_cons_cons.mpr ⟨⟨hle, fun hwait => hless (.inl hwait)⟩, hrest⟩

theorem pollTimes_getElem?_lt (h : Looping c n s) (henabled : c.enabled = true)
    (hmin : 2 ≤ c.minInterval) {i : Nat} {a b : Instant} (ha : (pollTimes n s)[i]? = some a)
    (hb : (pollTimes n s)[i + 2]? = some b) : a.ticks < b.ticks := by
  induction i generalizing n s with
  | zero =>
    obtain ⟨m, rfl⟩ : ∃ m, n = m + 3 := by
      have hlong := (List.getElem?_eq_some_iff.mp hb).1
      rw [h.length_pollTimes henabled hmin] at hlong
      exact ⟨n - 3, by omega⟩
    obtain ⟨d, hnext⟩ := exists_nextDeadline h.running
    have h' := h.poll henabled hmin hnext
    obtain ⟨d', hnext'⟩ := exists_nextDeadline h'.running
    obtain ⟨d'', hnext''⟩ := exists_nextDeadline (h'.poll henabled hmin hnext').running
    rw [pollTimes_succ hnext, pollTimes_succ hnext', pollTimes_succ hnext''] at ha hb
    cases ha
    cases hb
    exact h.later_two henabled hmin hnext hnext' hnext''
  | succ i ih =>
    cases n with
    | zero => cases ha
    | succ n =>
      obtain ⟨d, hnext⟩ := exists_nextDeadline h.running
      rw [pollTimes_succ hnext] at ha hb
      exact ih (h.poll henabled hmin hnext) ha hb

end Looping

theorem pollTimes_of_stopped (h : Clocked c s) (hstopped : s.trickle.isRunning = false) (n : Nat) :
    pollTimes n s = [] := by
  have hidle : s.trickle.ackTimer.armed = false := by
    rw [← Bool.not_eq_true]
    intro harmed
    rw [(h.awaiting harmed).1] at hstopped
    cases hstopped
  have hnone : s.trickle.nextDeadline = none := by
    rw [isRunning] at hstopped
    simp [nextDeadline, Timer.deadline, hstopped, hidle]
  cases n with
  | zero => rfl
  | succ n => simp only [pollTimes, pollDeadlines, hnone, List.map_nil]

/-- The next deadline is exact: a poll before it does nothing, and a poll from it on lets those
timers run out whose deadlines have come, of which there is one. An interval timer that was let
run out is set to a later deadline. So polls at the next deadline never go back in time and come
to a later time with every second one, or with every one where answers are awaited for some
time. -/
theorem next_deadline_exact {c : TrickleConfig} (henabled : c.enabled = true)
    (hmin : 2 ≤ c.minInterval) (random : ρ) (net : Network width size ℓ π)
    (ops : List (Operation width)) (now : Instant) (htimes : Chronological (ops ++ [.poll now])) :
    let s := (run ops ⟨stopped c, random, net⟩).2
    ((∀ d, s.trickle.nextDeadline = some d → now.ticks < d.ticks) →
      s.perform (.poll now) = (.events (.ok []), s)) ∧
    (s.trickle.TimersFit →
      (IntervalFires now s ↔
        ∃ d, s.trickle.intervalTimer.deadline = some d ∧ d.ticks ≤ now.ticks) ∧
      (AcksFire now s ↔ ∃ d, s.trickle.ackTimer.deadline = some d ∧ d.ticks ≤ now.ticks) ∧
      ∀ d, s.trickle.nextDeadline = some d → d.ticks ≤ now.ticks →
        (IntervalFires now s ∨ AcksFire now s) ∧
          (s.perform (.poll now)).1 ≠ .events (.ok [])) ∧
    (IntervalFires now s → ∃ d d', s.trickle.intervalTimer.deadline = some d ∧
      (s.perform (.poll now)).2.trickle.intervalTimer.deadline = some d' ∧
      ((s.perform (.poll now)).2.trickle.TimersFit → d.ticks < d'.ticks)) ∧
    ∀ n, (∀ k ≤ n, (pollDeadlines k s).2.trickle.TimersFit) →
      (s.trickle.isRunning = true → (pollTimes n s).length = n) ∧
      (pollTimes n s).Pairwise (fun a b => a.ticks ≤ b.ticks) ∧
      (∀ i a b, (pollTimes n s)[i]? = some a → (pollTimes n s)[i + 2]? = some b →
        a.ticks < b.ticks) ∧
      (0 < c.ackWait → (pollTimes n s).Pairwise fun a b => a.ticks < b.ticks) := by
  intro s
  obtain ⟨hclocked, hbefore⟩ : Clocked c s ∧ SetBefore s.trickle [.poll now] :=
    Clocked.run henabled hmin ops [.poll now] (.of_stopped c random net)
      (setBefore_of_stopped rfl _) htimes
  have henabled' : s.trickle.config.enabled = true := by rw [hclocked.config, henabled]
  have hpast (hrunning : s.trickle.isRunning = true) :
      s.trickle.intervalTimer.start.ticks ≤ now.ticks :=
    hbefore hrunning now (mem_times_of_time rfl)
  refine ⟨hclocked.poll_of_lt hpast, fun hfits => ?_, hclocked.advances henabled hmin,
    fun n hfits => ?_⟩
  · obtain ⟨hinterval, hacks⟩ := hclocked.fires_iff henabled hpast hfits
    exact ⟨hinterval, hacks, fun d hnext hle => fires_of_le henabled' hfits hnext hle⟩
  · cases hrunning : s.trickle.isRunning with
    | false =>
      rw [pollTimes_of_stopped hclocked hrunning]
      exact ⟨nofun, .nil, nofun, fun _ => .nil⟩
    | true =>
      have hloop : Looping c n s := ⟨hclocked, hrunning, hfits⟩
      have hpairs := hloop.pairwise_pollTimes henabled hmin
      exact ⟨fun _ => hloop.length_pollTimes henabled hmin, hpairs.imp (·.1),
        fun i a b => hloop.pollTimes_getElem?_lt henabled hmin,
        fun hwait => hpairs.imp (·.2 hwait)⟩

end Loop

def lateThenReset : List (Operation 8) := [.start .zero, .poll ⟨5⟩, .reset ⟨6⟩]

/-- After a late poll and a reset the engine waits for its transmission point at seven ticks. Where
answers are awaited for no time, the loop polls twice at the transmission point. -/
theorem next_deadline_exact_threeTicks :
    threeTicks.enabled = true ∧ 2 ≤ threeTicks.minInterval ∧
    Chronological (lateThenReset ++ [.poll ⟨6⟩]) ∧ Chronological (lateThenReset ++ [.poll ⟨9⟩]) ∧
    (run lateThenReset (lowest threeTicks)).2.trickle.nextDeadline = some ⟨7⟩ ∧
    (run lateThenReset (lowest threeTicks)).2.perform (.poll ⟨6⟩) =
      (.events (.ok []), (run lateThenReset (lowest threeTicks)).2) ∧
    IntervalFires ⟨9⟩ (run lateThenReset (lowest threeTicks)).2 ∧
    pollTimes 4 (run lateThenReset (lowest threeTicks)).2 = [⟨7⟩, ⟨7⟩, ⟨8⟩, ⟨10⟩] ∧
    (pollTimes 4 (run lateThenReset (lowest threeTicks)).2).Pairwise
      (fun a b => a.ticks ≤ b.ticks) := by
  have hmin : 2 ≤ threeTicks.minInterval := by decide
  have hearly : Chronological (lateThenReset ++ [.poll ⟨6⟩]) := by decide
  have hlate : Chronological (lateThenReset ++ [.poll ⟨9⟩]) := by decide
  have hnext : (run lateThenReset (lowest threeTicks)).2.trickle.nextDeadline = some ⟨7⟩ := by
    decide
  have hfits : (run lateThenReset (lowest threeTicks)).2.trickle.TimersFit := by decide
  have hloop : ∀ k ≤ 4,
      (pollDeadlines k (run lateThenReset (lowest threeTicks)).2).2.trickle.TimersFit := by decide
  obtain ⟨hquiet, -⟩ := next_deadline_exact (c := threeTicks) rfl hmin (lowest threeTicks).random
    (lowest threeTicks).net lateThenReset ⟨6⟩ hearly
  obtain ⟨-, hfires, -, hpolls⟩ := next_deadline_exact (c := threeTicks) rfl hmin
    (lowest threeTicks).random (lowest threeTicks).net lateThenReset ⟨9⟩ hlate
  refine ⟨rfl, hmin, hearly, hlate, hnext, hquiet fun d hd => ?_, (hfires hfits).1.mpr ?_,
    by decide, (hpolls 4 hloop).2.1⟩
  · cases hnext.symm.trans hd
    decide
  · exact ⟨⟨7⟩, by decide, by decide⟩

end MeshSecurity.Trickle
