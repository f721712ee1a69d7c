import Mathlib.Data.List.Chain
import MeshSecurity.Proofs.ClockSteps
import MeshSecurity.Proofs.IntervalBounds

/-!
# How far apart HELLOs are

The wait for answers counts from the transmission point at which a HELLO was due, and not from the
poll that sent it. So a HELLO that was sent late is followed too early by the next one: by as much
as it was late, if the polls are late enough.
-/

namespace MeshSecurity.Trickle

open Scene

variable {width size : Nat} {ρ ℓ π : Type}

/-- Whether a call leaves a started engine started. -/
def Operation.continues : Operation width → Bool
  | .start _ => false
  | .stop => false
  | _ => true

/-- Between two HELLOs of a started engine lies the whole wait for answers, counted from `begin`,
whatever its random source and its link layer do. -/
def PacesHellos (c : TrickleConfig) (begin : Dispatch → Instant) : Prop :=
  ∀ (width size : Nat) (ρ ℓ π : Type) [RandomSource ρ] [LinkLayer ℓ width]
    (s : Scene width size ρ ℓ π) (now : Instant) (ops : List (Operation width)),
    s.trickle.config = c → s.trickle.isRunning = false → (∀ op ∈ ops, op.continues = true) →
      Chronological (.start now :: ops) →
      (dispatches (.start now :: ops) s).IsChain fun a b =>
        c.ackWait.toNat ≤ b.sent.ticks.toNat - (begin a).ticks.toNat

theorem Transmission.ackTimer_of_sent {now : Instant} {t : Trickle} {event : TrickleEvent}
    {calls : List LinkCall} {ackTimer : Timer} (hpass : Transmission now t event calls ackTimer)
    (hsent : .helloSent ∈ calls) :
    t.counter < t.config.redundancy ∧ t.ackTimer.expired now = true ∧
      ackTimer = ⟨now, t.config.ackWait, true⟩ := by
  cases hpass with
  | suppressed => cases hsent
  | awaiting => cases hsent
  | refused e => simp at hsent
  | sent hfew hexpired => exact ⟨hfew, hexpired, rfl⟩

theorem Transmission.ackTimer_of_unsent {now : Instant} {t : Trickle} {event : TrickleEvent}
    {calls : List LinkCall} {ackTimer : Timer} (hpass : Transmission now t event calls ackTimer)
    (hsent : .helloSent ∉ calls) : ackTimer = t.ackTimer := by
  cases hpass with
  | suppressed => rfl
  | awaiting => rfl
  | refused => rfl
  | sent => exact absurd List.mem_cons_self hsent

theorem AcksPolled.expired {now due : Instant} {t t₁ : Trickle} {events : List TrickleEvent}
    {calls : List LinkCall} (hacks : AcksPolled now t events calls t₁)
    (hpast : due.ticks ≤ now.ticks) (hexpired : t₁.ackTimer.expired due = true) :
    t.ackTimer.expired now = true := by
  cases hacks with
  | waiting => exact Timer.expired_of_le hpast hexpired
  | ended hdue => exact Timer.expired_of_due hdue

section Step

variable {op : Operation width} {ops : List (Operation width)} {t t' : Trickle} {answer : Answer}
  {calls : List LinkCall}

/-- The call in which a HELLO is sent: the engine is enabled, has heard few HELLOs and awaits no
answers, and begins to await them from the instant at which the HELLO was due. -/
structure Sends (t : Trickle) (op : Operation width) (now : Instant) (t' : Trickle) : Prop where
  time : op.time? = some now
  enabled : t.config.enabled = true
  few : t.counter < t.config.redundancy
  due_le : (t.dueTime now op).ticks ≤ now.ticks
  expired : t.ackTimer.expired now = true
  ackTimer : t'.ackTimer = ⟨t.dueTime now op, t.config.ackWait, true⟩

theorem ClockEffect.sends (heffect : ClockEffect t op answer calls t')
    (hbefore : SetBefore t (op :: ops)) (hsent : .helloSent ∈ calls) :
    ∃ now, Sends t op now t' := by
  cases heffect with
  | kept => cases hsent
  | stopped => cases hsent
  | @started now _ _ _ _ henabled hpass =>
    obtain ⟨hfew, hexpired, htimer⟩ := hpass.ackTimer_of_sent (by simpa using hsent)
    exact ⟨now, rfl, henabled, hfew, UInt64.le_refl _, hexpired, htimer⟩
  | reset => cases hsent
  | @polled now _ _ _ _ _ _ henabled hacks hinterval =>
    rcases List.mem_append.mp hsent with hsent | hsent
    · cases hacks <;> simp at hsent
    · obtain ⟨ackTimer, rfl⟩ := hacks.frame
      cases hinterval with
      | early => cases hsent
      | fired hdue hpass =>
        cases hpass with
        | ended => cases hsent
        | transmission hphase hpass =>
          obtain ⟨hfew, hthere, htimer⟩ := hpass.ackTimer_of_sent hsent
          have hstart := hbefore (Timer.due_iff.mp hdue).1 now (mem_times_of_time rfl)
          have hpast := Timer.deadline_le_of_due hstart hdue
          exact ⟨now, rfl, henabled, hfew, hpast, hacks.expired hpast hthere, htimer⟩

/-- Without a HELLO the wait for answers goes on or ends at its time. -/
theorem ClockEffect.ackTimer_of_unsent (heffect : ClockEffect t op answer calls t')
    (hsent : .helloSent ∉ calls) (hstop : op ≠ .stop) :
    t'.ackTimer = t.ackTimer ∨
      ∃ now, op.time? = some now ∧ t.ackTimer.due now = true ∧ t'.ackTimer = t.ackTimer.stop := by
  cases heffect with
  | kept hquiet halike => exact .inl halike.ackTimer
  | stopped => exact absurd rfl hstop
  | started henabled hpass => exact .inl (hpass.ackTimer_of_unsent (by simpa using hsent))
  | reset htime hrunning hcounter halike => exact .inl halike.ackTimer
  | @polled now _ _ t₁ _ _ _ henabled hacks hinterval =>
    rw [List.mem_append, not_or] at hsent
    have hkept : t'.ackTimer = t₁.ackTimer := by
      cases hinterval with
      | early => rfl
      | fired hdue hpass =>
        cases hpass with
        | ended => rfl
        | transmission hphase hpass => exact hpass.ackTimer_of_unsent hsent.2
    rw [hkept]
    cases hacks with
    | waiting => exact .inl rfl
    | ended hdue => exact .inr ⟨now, rfl, hdue, rfl⟩

/-- Answers are awaited since `due`, or not any more because the wait is over. -/
structure AwaitsSince (due : Instant) (t : Trickle) (ops : List (Operation width)) : Prop where
  past : ∀ time ∈ times ops, due.ticks ≤ time.ticks
  ackTimer : t.ackTimer = ⟨due, t.config.ackWait, true⟩ ∨ t.ackTimer.armed = false ∧
    ∀ time ∈ times ops,
      due.ticks.toNat + t.config.ackWait.toNat ≤ time.ticks.toNat

/-- Once the timer for answers has run out, the wait is over. -/
theorem AwaitsSince.le_of_expired {due now : Instant} (hsince : AwaitsSince due t (op :: ops))
    (htime : op.time? = some now) (hexpired : t.ackTimer.expired now = true) :
    due.ticks.toNat + t.config.ackWait.toNat ≤ now.ticks.toNat := by
  have hmem : now ∈ times (op :: ops) := mem_times_of_time htime
  rcases hsince.ackTimer with htimer | ⟨-, hover⟩
  · have hpast := UInt64.le_iff_toNat_le.mp (hsince.past now hmem)
    rw [htimer] at hexpired
    have helapsed : t.config.ackWait.toNat ≤ now.ticks.toNat - due.ticks.toNat :=
      Timer.expired_iff.mp hexpired rfl
    omega
  · exact hover now hmem

theorem AwaitsSince.step {due : Instant} (hsince : AwaitsSince due t (op :: ops))
    (htimes : Chronological (op :: ops)) (heffect : ClockEffect t op answer calls t')
    (hsent : .helloSent ∉ calls) (hstop : op ≠ .stop) : AwaitsSince due t' ops := by
  refine ⟨fun time hmem => hsince.past time (mem_times_of_mem hmem), ?_⟩
  rw [heffect.config]
  rcases heffect.ackTimer_of_unsent hsent hstop with hkept | ⟨now, htime, hdue, hstopped⟩
  · rw [hkept]
    exact hsince.ackTimer.imp_right fun ⟨hidle, hover⟩ =>
      ⟨hidle, fun time hmem => hover time (mem_times_of_mem hmem)⟩
  · -- the wait was over at this call, so it is over at the later ones
    have hover := hsince.le_of_expired htime (Timer.expired_of_due hdue)
    refine .inr ⟨by rw [hstopped]; rfl, fun time hmem => Nat.le_trans hover ?_⟩
    exact UInt64.le_iff_toNat_le.mp ((chronological_cons.mp htimes).1 now htime time hmem)

theorem Sends.awaitsSince {now : Instant} (hsends : Sends t op now t')
    (hconfig : t'.config = t.config) (htimes : Chronological (op :: ops)) :
    AwaitsSince (t.dueTime now op) t' ops where
  past time hmem := UInt64.le_trans hsends.due_le
    ((chronological_cons.mp htimes).1 now hsends.time time hmem)
  ackTimer := .inl (by rw [hconfig, hsends.ackTimer])

end Step

section Run

variable [RandomSource ρ] [LinkLayer ℓ width] {c : TrickleConfig}

theorem dispatch?_of_sends {s : Scene width size ρ ℓ π} {op : Operation width} {now : Instant}
    (hsent : .helloSent ∈ s.traffic [op]) (htime : op.time? = some now) :
    s.dispatch? op = some ⟨s.trickle.dueTime now op, now⟩ := by
  rw [dispatch?, if_pos hsent, htime, Option.map_some]

/-- From the instant at which a HELLO was due to the next one lies the wait for answers. -/
theorem chain_dispatches (ops : List (Operation width)) {s : Scene width size ρ ℓ π}
    (last : Option Dispatch) (hconfig : s.trickle.config = c)
    (hlast : ∀ a ∈ last, AwaitsSince a.due s.trickle ops) (hbefore : SetBefore s.trickle ops)
    (htimes : Chronological ops) (hstop : .stop ∉ ops) :
    (last.toList ++ s.dispatches ops).IsChain fun a b =>
      c.ackWait.toNat ≤ b.sent.ticks.toNat - a.due.ticks.toNat := by
  induction ops generalizing s last with
  | nil => cases last <;> simp [dispatches]
  | cons op ops ih =>
    have heffect := (s.perform_clockEffect op).1
    have hlater := (chronological_cons.mp htimes).2
    have hgoes : op ≠ .stop := fun h => hstop (h ▸ List.mem_cons_self)
    have hstop' : .stop ∉ ops := fun h => hstop (List.mem_cons_of_mem _ h)
    have hconfig' : (s.perform op).2.trickle.config = c := heffect.config.trans hconfig
    by_cases hsent : .helloSent ∈ s.traffic [op]
    · obtain ⟨now, hsends⟩ := heffect.sends hbefore hsent
      have hchain := ih (some ⟨s.trickle.dueTime now op, now⟩) hconfig'
        (fun a ha => by cases ha; exact hsends.awaitsSince heffect.config htimes)
        (hbefore.step htimes heffect) hlater hstop'
      rw [dispatches, dispatch?_of_sends hsent hsends.time]
      cases last with
      | none => exact hchain
      | some a =>
        refine List.isChain_cons_cons.mpr ⟨?_, hchain⟩
        have hover := (hlast a rfl).le_of_expired hsends.time hsends.expired
        rw [hconfig] at hover
        exact Nat.le_sub_of_add_le' hover
    · rw [dispatches, dispatch?, if_neg hsent]
      exact ih last hconfig' (fun a ha => (hlast a ha).step htimes heffect hsent hgoes)
        (hbefore.step htimes heffect) hlater hstop'

theorem dispatches_eq_nil (hsilent : c.enabled = false ∨ c.redundancy = 0)
    (ops : List (Operation width)) {s : Scene width size ρ ℓ π} (hconfig : s.trickle.config = c)
    (hbefore : SetBefore s.trickle ops) (htimes : Chronological ops) : s.dispatches ops = [] := by
  induction ops generalizing s with
  | nil => rfl
  | cons op ops ih =>
    have heffect := (s.perform_clockEffect op).1
    have hunsent : .helloSent ∉ s.traffic [op] := fun hsent => by
      obtain ⟨now, hsends⟩ := heffect.sends hbefore hsent
      rcases hsilent with hdisabled | hnone
      · exact absurd (hconfig ▸ hsends.enabled) (by simp [hdisabled])
      · have hfew := hsends.few
        rw [hconfig, hnone] at hfew
        exact absurd hfew (by simp)
    rw [dispatches, dispatch?, if_neg hunsent]
    exact ih (heffect.config.trans hconfig) (hbefore.step htimes heffect)
      (chronological_cons.mp htimes).2

end Run

section Accepted

variable [LinkLayer ℓ width]

/-- At the transmission point an engine that awaits no answers sends its HELLO. -/
theorem passTransmission_of_accepted (now : Instant) {t : Trickle} {net : Network width size ℓ π}
    {link : ℓ} (hfew : t.counter < t.config.redundancy) (hidle : t.ackTimer.armed = false)
    (haccepted : LinkLayer.broadcastHello net.link = (.ok (), link)) :
    t.passTransmission now net = (.helloBroadcast,
      { t with
        ackTimer := ⟨now, t.config.ackWait, true⟩
        intervalTimer := ⟨now, Saturating.sub t.interval t.transmissionPoint, true⟩
        phase := .intervalEnd },
      ⟨net.neighbors.clearHeard, link, net.routing⟩) := by
  have hexpired : t.ackTimer.expired now = true := Timer.expired_iff.mpr fun h => by
    rw [hidle] at h
    cases h
  simp only [passTransmission, transmit, if_neg (UInt16.not_le.mpr hfew), hexpired, haccepted]
  rfl

theorem pollAcks_of_idle (now : Instant) {t : Trickle} (hidle : t.ackTimer.armed = false)
    (net : Network width size ℓ π) : t.pollAcks now net = ([], t, net) := by
  simp [pollAcks, Timer.poll, Timer.due, hidle]

variable [RandomSource ρ]

theorem start_of_accepted (now : Instant) {t : Trickle} {random random' : ρ} {interval : UInt64}
    {net : Network width size ℓ π} {link : ℓ} (henabled : t.config.enabled = true)
    (hdraw : RandomSource.between t.config.minInterval t.config.maxInterval random =
      (some interval, random'))
    (hfew : t.counter < t.config.redundancy) (hidle : t.ackTimer.armed = false)
    (haccepted : LinkLayer.broadcastHello (LinkLayer.changeChallenge net.link) = (.ok (), link)) :
    t.start now random net = (.ok [.started interval, .helloBroadcast],
      { t with
        interval
        transmissionPoint := 0
        ackTimer := ⟨now, t.config.ackWait, true⟩
        intervalTimer := ⟨now, Saturating.sub interval 0, true⟩
        phase := .intervalEnd },
      random', ⟨net.neighbors.clearHeard, link, net.routing⟩) := by
  have hpass : passTransmission now { t with interval, transmissionPoint := 0 }
      { net with link := LinkLayer.changeChallenge net.link } = _ :=
    passTransmission_of_accepted now hfew hidle haccepted
  simp only [start, henabled, hdraw, hpass]
  rfl

theorem poll_of_accepted {now : Instant} {t : Trickle} {net : Network width size ℓ π} {link : ℓ}
    (henabled : t.config.enabled = true) (hphase : t.phase = .transmission)
    (hdue : t.intervalTimer.due now = true) (hfew : t.counter < t.config.redundancy)
    (hidle : t.ackTimer.armed = false)
    (haccepted : LinkLayer.broadcastHello net.link = (.ok (), link)) (random : ρ) :
    t.poll now random net = (.ok [.helloBroadcast],
      { t with
        ackTimer := ⟨t.intervalTimer.deadline.getD now, t.config.ackWait, true⟩
        intervalTimer := ⟨t.intervalTimer.deadline.getD now,
          Saturating.sub t.interval t.transmissionPoint, true⟩
        phase := .intervalEnd },
      random, ⟨net.neighbors.clearHeard, link, net.routing⟩) := by
  rw [poll_of_enabled henabled (pollAcks_of_idle now hidle net), hdue]
  simp only [passDeadline, hphase, passTransmission_of_accepted _
    (t := { t with intervalTimer := t.intervalTimer.stop, phase := .transmission })
    hfew hidle haccepted]
  rfl

theorem dispatch?_of_accepted {now : Instant} {t : Trickle} {net : Network width size ℓ π}
    {link : ℓ} (henabled : t.config.enabled = true) (hphase : t.phase = .transmission)
    (hdue : t.intervalTimer.due now = true) (hfew : t.counter < t.config.redundancy)
    (hidle : t.ackTimer.armed = false)
    (haccepted : LinkLayer.broadcastHello net.link = (.ok (), link)) (random : ρ) :
    dispatch? (.poll now) ⟨t, random, net⟩ =
      some ⟨t.intervalTimer.deadline.getD now, now⟩ := by
  have htapped : t.poll now random (net.tapped []) = _ :=
    poll_of_accepted henabled hphase hdue hfew hidle (broadcastHello_tapped haccepted []) random
  simp only [dispatch?, traffic, run, perform, tapped, htapped]
  rfl

end Accepted

/-- The time at which everything is due. -/
def lastTick : Instant := ⟨Saturating.maxWord⟩

/-- Over an obedient radio and a random source that draws the lowest numbers, an engine whose
interval is over at `bound`, as is the time before its wait for answers. -/
structure Overdue (c : TrickleConfig) (bound : Nat)
    (s : Scene 8 4 ConstantWord (Radio 8) Unit) : Prop where
  config : s.trickle.config = c
  phase : s.trickle.phase = .intervalEnd
  running : s.trickle.isRunning = true
  ended : s.trickle.intervalTimer.start.ticks.toNat + s.trickle.intervalTimer.interval.toNat ≤ bound
  answered : s.trickle.ackTimer.start.ticks.toNat + s.trickle.ackTimer.interval.toNat ≤
    bound + c.ackWait.toNat
  random : s.random = ⟨0⟩
  obedient : s.net.link.helloError = none

theorem due_lastTick {t : Timer} (harmed : t.armed = true) (hfits : t.Fits) :
    t.due lastTick = true :=
  Timer.due_iff.mpr ⟨harmed, Nat.le_sub_of_add_le' hfits⟩

theorem pollAcks_lastTick {t : Trickle} (hfits : t.ackTimer.Fits) {size : Nat}
    (net : Network 8 size (Radio 8) Unit) :
    ∃ events ackTimer link,
      t.pollAcks lastTick net = (events, { t with ackTimer }, { net with link }) ∧
      ackTimer.armed = false ∧ link.helloError = net.link.helloError := by
  cases harmed : t.ackTimer.armed with
  | false =>
    exact ⟨_, _, _, pollAcks_of_idle lastTick harmed net, harmed, rfl⟩
  | true =>
    simp only [pollAcks, Timer.poll, due_lastTick harmed hfits]
    exact ⟨_, _, _, rfl, rfl, rfl⟩

theorem broadcastHello_of_obedient {radio : Radio 8} (h : radio.helloError = none) :
    LinkLayer.broadcastHello radio = (.ok (), { radio with hellos := radio.hellos + 1 }) := by
  simp only [LinkLayer.broadcastHello, h]

/-- Polled at the end of time, the engine begins the next interval where the last one was over. -/
theorem Overdue.begun {c : TrickleConfig} {bound : Nat}
    {s : Scene 8 4 ConstantWord (Radio 8) Unit} (h : Overdue c bound s)
    (henabled : c.enabled = true) (hinterval : bound ≤ 0xFFFFFFFFFFFFFFFF)
    (hwait : bound + c.ackWait.toNat ≤ 0xFFFFFFFFFFFFFFFF) :
    ∃ begin interval ackTimer net, (s.perform (.poll lastTick)).2 =
        ⟨enter begin interval (interval / 2) { s.trickle with ackTimer }, ⟨0⟩, net⟩ ∧
      begin.ticks.toNat ≤ bound ∧ interval.toNat ≤ c.maxInterval.toNat ∧
      ackTimer.armed = false ∧ net.link.helloError = none := by
  obtain ⟨t, random, net⟩ := s
  obtain ⟨rfl, hphase, hrunning, hover, hanswered, rfl, hobedient⟩ := h
  dsimp only at hphase hrunning hover hanswered hobedient
  obtain ⟨events, ackTimer, link, hacks, hidle, hlink⟩ :=
    pollAcks_lastTick (Nat.le_trans hanswered hwait) net
  have hfits : t.intervalTimer.Fits := Nat.le_trans hover hinterval
  have hdue := due_lastTick hrunning hfits
  have hpoll := poll_of_draw henabled hacks hphase hdue between_lowest
  refine ⟨t.intervalTimer.deadline.getD lastTick, t.intervalAfter t.interval, ackTimer,
    { net with link }, ?_, ?_, ?_, hidle, hlink.trans hobedient⟩
  · simp only [perform, hpoll]
    rfl
  · rw [Timer.toNat_deadline _ hrunning hfits]
    exact hover
  · rw [toNat_intervalAfter]
    exact Nat.min_le_right _ _

/-- Polled twice at the end of time, the engine sends a HELLO and is as late as before. -/
theorem Overdue.polled {c : TrickleConfig} {bound : Nat}
    {s : Scene 8 4 ConstantWord (Radio 8) Unit} (h : Overdue c bound s)
    (henabled : c.enabled = true) (hfew : 0 < c.redundancy)
    (hinterval : bound + c.maxInterval.toNat ≤ 0xFFFFFFFFFFFFFFFF)
    (hwait : bound + c.ackWait.toNat ≤ 0xFFFFFFFFFFFFFFFF) :
    ∃ due, dispatch? (.poll lastTick) (s.perform (.poll lastTick)).2 = some ⟨due, lastTick⟩ ∧
      Overdue c (bound + c.maxInterval.toNat)
        ((s.perform (.poll lastTick)).2.perform (.poll lastTick)).2 := by
  obtain ⟨begin, interval, ackTimer, net, hfirst, hbegin, hsize, hidle, hobedient⟩ :=
    h.begun henabled (by omega) hwait
  obtain rfl := h.config
  rw [hfirst]
  generalize hentered : enter begin interval (interval / 2) { s.trickle with ackTimer } = t
  have henabled' : t.config.enabled = true := by rw [← hentered]; exact henabled
  have hphase : t.phase = .transmission := by rw [← hentered]; rfl
  have hrunning : t.intervalTimer.armed = true := by rw [← hentered]; rfl
  have hfew' : t.counter < t.config.redundancy := by rw [← hentered]; exact hfew
  have hidle' : t.ackTimer.armed = false := by rw [← hentered]; exact hidle
  have hhalf : (interval / 2).toNat = interval.toNat / 2 := UInt64.toNat_div _ _
  have hfits : t.intervalTimer.Fits := by
    rw [← hentered]
    change begin.ticks.toNat + (interval / 2).toNat ≤ 0xFFFFFFFFFFFFFFFF
    omega
  have hdue := due_lastTick hrunning hfits
  have haccepted := broadcastHello_of_obedient hobedient
  have hpoll := poll_of_accepted henabled' hphase hdue hfew' hidle' haccepted (⟨0⟩ : ConstantWord)
  have hdeadline := Timer.toNat_deadline lastTick hrunning hfits
  refine ⟨t.intervalTimer.deadline.getD lastTick,
    dispatch?_of_accepted henabled' hphase hdue hfew' hidle' haccepted _, ?_⟩
  simp only [perform, hpoll]
  refine ⟨by rw [← hentered]; rfl, rfl, rfl, ?_, ?_, rfl, hobedient⟩
  · change (t.intervalTimer.deadline.getD lastTick).ticks.toNat +
      (Saturating.sub t.interval t.transmissionPoint).toNat ≤ _
    rw [hdeadline, Saturating.toNat_sub, ← hentered]
    change begin.ticks.toNat + (interval / 2).toNat +
      (interval.toNat - (interval / 2).toNat) ≤ _
    omega
  · change (t.intervalTimer.deadline.getD lastTick).ticks.toNat + t.config.ackWait.toNat ≤ _
    rw [hdeadline, ← hentered]
    change begin.ticks.toNat + (interval / 2).toNat + s.trickle.config.ackWait.toNat ≤ _
    omega

/-- The first interval of the engine is over after the smallest one. -/
theorem overdue_start {c : TrickleConfig} (henabled : c.enabled = true)
    (hfew : 0 < c.redundancy) :
    Overdue c c.minInterval.toNat ((lowest c).perform (.start .zero)).2 := by
  have hstart : (stopped c).start .zero (⟨0⟩ : ConstantWord) (lowest c).net = _ :=
    start_of_accepted .zero henabled between_lowest hfew rfl (broadcastHello_of_obedient rfl)
  have hstarted : ((lowest c).perform (.start .zero)).2 = ⟨_, ⟨0⟩, _⟩ :=
    congrArg (fun r => Scene.mk r.2.1 r.2.2.1 r.2.2.2) hstart
  rw [hstarted]
  refine ⟨rfl, rfl, rfl, ?_, ?_, rfl, rfl⟩
  · change 0 + (Saturating.sub c.minInterval 0).toNat ≤ _
    rw [Saturating.toNat_sub]
    omega
  · change 0 + c.ackWait.toNat ≤ _
    omega

theorem sent_of_mem_dispatch? [RandomSource ρ] [LinkLayer ℓ width] {s : Scene width size ρ ℓ π}
    {now : Instant} {a : Dispatch} (ha : a ∈ dispatch? (.poll now) s) : a.sent = now := by
  unfold dispatch? at ha
  split at ha
  · cases ha
    rfl
  · cases ha

/-- The engine is started and then not polled until `now`. -/
def lateRun (now : Instant) : List (Operation 8) :=
  [.start .zero, .poll now, .poll now, .poll now, .poll now]

theorem chronological_lateRun (now : Instant) : Chronological (lateRun now) := by
  simp [Chronological, times, lateRun, Operation.time?, Instant.zero]

/-- Polled only at the end of time, the engine sends one HELLO right after the other. -/
theorem dispatches_late {c : TrickleConfig} (henabled : c.enabled = true)
    (hfew : 0 < c.redundancy)
    (hroom : 3 * c.maxInterval.toNat + c.ackWait.toNat ≤ 0xFFFFFFFFFFFFFFFF) :
    ∃ before due between due', dispatches (lateRun lastTick) (lowest c) =
        before ++ ⟨due, lastTick⟩ :: (between ++ [⟨due', lastTick⟩]) ∧
      ∀ a ∈ between, a.sent = lastTick := by
  have hmin := UInt64.le_iff_toNat_le.mp c.minInterval_le_maxInterval
  have hstart := overdue_start henabled hfew
  obtain ⟨due, hfirst, hlate⟩ := hstart.polled henabled hfew (by omega) (by omega)
  obtain ⟨due', hsecond, -⟩ := hlate.polled henabled hfew (by omega) (by omega)
  set s := ((lowest c).perform (.start .zero)).2
  set s₁ := (s.perform (.poll lastTick)).2
  set s₂ := (s₁.perform (.poll lastTick)).2
  refine ⟨(dispatch? (.start .zero) (lowest c)).toList ++ (dispatch? (.poll lastTick) s).toList,
    due, (dispatch? (.poll lastTick) s₂).toList, due', ?_, fun a ha => ?_⟩
  · change (dispatch? (.start .zero) (lowest c)).toList ++ ((dispatch? (.poll lastTick) s).toList ++
      ((dispatch? (.poll lastTick) s₁).toList ++ ((dispatch? (.poll lastTick) s₂).toList ++
        ((dispatch? (.poll lastTick) (s₂.perform (.poll lastTick)).2).toList ++ [])))) = _
    rw [hfirst, hsecond]
    simp
  · exact sent_of_mem_dispatch? (Option.mem_toList.mp ha)

theorem not_pacesHellos_sent {c : TrickleConfig} (henabled : c.enabled = true)
    (hfew : 0 < c.redundancy) (hwait : 0 < c.ackWait.toNat)
    (hroom : 3 * c.maxInterval.toNat + c.ackWait.toNat ≤ 0xFFFFFFFFFFFFFFFF) :
    ¬ PacesHellos c Dispatch.sent := by
  intro hpaces
  obtain ⟨before, due, between, due', hdispatches, hbetween⟩ :=
    dispatches_late henabled hfew hroom
  have hchain := hpaces 8 4 ConstantWord (Radio 8) Unit (lowest c) .zero
    (List.replicate 4 (.poll lastTick)) rfl rfl (by simp [Operation.continues])
    (chronological_lateRun lastTick)
  change (dispatches (lateRun lastTick) (lowest c)).IsChain _ at hchain
  rw [hdispatches] at hchain
  have hlater := hchain.right_of_append
  -- the HELLO after the first late one is sent at the same time
  have hnext : c.ackWait.toNat ≤ lastTick.ticks.toNat - lastTick.ticks.toNat := by
    cases between with
    | nil => exact (List.isChain_cons_cons.mp hlater).1
    | cons a between =>
      have hsame := (List.isChain_cons_cons.mp hlater).1
      rwa [hbetween a List.mem_cons_self] at hsame
  omega

/-- The wait for answers lies between a HELLO and the next one, if it is counted from the time at
which the first of them was due. Counted from the time at which it was sent it does so only if no
HELLO is ever sent or no answer is awaited, unless the times are beyond the clock. -/
theorem hello_pacing (c : TrickleConfig) :
    PacesHellos c Dispatch.due ∧
      (3 * c.maxInterval.toNat + c.ackWait.toNat ≤ 0xFFFFFFFFFFFFFFFF →
        (PacesHellos c Dispatch.sent ↔
          c.enabled = false ∨ c.redundancy = 0 ∨ c.ackWait = 0)) := by
  refine ⟨fun width size ρ ℓ π _ _ s now ops hconfig hstopped hgoes htimes => ?_, fun hroom =>
    ⟨fun hpaces => ?_, fun hnever width size ρ ℓ π _ _ s now ops hconfig hstopped _ htimes => ?_⟩⟩
  · refine chain_dispatches _ none hconfig (fun _ h => by cases h)
      (setBefore_of_stopped hstopped _) htimes fun hstop => ?_
    rcases List.mem_cons.mp hstop with hstop | hstop
    · cases hstop
    · exact absurd (hgoes _ hstop) Bool.false_ne_true
  · rw [← Bool.not_eq_true]
    by_contra hsends
    rw [not_or, not_or, not_not] at hsends
    obtain ⟨henabled, hredundancy, hwait⟩ := hsends
    refine not_pacesHellos_sent henabled (UInt16.pos_iff_ne_zero.mpr hredundancy) ?_ hroom hpaces
    exact Nat.pos_of_ne_zero fun h => hwait (UInt64.toNat_inj.mp h)
  · rw [← or_assoc] at hnever
    rcases hnever with hsilent | hwait
    · rw [dispatches_eq_nil hsilent _ hconfig (setBefore_of_stopped hstopped _) htimes]
      exact List.isChain_nil
    · rw [hwait]
      exact List.isChain_iff_forall_rel_of_append_cons_cons.mpr fun _ _ _ _ _ => Nat.zero_le _

/-- An engine that awaits answers for sixty ticks. -/
def sixtyTicksWait : TrickleConfig where
  enabled := true
  minInterval := 100
  doublings := 4
  redundancy := 2
  resetWindow := 0
  resetsPerWindow := 0
  ackWait := 60

theorem hello_pacing_sixtyTicksWait :
    3 * sixtyTicksWait.maxInterval.toNat + sixtyTicksWait.ackWait.toNat ≤ 0xFFFFFFFFFFFFFFFF ∧
    Chronological (lateRun ⟨1000⟩) ∧
    ((dispatches (lateRun ⟨1000⟩) (lowest sixtyTicksWait)).IsChain fun a b =>
      sixtyTicksWait.ackWait.toNat ≤ b.sent.ticks.toNat - a.due.ticks.toNat) ∧
    ¬ PacesHellos sixtyTicksWait Dispatch.sent := by
  obtain ⟨hdue, hsent⟩ := hello_pacing sixtyTicksWait
  have hroom : 3 * sixtyTicksWait.maxInterval.toNat + sixtyTicksWait.ackWait.toNat ≤
      0xFFFFFFFFFFFFFFFF := by decide
  refine ⟨hroom, chronological_lateRun _, ?_, fun hpaces => ?_⟩
  · exact hdue 8 4 ConstantWord (Radio 8) Unit (lowest sixtyTicksWait) .zero
      (List.replicate 4 (.poll ⟨1000⟩)) rfl rfl (by simp [Operation.continues])
      (chronological_lateRun ⟨1000⟩)
  · exact absurd ((hsent hroom).mp hpaces) (by decide)

/-- The HELLOs that were due at 200 and 500 are sent at one time. -/
theorem hellos_at_once_sixtyTicksWait :
    dispatches (lateRun ⟨1000⟩) (lowest sixtyTicksWait) =
      [⟨⟨0⟩, ⟨0⟩⟩, ⟨⟨200⟩, ⟨1000⟩⟩, ⟨⟨500⟩, ⟨1000⟩⟩] ∧
    ¬ PacesHellos sixtyTicksWait Dispatch.sent := by
  have hdispatches : dispatches (lateRun ⟨1000⟩) (lowest sixtyTicksWait) =
      [⟨⟨0⟩, ⟨0⟩⟩, ⟨⟨200⟩, ⟨1000⟩⟩, ⟨⟨500⟩, ⟨1000⟩⟩] := by decide
  refine ⟨hdispatches, fun hpaces => ?_⟩
  have hchain := hpaces 8 4 ConstantWord (Radio 8) Unit (lowest sixtyTicksWait) .zero
    (List.replicate 4 (.poll ⟨1000⟩)) rfl rfl (by simp [Operation.continues])
    (chronological_lateRun ⟨1000⟩)
  change (dispatches (lateRun ⟨1000⟩) (lowest sixtyTicksWait)).IsChain _ at hchain
  rw [hdispatches] at hchain
  exact absurd hchain (by decide)

end MeshSecurity.Trickle
