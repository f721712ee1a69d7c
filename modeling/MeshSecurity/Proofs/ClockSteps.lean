import MeshSecurity.Proofs.TrickleSteps
import MeshSecurity.Trickle.Traffic

/-!
# What a call does to the timers

For each call of the engine: what may become of its timers and its phase, what it answers, and what
it asks of the link layer. Laws about times and about HELLOs are drawn from `perform_clockEffect`
and open no call again.
-/

namespace MeshSecurity.Trickle

variable {width size : Nat} {ρ ℓ π : Type}

/-- The events that a call reports. -/
def reported : Answer → List TrickleEvent
  | .events (.ok events) => events
  | .event (.ok (some event)) => [event]
  | _ => []

/-- Two engines are alike if they differ at most in what they count. -/
structure Alike (t t' : Trickle) : Prop where
  config : t'.config = t.config
  interval : t'.interval = t.interval
  transmissionPoint : t'.transmissionPoint = t.transmissionPoint
  intervalTimer : t'.intervalTimer = t.intervalTimer
  ackTimer : t'.ackTimer = t.ackTimer
  phase : t'.phase = t.phase

theorem Alike.refl (t : Trickle) : Alike t t := ⟨rfl, rfl, rfl, rfl, rfl, rfl⟩

/-- What happens at a transmission point, with what it asks of the link layer and the timer of the
wait for answers after it. -/
inductive Transmission (now : Instant) (t : Trickle) :
    TrickleEvent → List LinkCall → Timer → Prop
  | suppressed (hmany : t.config.redundancy ≤ t.counter) :
      Transmission now t (.suppressed t.counter) [] t.ackTimer
  | awaiting (hawaiting : t.ackTimer.expired now = false) :
      Transmission now t .awaitingAcks [] t.ackTimer
  | refused (e : Error) : Transmission now t (.helloFailed e) [.helloRefused e] t.ackTimer
  | sent (hfew : t.counter < t.config.redundancy) (hexpired : t.ackTimer.expired now = true) :
      Transmission now t .helloBroadcast [.helloSent] ⟨now, t.config.ackWait, true⟩

/-- What happens at the deadline of the interval timer. -/
inductive DeadlinePassed (deadline : Instant) (t : Trickle) :
    Except Error TrickleEvent → List LinkCall → Trickle → Prop
  | transmission {event calls ackTimer} (hphase : t.phase = .transmission)
      (hpass : Transmission deadline t event calls ackTimer) :
      DeadlinePassed deadline t (.ok event) calls
        { t with
          ackTimer
          intervalTimer := ⟨deadline, Saturating.sub t.interval t.transmissionPoint, true⟩
          phase := .intervalEnd }
  | ended {point result} (hphase : t.phase = .intervalEnd)
      (hresult : result = .ok (.intervalStarted (t.intervalAfter t.interval) point) ∨
        result = .error .randomFailure) :
      DeadlinePassed deadline t result [] (t.enter deadline (t.intervalAfter t.interval) point)

/-- What a poll makes of the wait for answers. -/
inductive AcksPolled (now : Instant) (t : Trickle) :
    List TrickleEvent → List LinkCall → Trickle → Prop
  | waiting (hdue : t.ackTimer.due now = false) : AcksPolled now t [] [] t
  | ended (hdue : t.ackTimer.due now = true) :
      AcksPolled now t [.challengeChanged] [.challengeChanged]
        { t with ackTimer := t.ackTimer.stop }

/-- What a poll makes of the interval. -/
inductive IntervalPolled (now : Instant) (t : Trickle) :
    Except Error (List TrickleEvent) → List LinkCall → Trickle → Prop
  | early (hdue : t.intervalTimer.due now = false) : IntervalPolled now t (.ok []) [] t
  | fired {result calls t'} (hdue : t.intervalTimer.due now = true)
      (hpass : DeadlinePassed (t.intervalTimer.deadline.getD now)
        { t with intervalTimer := t.intervalTimer.stop } result calls t') :
      IntervalPolled now t (result.map fun event => [event]) calls t'

/-- What a poll of an enabled engine makes of both timers. -/
inductive Polled (now : Instant) (t : Trickle) :
    Except Error (List TrickleEvent) → List LinkCall → Trickle → Prop
  | mk {events calls t₁ result calls' t'} (hacks : AcksPolled now t events calls t₁)
      (hinterval : IntervalPolled now t₁ result calls' t') :
      Polled now t (result.map (events ++ ·)) (calls ++ calls') t'

/-- What a call may do to the timers, with what it answers and asks of the link layer. -/
inductive ClockEffect (t : Trickle) : Operation width → Answer → List LinkCall → Trickle → Prop
  | kept {op answer t'} (hquiet : ∀ event ∈ reported answer, event = .resetRateLimited)
      (halike : Alike t t') : ClockEffect t op answer [] t'
  | stopped : ClockEffect t .stop .done [] t.stop
  | started {now interval event calls ackTimer} (henabled : t.config.enabled = true)
      (hpass : Transmission now { t with interval, transmissionPoint := 0 } event calls ackTimer) :
      ClockEffect t (.start now) (.events (.ok [.started interval, event]))
        (.challengeChanged :: calls)
        { t with
          interval
          transmissionPoint := 0
          ackTimer
          intervalTimer := ⟨now, Saturating.sub interval 0, true⟩
          phase := .intervalEnd }
  | reset {op now point t'} (htime : op.time? = some now) (hrunning : t.isRunning = true)
      (hcounter : t'.counter = 0)
      (halike : Alike (t.enter now (t.intervalAfter (t.config.minInterval / 2)) point) t') :
      ClockEffect t op (.event (.ok (some (.reset point)))) [] t'
  | polled {now events calls t₁ result calls' t'} (henabled : t.config.enabled = true)
      (hacks : AcksPolled now t events calls t₁)
      (hinterval : IntervalPolled now t₁ result calls' t') :
      ClockEffect t (.poll now) (.events (result.map (events ++ ·))) (calls ++ calls') t'

theorem AcksPolled.frame {now : Instant} {t t₁ : Trickle} {events : List TrickleEvent}
    {calls : List LinkCall} (hacks : AcksPolled now t events calls t₁) :
    ∃ ackTimer, t₁ = { t with ackTimer } := by
  cases hacks with
  | waiting => exact ⟨_, rfl⟩
  | ended => exact ⟨_, rfl⟩

/-- The phase changes whenever the interval timer runs out. -/
theorem Polled.phase_ne_iff {now : Instant} {t t' : Trickle}
    {result : Except Error (List TrickleEvent)} {calls : List LinkCall}
    (h : Polled now t result calls t') :
    t'.phase ≠ t.phase ↔ t.intervalTimer.due now = true := by
  obtain ⟨hacks, hinterval⟩ := h
  obtain ⟨ackTimer, rfl⟩ := hacks.frame
  cases hinterval with
  | early hdue =>
    have hdue' : t.intervalTimer.due now = false := hdue
    rw [hdue']
    exact iff_of_false (not_not_intro rfl) Bool.false_ne_true
  | fired hdue hpass =>
    refine iff_of_true ?_ hdue
    cases hpass with
    | transmission hphase => exact fun hsame => by cases hsame.trans hphase
    | ended hphase => exact fun hsame => by cases hsame.trans hphase

/-- The interval timer is armed after a poll exactly if it was before. -/
theorem Polled.running_iff {now : Instant} {t t' : Trickle}
    {result : Except Error (List TrickleEvent)} {calls : List LinkCall}
    (h : Polled now t result calls t') :
    t'.isRunning = true ↔ t.isRunning = true := by
  obtain ⟨hacks, hinterval⟩ := h
  obtain ⟨ackTimer, rfl⟩ := hacks.frame
  cases hinterval with
  | early => exact Iff.rfl
  | fired hdue hpass =>
    refine iff_of_true ?_ (Timer.due_iff.mp hdue).1
    cases hpass with
    | transmission => rfl
    | ended => rfl

theorem ClockEffect.config {op : Operation width} {t t' : Trickle} {answer : Answer}
    {calls : List LinkCall} (heffect : ClockEffect t op answer calls t') :
    t'.config = t.config := by
  cases heffect with
  | kept hquiet halike => exact halike.config
  | stopped => rfl
  | started => rfl
  | reset htime hrunning hcounter halike => exact halike.config
  | polled henabled hacks hinterval =>
    obtain ⟨ackTimer, rfl⟩ := hacks.frame
    cases hinterval with
    | early => rfl
    | fired hdue hpass => cases hpass <;> rfl

section Random

variable [RandomSource ρ]

theorem reset_clockEffect (now : Instant) (t : Trickle) (random : ρ) :
    ClockEffect t (.reset now : Operation width) (.event (t.reset now random).1) []
      (t.reset now random).2.1 := by
  rcases t.reset_cases now random with
    ⟨random', hreset | hreset⟩ | ⟨point, random', -, hrunning, -, hreset⟩
  · rw [hreset]
    exact .kept (by simp [reported]) (.refl t)
  · rw [hreset]
    exact .kept (by simp [reported]) (.refl t)
  · rw [hreset]
    exact .reset rfl hrunning rfl (.refl _)

theorem newNeighbor_clockEffect (now : Instant) (permanentNeighbors : Nat) (t : Trickle)
    (random : ρ) :
    ClockEffect t (.newNeighbor now permanentNeighbors : Operation width)
      (.event (t.newNeighbor now permanentNeighbors random).1) []
      (t.newNeighbor now permanentNeighbors random).2.1 := by
  rcases t.newNeighbor_cases now permanentNeighbors random with
    ⟨result, newcomers, windowStart, windowResets, random', hresult, hnew⟩ |
      ⟨point, windowStart, windowResets, random', -, hrunning, -, hnew⟩
  · rw [hnew]
    refine .kept ?_ ⟨rfl, rfl, rfl, rfl, rfl, rfl⟩
    rcases hresult with rfl | rfl | rfl <;> simp [reported]
  · rw [hnew]
    exact .reset rfl hrunning rfl ⟨rfl, rfl, rfl, rfl, rfl, rfl⟩

end Random

theorem hearFrom_clockEffect (peer : Address width) (t : Trickle)
    (neighbors : NeighborTable width size) :
    ClockEffect t (.hearFrom peer) (.heard (t.hearFrom peer neighbors).1) []
      (t.hearFrom peer neighbors).2.1 := by
  unfold hearFrom
  split
  · exact .kept (by simp [reported]) (.refl t)
  · rename_i sender _
    obtain ⟨counted, sender', counter, hhear⟩ := t.hear_frame sender
    rw [hhear]
    exact .kept (by simp [reported]) ⟨rfl, rfl, rfl, rfl, rfl, rfl⟩

section Link

variable [LinkLayer ℓ width]

theorem broadcastHello_tapped {link link' : ℓ} (h : LinkLayer.broadcastHello link = (.ok (), link'))
    (past : List LinkCall) : LinkLayer.broadcastHello (⟨link, past⟩ : Tapped ℓ) =
      (.ok (), ⟨link', past ++ [.helloSent]⟩) := by
  simp only [LinkLayer.broadcastHello, h]

theorem broadcastHello_tapped_of_error {link link' : ℓ} {e : Error}
    (h : LinkLayer.broadcastHello link = (.error e, link')) (past : List LinkCall) :
    LinkLayer.broadcastHello (⟨link, past⟩ : Tapped ℓ) =
      (.error e, ⟨link', past ++ [.helloRefused e]⟩) := by
  simp only [LinkLayer.broadcastHello, h]

/-- A tap hears what is asked at a transmission point and changes nothing. -/
theorem transmit_tapped (now : Instant) (t : Trickle) (net : Network width size ℓ π) :
    ∃ calls, Transmission now t (t.transmit now net).1 calls (t.transmit now net).2.1 ∧
      ∀ past, t.transmit now (net.tapped past) = ((t.transmit now net).1,
        (t.transmit now net).2.1, (t.transmit now net).2.2.tapped (past ++ calls)) := by
  unfold transmit
  by_cases hmany : t.counter ≥ t.config.redundancy
  · simp only [if_pos hmany]
    exact ⟨[], .suppressed hmany, fun past => by rw [List.append_nil]⟩
  · simp only [if_neg hmany]
    cases hexpired : t.ackTimer.expired now with
    | false => exact ⟨[], .awaiting hexpired, fun past => by rw [List.append_nil]; rfl⟩
    | true =>
      simp only [Bool.not_true, Bool.false_eq_true, if_false]
      rcases hhello : LinkLayer.broadcastHello net.link with ⟨_ | _, link⟩
      · refine ⟨[.helloRefused _], .refused _, fun past => ?_⟩
        simp only [Network.tapped, broadcastHello_tapped_of_error hhello]
      · refine ⟨[.helloSent], .sent (UInt16.not_le.mp hmany) hexpired, fun past => ?_⟩
        simp only [Network.tapped, broadcastHello_tapped hhello, Timer.set]

theorem passTransmission_tapped (now : Instant) (t : Trickle) (net : Network width size ℓ π) :
    ∃ calls, Transmission now t (t.passTransmission now net).1 calls
        (t.passTransmission now net).2.1.ackTimer ∧
      ∀ past, t.passTransmission now (net.tapped past) = ((t.passTransmission now net).1,
        (t.passTransmission now net).2.1,
        (t.passTransmission now net).2.2.tapped (past ++ calls)) := by
  obtain ⟨calls, hpass, htapped⟩ := transmit_tapped now t net
  refine ⟨calls, hpass, fun past => ?_⟩
  simp only [passTransmission, htapped]

theorem pollAcks_tapped (now : Instant) (t : Trickle) (net : Network width size ℓ π) :
    ∃ calls, AcksPolled now t (t.pollAcks now net).1 calls (t.pollAcks now net).2.1 ∧
      ∀ past, t.pollAcks now (net.tapped past) = ((t.pollAcks now net).1,
        (t.pollAcks now net).2.1, (t.pollAcks now net).2.2.tapped (past ++ calls)) := by
  unfold pollAcks Timer.poll
  cases hdue : t.ackTimer.due now with
  | true => exact ⟨[.challengeChanged], .ended hdue, fun _ => rfl⟩
  | false => exact ⟨[], .waiting hdue, fun past => by rw [List.append_nil]; rfl⟩

variable [RandomSource ρ]

theorem start_tapped (now : Instant) (t : Trickle) (random : ρ) (net : Network width size ℓ π) :
    ∃ calls, ClockEffect t (.start now : Operation width) (.events (t.start now random net).1) calls
        (t.start now random net).2.1 ∧
      ∀ past, t.start now random (net.tapped past) = ((t.start now random net).1,
        (t.start now random net).2.1, (t.start now random net).2.2.1,
        (t.start now random net).2.2.2.tapped (past ++ calls)) := by
  unfold start
  cases henabled : t.config.enabled with
  | false =>
    exact ⟨[], .kept (by simp [reported]) (.refl t), fun past => by rw [List.append_nil]; rfl⟩
  | true =>
    simp only [Bool.not_true, Bool.false_eq_true, if_false]
    rcases RandomSource.between t.config.minInterval t.config.maxInterval random with
      ⟨_ | interval, random'⟩
    · exact ⟨[], .kept (by simp [reported]) (.refl t), fun past => by rw [List.append_nil]⟩
    · obtain ⟨calls, hpass, htapped⟩ := passTransmission_tapped now
        { t with interval, transmissionPoint := 0 }
        { net with link := LinkLayer.changeChallenge net.link }
      refine ⟨.challengeChanged :: calls, ClockEffect.started henabled hpass, fun past => ?_⟩
      have hthere := htapped (past ++ [.challengeChanged])
      rw [List.append_assoc] at hthere
      exact congrArg (fun r => (Except.ok [.started interval, r.1], r.2.1, random', r.2.2)) hthere

theorem passDeadline_tapped (deadline : Instant) (t : Trickle) (random : ρ)
    (net : Network width size ℓ π) :
    ∃ calls, DeadlinePassed deadline t (t.passDeadline deadline random net).1 calls
        (t.passDeadline deadline random net).2.1 ∧
      ∀ past, t.passDeadline deadline random (net.tapped past) =
        ((t.passDeadline deadline random net).1, (t.passDeadline deadline random net).2.1,
          (t.passDeadline deadline random net).2.2.1,
          (t.passDeadline deadline random net).2.2.2.tapped (past ++ calls)) := by
  unfold passDeadline
  cases hphase : t.phase with
  | transmission =>
    obtain ⟨calls, hpass, htapped⟩ := passTransmission_tapped deadline t net
    simp only [htapped]
    exact ⟨calls, .transmission hphase hpass, fun _ => rfl⟩
  | intervalEnd =>
    rcases t.beginAfter_cases deadline t.interval random with
      ⟨point, random', -, hbegin⟩ | ⟨random', -, hbegin⟩
    · simp only [hbegin]
      exact ⟨[], .ended hphase (.inl rfl), fun past => by rw [List.append_nil]⟩
    · simp only [hbegin]
      exact ⟨[], .ended hphase (.inr rfl), fun past => by rw [List.append_nil]⟩

theorem poll_polled {t : Trickle} (henabled : t.config.enabled = true) (now : Instant) (random : ρ)
    (net : Network width size ℓ π) :
    ∃ calls, Polled now t (t.poll now random net).1 calls (t.poll now random net).2.1 ∧
      ∀ past, t.poll now random (net.tapped past) = ((t.poll now random net).1,
        (t.poll now random net).2.1, (t.poll now random net).2.2.1,
        (t.poll now random net).2.2.2.tapped (past ++ calls)) := by
  obtain ⟨calls, hacks, htapped⟩ := pollAcks_tapped now t net
  generalize hpolled : t.pollAcks now net = polled at hacks htapped
  obtain ⟨events, t₁, net₁⟩ := polled
  rw [poll_of_enabled henabled hpolled]
  simp only [poll_of_enabled henabled (htapped _)]
  cases hdue : t₁.intervalTimer.due now with
  | false =>
    have hboth : Polled now t _ _ _ := .mk hacks (.early hdue)
    simp only [Except.map, List.append_nil] at hboth
    exact ⟨calls, hboth, fun _ => rfl⟩
  | true =>
    obtain ⟨calls', hpass, hthere⟩ := passDeadline_tapped (t₁.intervalTimer.deadline.getD now)
      { t₁ with intervalTimer := t₁.intervalTimer.stop } random net₁
    have hboth : Polled now t _ _ _ := .mk hacks (.fired hdue hpass)
    refine ⟨calls ++ calls', ?_, fun past => ?_⟩
    · generalize passDeadline _ _ random net₁ = passed at hboth ⊢
      obtain ⟨_ | _, rest⟩ := passed <;> exact hboth
    · simp only [hthere, List.append_assoc]

theorem Polled.clockEffect {now : Instant} {t t' : Trickle}
    {result : Except Error (List TrickleEvent)} {calls : List LinkCall}
    (henabled : t.config.enabled = true) (h : Polled now t result calls t') :
    ClockEffect t (.poll now : Operation width) (.events result) calls t' := by
  obtain ⟨hacks, hinterval⟩ := h
  exact .polled henabled hacks hinterval

theorem poll_tapped (now : Instant) (t : Trickle) (random : ρ) (net : Network width size ℓ π) :
    ∃ calls, ClockEffect t (.poll now : Operation width) (.events (t.poll now random net).1) calls
        (t.poll now random net).2.1 ∧
      ∀ past, t.poll now random (net.tapped past) = ((t.poll now random net).1,
        (t.poll now random net).2.1, (t.poll now random net).2.2.1,
        (t.poll now random net).2.2.2.tapped (past ++ calls)) := by
  cases henabled : t.config.enabled with
  | false =>
    simp only [poll, henabled]
    exact ⟨[], .kept (by simp [reported]) (.refl t), fun past => by rw [List.append_nil]; rfl⟩
  | true =>
    obtain ⟨calls, hpolled, htapped⟩ := poll_polled henabled now random net
    exact ⟨calls, hpolled.clockEffect henabled, htapped⟩

end Link

namespace Scene

variable [RandomSource ρ] [LinkLayer ℓ width]

/-- Whatever the link layer, a call does to the timers one of a few things, and a tap on the link
layer hears what the call asks and changes nothing. -/
theorem perform_clockEffect (s : Scene width size ρ ℓ π) (op : Operation width) :
    ClockEffect s.trickle op (s.perform op).1 (traffic [op] s) (s.perform op).2.trickle ∧
      ∀ past, (s.tapped past).perform op =
        ((s.perform op).1, (s.perform op).2.tapped (past ++ traffic [op] s)) := by
  obtain ⟨calls, heffect, htapped⟩ : ∃ calls,
      ClockEffect s.trickle op (s.perform op).1 calls (s.perform op).2.trickle ∧
      ∀ past, (s.tapped past).perform op =
        ((s.perform op).1, (s.perform op).2.tapped (past ++ calls)) := by
    cases op with
    | start now =>
      obtain ⟨calls, heffect, htapped⟩ := s.trickle.start_tapped now s.random s.net
      refine ⟨calls, heffect, fun past => ?_⟩
      simp only [perform, tapped, htapped]
    | stop => exact ⟨[], .stopped, fun past => by rw [List.append_nil]; rfl⟩
    | poll now =>
      obtain ⟨calls, heffect, htapped⟩ := s.trickle.poll_tapped now s.random s.net
      refine ⟨calls, heffect, fun past => ?_⟩
      simp only [perform, tapped, htapped]
    | reset now =>
      exact ⟨[], s.trickle.reset_clockEffect now s.random,
        fun past => by rw [List.append_nil]; rfl⟩
    | newNeighbor now permanentNeighbors =>
      exact ⟨[], s.trickle.newNeighbor_clockEffect now permanentNeighbors s.random,
        fun past => by rw [List.append_nil]; rfl⟩
    | hearFrom peer =>
      exact ⟨[], s.trickle.hearFrom_clockEffect peer s.net.neighbors,
        fun past => by rw [List.append_nil]; rfl⟩
  have htraffic : traffic [op] s = calls := by
    simp only [traffic, run, htapped []]
    rfl
  rw [htraffic]
  exact ⟨heffect, htapped⟩

theorem perform_polled {s : Scene width size ρ ℓ π} (henabled : s.trickle.config.enabled = true)
    (now : Instant) : ∃ result, (s.perform (.poll now)).1 = .events result ∧
      Polled now s.trickle result (traffic [.poll now] s) (s.perform (.poll now)).2.trickle := by
  obtain ⟨calls, hpolled, htapped⟩ := poll_polled henabled now s.random s.net
  have htraffic : traffic [.poll now] s = calls := by
    simp only [traffic, run, perform, tapped, htapped []]
    rfl
  rw [htraffic]
  exact ⟨_, rfl, hpolled⟩

theorem config_run (ops : List (Operation width)) (s : Scene width size ρ ℓ π) :
    (run ops s).2.trickle.config = s.trickle.config := by
  induction ops generalizing s with
  | nil => rfl
  | cons op ops ih => exact (ih _).trans (s.perform_clockEffect op).1.config

/-- A tapped run is the run, with what it asks put on record. -/
theorem run_tapped (ops : List (Operation width)) (s : Scene width size ρ ℓ π)
    (past : List LinkCall) :
    run ops (s.tapped past) = ((run ops s).1, (run ops s).2.tapped (past ++ traffic ops s)) := by
  obtain ⟨calls, hrun⟩ : ∃ calls, ∀ past, run ops (s.tapped past) =
      ((run ops s).1, (run ops s).2.tapped (past ++ calls)) := by
    induction ops generalizing s with
    | nil => exact ⟨[], fun past => by rw [List.append_nil]; rfl⟩
    | cons op ops ih =>
      obtain ⟨calls, hrest⟩ := ih (s.perform op).2
      refine ⟨traffic [op] s ++ calls, fun past => ?_⟩
      simp only [run, (s.perform_clockEffect op).2 past, hrest, List.append_assoc]
  have htraffic : traffic ops s = calls := by
    simp only [traffic, hrun]
    rfl
  rw [htraffic]
  exact hrun past

theorem traffic_cons (op : Operation width) (ops : List (Operation width))
    (s : Scene width size ρ ℓ π) :
    traffic (op :: ops) s = traffic [op] s ++ traffic ops (s.perform op).2 := by
  have hop := (s.perform_clockEffect op).2 []
  have hrest := run_tapped ops (s.perform op).2 (traffic [op] s)
  rw [List.nil_append] at hop
  have hrun : (run (op :: ops) (s.tapped [])).2 =
      (run ops ((s.perform op).2.tapped (traffic [op] s))).2 := by
    simp only [run, hop]
  rw [hrest] at hrun
  exact congrArg (fun s' => s'.net.link.calls) hrun

end Scene

section Times

variable {op : Operation width} {ops : List (Operation width)}

theorem mem_times_of_time {now : Instant} (htime : op.time? = some now) :
    now ∈ times (op :: ops) := by
  simp [times, htime]

theorem mem_times_of_mem {time : Instant} (hmem : time ∈ times ops) : time ∈ times (op :: ops) :=
  ((List.sublist_cons_self op ops).filterMap Operation.time?).subset hmem

theorem chronological_cons : Chronological (op :: ops) ↔
    (∀ now, op.time? = some now → ∀ time ∈ times ops, now.ticks ≤ time.ticks) ∧
      Chronological ops := by
  cases htime : op.time? with
  | none => simp [Chronological, times, htime]
  | some now => simp [Chronological, times, htime]

/-- The interval timer was not set later than at any time of the calls to come. -/
def SetBefore (t : Trickle) (ops : List (Operation width)) : Prop :=
  t.isRunning = true → ∀ time ∈ times ops, t.intervalTimer.start.ticks ≤ time.ticks

theorem setBefore_of_stopped {t : Trickle} (hstopped : t.isRunning = false)
    (ops : List (Operation width)) : SetBefore t ops := fun hrunning => by
  rw [hstopped] at hrunning
  cases hrunning

/-- What begins at a deadline begins in the past. -/
theorem SetBefore.step {t t' : Trickle} {answer : Answer} {calls : List LinkCall}
    (hbefore : SetBefore t (op :: ops)) (htimes : Chronological (op :: ops))
    (heffect : ClockEffect t op answer calls t') : SetBefore t' ops := by
  obtain ⟨hnow, -⟩ := chronological_cons.mp htimes
  intro hrunning time hmem
  cases heffect with
  | kept hquiet halike =>
    rw [isRunning, halike.intervalTimer] at hrunning
    rw [halike.intervalTimer]
    exact hbefore hrunning time (mem_times_of_mem hmem)
  | stopped => exact absurd hrunning Bool.false_ne_true
  | started => exact hnow _ rfl time hmem
  | reset htime hwas hcounter halike =>
    rw [halike.intervalTimer]
    exact hnow _ htime time hmem
  | @polled now _ _ _ _ _ _ henabled hacks hinterval =>
    obtain ⟨ackTimer, rfl⟩ := hacks.frame
    cases hinterval with
    | early => exact hbefore hrunning time (mem_times_of_mem hmem)
    | fired hdue hpass =>
      have hstart := hbefore (Timer.due_iff.mp hdue).1 now (mem_times_of_time rfl)
      have hdeadline := UInt64.le_trans (Timer.deadline_le_of_due hstart hdue)
        (hnow now rfl time hmem)
      cases hpass with
      | transmission => exact hdeadline
      | ended => exact hdeadline

end Times

end MeshSecurity.Trickle
