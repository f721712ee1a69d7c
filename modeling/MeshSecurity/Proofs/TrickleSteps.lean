import MeshSecurity.Proofs.RandomDraws
import MeshSecurity.Trickle.Run

/-!
# What a call does to the interval

For each call of the engine: the sizes that the interval may have after it. Laws of runs are drawn
from `perform_effect` and open no call again.
-/

namespace MeshSecurity

namespace TrickleConfig

theorem minInterval_le_maxInterval (c : TrickleConfig) : c.minInterval ≤ c.maxInterval := by
  rw [UInt64.le_iff_toNat_le]
  have hword := c.minInterval.toNat_lt
  unfold maxInterval
  split
  · rw [Saturating.toNat_maxWord]
    omega
  · rename_i hfits
    rw [Bool.or_eq_true, decide_eq_true_iff, decide_eq_true_iff, not_or, UInt64.not_lt,
      UInt64.le_iff_toNat_le, UInt64.toNat_shiftRight, Nat.shiftRight_eq_div_pow,
      Nat.le_div_iff_mul_le (Nat.two_pow_pos _)] at hfits
    rw [UInt64.toNat_shiftLeft, Nat.shiftLeft_eq, Nat.mod_eq_of_lt]
    · exact Nat.le_mul_of_pos_right _ (Nat.two_pow_pos _)
    · exact Nat.lt_of_le_of_lt hfits.2 (by decide)

end TrickleConfig

namespace Trickle

/-- Twice the size, or the largest size, which is at most the largest word. -/
theorem toNat_intervalAfter (size : UInt64) (t : Trickle) :
    (t.intervalAfter size).toNat = min (2 * size.toNat) t.config.maxInterval.toNat := by
  have hsum := Saturating.toNat_add size size
  have hword := t.config.maxInterval.toNat_lt
  unfold intervalAfter
  change (if Saturating.add size size ≤ t.config.maxInterval then _ else _ : UInt64).toNat = _
  split
  · rename_i hle
    rw [UInt64.le_iff_toNat_le] at hle
    omega
  · rename_i hgt
    rw [UInt64.le_iff_toNat_le] at hgt
    omega

section Random

variable {ρ : Type} [RandomSource ρ]

theorem beginAfter_cases (begin : Instant) (size : UInt64) (t : Trickle) (random : ρ) :
    (∃ point random',
      RandomSource.between (t.intervalAfter size / 2) (t.intervalAfter size) random =
        (some point, random') ∧
      t.beginAfter begin size random = (some (t.intervalAfter size, point),
        t.enter begin (t.intervalAfter size) point, random')) ∨
    ∃ random',
      RandomSource.between (t.intervalAfter size / 2) (t.intervalAfter size) random =
        (none, random') ∧
      t.beginAfter begin size random = (none, t, random') := by
  unfold beginAfter
  dsimp only
  split
  · rename_i hdraw
    exact .inl ⟨_, _, hdraw, rfl⟩
  · rename_i hdraw
    exact .inr ⟨_, hdraw, rfl⟩

theorem beginAfter_of_draw (begin : Instant) {size point : UInt64} {t : Trickle}
    {random random' : ρ}
    (hdraw : RandomSource.between (t.intervalAfter size / 2) (t.intervalAfter size) random =
      (some point, random')) :
    t.beginAfter begin size random = (some (t.intervalAfter size, point),
      t.enter begin (t.intervalAfter size) point, random') := by
  unfold beginAfter
  dsimp only
  rw [hdraw]

theorem reset_cases (now : Instant) (t : Trickle) (random : ρ) :
    (∃ random', t.reset now random = (.ok none, t, random') ∨
      t.reset now random = (.error .randomFailure, t, random')) ∨
    (∃ point random', (t.config.enabled = true ∧ t.interval ≠ t.config.minInterval) ∧
      t.isRunning = true ∧
      RandomSource.between (t.intervalAfter (t.config.minInterval / 2) / 2)
        (t.intervalAfter (t.config.minInterval / 2)) random = (some point, random') ∧
      t.reset now random = (.ok (some (.reset point)),
        t.enter now (t.intervalAfter (t.config.minInterval / 2)) point, random')) := by
  unfold reset
  split
  · exact .inl ⟨_, .inl rfl⟩
  · rename_i hguard
    simp only [Bool.or_eq_true, Bool.not_eq_true', beq_iff_eq, not_or, Bool.not_eq_false]
      at hguard
    obtain ⟨⟨henabled, hrunning⟩, hinterval⟩ := hguard
    rcases t.beginAfter_cases now (t.config.minInterval / 2) random with
      ⟨point, random', hdraw, hbegin⟩ | ⟨random', -, hbegin⟩
    · rw [hbegin]
      exact .inr ⟨point, random', ⟨henabled, hinterval⟩, hrunning, hdraw, rfl⟩
    · rw [hbegin]
      exact .inl ⟨_, .inr rfl⟩

theorem reset_of_draw (now : Instant) {t : Trickle} {random random' : ρ} {point : UInt64}
    (henabled : t.config.enabled = true) (hrunning : t.isRunning = true)
    (hinterval : t.interval ≠ t.config.minInterval)
    (hdraw : RandomSource.between (t.intervalAfter (t.config.minInterval / 2) / 2)
      (t.intervalAfter (t.config.minInterval / 2)) random = (some point, random')) :
    t.reset now random = (.ok (some (.reset point)),
      t.enter now (t.intervalAfter (t.config.minInterval / 2)) point, random') := by
  simp only [reset, henabled, hrunning, beq_false_of_ne hinterval, beginAfter, hdraw]
  rfl

end Random

/-- What a call may do to the size of the interval, with what it then answers. -/
inductive IntervalEffect (t : Trickle) : Answer → Trickle → Prop
  | kept {answer t'} (hconfig : t'.config = t.config) (hinterval : t'.interval = t.interval)
      (hanswer : ∀ point, answer ≠ .event (.ok (some (.reset point)))) :
      IntervalEffect t answer t'
  | drawn {result t'} (hconfig : t'.config = t.config)
      (hlow : t.config.minInterval ≤ t'.interval)
      (hhigh : t'.interval ≤ t.config.maxInterval) :
      IntervalEffect t (.events result) t'
  | doubled {result t'} (hconfig : t'.config = t.config)
      (hinterval : t'.interval = t.intervalAfter t.interval) :
      IntervalEffect t (.events result) t'
  | reset {point t'} (hconfig : t'.config = t.config)
      (hguard : t.config.enabled = true ∧ t.interval ≠ t.config.minInterval)
      (hinterval : t'.interval = t.intervalAfter (t.config.minInterval / 2)) :
      IntervalEffect t (.event (.ok (some (.reset point)))) t'

section Random

variable {ρ : Type} [RandomSource ρ]

theorem reset_effect (now : Instant) (t : Trickle) (random : ρ) :
    IntervalEffect t (.event (t.reset now random).1) (t.reset now random).2.1 := by
  rcases t.reset_cases now random with
    ⟨random', hreset | hreset⟩ | ⟨point, random', hguard, -, -, hreset⟩
  · rw [hreset]
    exact .kept rfl rfl fun _ h => by cases h
  · rw [hreset]
    exact .kept rfl rfl fun _ h => by cases h
  · rw [hreset]
    exact .reset rfl hguard rfl

theorem openWindow_frame (now : Instant) (t : Trickle) :
    ∃ windowStart windowResets, t.openWindow now = { t with windowStart, windowResets } := by
  unfold openWindow
  split
  · exact ⟨_, _, rfl⟩
  · exact ⟨_, _, rfl⟩

/-- Either no interval begins and at most the newcomers and the window are counted, or the engine
is reset. -/
theorem newNeighbor_cases (now : Instant) (permanentNeighbors : Nat) (t : Trickle) (random : ρ) :
    (∃ result newcomers windowStart windowResets random',
      (result = .ok none ∨ result = .ok (some .resetRateLimited) ∨
        result = .error .randomFailure) ∧
      t.newNeighbor now permanentNeighbors random =
        (result, { t with newcomers, windowStart, windowResets }, random')) ∨
    (∃ point windowStart windowResets random',
      (t.config.enabled = true ∧ t.interval ≠ t.config.minInterval) ∧ t.isRunning = true ∧
      RandomSource.between (t.intervalAfter (t.config.minInterval / 2) / 2)
        (t.intervalAfter (t.config.minInterval / 2)) random = (some point, random') ∧
      t.newNeighbor now permanentNeighbors random = (.ok (some (.reset point)),
        { t.enter now (t.intervalAfter (t.config.minInterval / 2)) point with
          windowStart, windowResets }, random')) := by
  unfold newNeighbor
  dsimp only
  split
  · exact .inl ⟨_, _, _, _, _, .inl rfl, rfl⟩
  · split
    · exact .inl ⟨_, _, _, _, _, .inl rfl, rfl⟩
    · obtain ⟨windowStart, windowResets, hwindow⟩ :=
        openWindow_frame now { t with newcomers := Saturating.succ16 t.newcomers }
      rw [hwindow]
      split
      · exact .inl ⟨_, _, _, _, _, .inr (.inl rfl), rfl⟩
      · -- the engine that is reset differs from `t` in its counters only
        rcases reset_cases now { t with
            newcomers := Saturating.succ16 t.newcomers, windowStart, windowResets } random with
          ⟨random', hreset | hreset⟩ | ⟨point, random', hguard, hrunning, hdraw, hreset⟩
        · rw [hreset]
          exact .inl ⟨_, _, _, _, _, .inl rfl, rfl⟩
        · rw [hreset]
          exact .inl ⟨_, _, _, _, _, .inr (.inr rfl), rfl⟩
        · rw [hreset]
          exact .inr ⟨point, _, _, random', hguard, hrunning, hdraw, rfl⟩

theorem newNeighbor_effect (now : Instant) (permanentNeighbors : Nat) (t : Trickle) (random : ρ) :
    IntervalEffect t (.event (t.newNeighbor now permanentNeighbors random).1)
      (t.newNeighbor now permanentNeighbors random).2.1 := by
  rcases t.newNeighbor_cases now permanentNeighbors random with
    ⟨result, newcomers, windowStart, windowResets, random', hresult, hnew⟩ |
      ⟨point, windowStart, windowResets, random', hguard, -, -, hnew⟩
  · rw [hnew]
    refine .kept rfl rfl fun point h => ?_
    rcases hresult with rfl | rfl | rfl <;> cases h
  · rw [hnew]
    exact .reset rfl hguard rfl

end Random

theorem hear_frame (sender : Permanent) (t : Trickle) :
    ∃ counted sender' counter, t.hear sender = (counted, sender', { t with counter }) := by
  unfold hear
  split
  · exact ⟨_, _, _, rfl⟩
  · exact ⟨_, _, _, rfl⟩

theorem hearFrom_effect {width size : Nat} (peer : Address width) (t : Trickle)
    (neighbors : NeighborTable width size) :
    IntervalEffect t (.heard (t.hearFrom peer neighbors).1) (t.hearFrom peer neighbors).2.1 := by
  unfold hearFrom
  split
  · exact .kept rfl rfl fun _ h => by cases h
  · rename_i sender _
    obtain ⟨counted, sender', counter, hhear⟩ := t.hear_frame sender
    rw [hhear]
    exact .kept rfl rfl fun _ h => by cases h

section Link

variable {width size : Nat} {ρ ℓ π : Type} [LinkLayer ℓ width]

theorem passTransmission_frame (now : Instant) (t : Trickle) (net : Network width size ℓ π) :
    ∃ event ackTimer net', t.passTransmission now net =
      (event,
        { t with
          ackTimer
          intervalTimer := ⟨now, Saturating.sub t.interval t.transmissionPoint, true⟩
          phase := .intervalEnd },
        net') :=
  ⟨_, _, _, rfl⟩

theorem pollAcks_frame (now : Instant) (t : Trickle) (net : Network width size ℓ π) :
    ∃ events ackTimer net', t.pollAcks now net = (events, { t with ackTimer }, net') := by
  unfold pollAcks
  split
  · exact ⟨_, _, _, rfl⟩
  · exact ⟨_, _, _, rfl⟩

variable [RandomSource ρ]

theorem start_effect (now : Instant) (t : Trickle) (random : ρ) (net : Network width size ℓ π) :
    IntervalEffect t (.events (t.start now random net).1) (t.start now random net).2.1 := by
  unfold start
  split
  · exact .kept rfl rfl fun _ h => by cases h
  · split
    · exact .kept rfl rfl fun _ h => by cases h
    · rename_i interval random' hdraw
      have hbounds := RandomSource.between_bounds t.config.minInterval_le_maxInterval
        (congrArg Prod.fst hdraw)
      exact .drawn rfl hbounds.1 hbounds.2

theorem start_of_draw (now : Instant) {t : Trickle} {random random' : ρ} {interval : UInt64}
    (henabled : t.config.enabled = true)
    (hdraw : RandomSource.between t.config.minInterval t.config.maxInterval random =
      (some interval, random')) (net : Network width size ℓ π) :
    ∃ events ackTimer net', t.start now random net =
      (.ok events,
        { t with
          interval
          transmissionPoint := 0
          ackTimer
          intervalTimer := ⟨now, Saturating.sub interval 0, true⟩
          phase := .intervalEnd },
        random', net') := by
  obtain ⟨event, ackTimer, net', hpass⟩ := passTransmission_frame now
    { t with interval, transmissionPoint := 0 }
    { net with link := LinkLayer.changeChallenge net.link }
  refine ⟨[.started interval, event], ackTimer, net', ?_⟩
  simp only [start, henabled, hdraw, hpass]
  rfl

theorem passDeadline_effect (deadline : Instant) (t : Trickle) (random : ρ)
    (net : Network width size ℓ π) :
    (t.passDeadline deadline random net).2.1.config = t.config ∧
      ((t.passDeadline deadline random net).2.1.interval = t.interval ∨
        (t.passDeadline deadline random net).2.1.interval = t.intervalAfter t.interval) := by
  unfold passDeadline
  split
  · exact ⟨rfl, .inl rfl⟩
  · rcases t.beginAfter_cases deadline t.interval random with
      ⟨point, random', -, hbegin⟩ | ⟨random', -, hbegin⟩
    · rw [hbegin]
      exact ⟨rfl, .inr rfl⟩
    · rw [hbegin]
      exact ⟨rfl, .inr rfl⟩

theorem poll_effect (now : Instant) (t : Trickle) (random : ρ) (net : Network width size ℓ π) :
    IntervalEffect t (.events (t.poll now random net).1) (t.poll now random net).2.1 := by
  unfold poll
  split
  · exact .kept rfl rfl fun _ h => by cases h
  · obtain ⟨events, ackTimer, net', hacks⟩ := t.pollAcks_frame now net
    rw [hacks]
    dsimp only
    split
    · exact .kept rfl rfl fun _ h => by cases h
    · rename_i intervalTimer _
      have hpass := passDeadline_effect (t.intervalTimer.deadline.getD now)
        { t with ackTimer, intervalTimer } random net'
      revert hpass
      generalize passDeadline _ _ random net' = outcome
      obtain ⟨result, t', random', net''⟩ := outcome
      rintro ⟨hconfig, hsame | hdoubled⟩
      · cases result <;> exact .kept hconfig hsame fun _ h => by cases h
      · cases result <;> exact .doubled hconfig hdoubled

theorem passDeadline_of_draw (deadline : Instant) {t : Trickle} {random random' : ρ}
    {point : UInt64} (hphase : t.phase = .intervalEnd)
    (hdraw : RandomSource.between (t.intervalAfter t.interval / 2)
      (t.intervalAfter t.interval) random = (some point, random'))
    (net : Network width size ℓ π) :
    t.passDeadline deadline random net =
      (.ok (.intervalStarted (t.intervalAfter t.interval) point),
        t.enter deadline (t.intervalAfter t.interval) point, random', net) := by
  unfold passDeadline
  rw [hphase]
  dsimp only
  rw [beginAfter_of_draw deadline hdraw]

/-- After the timer for answers, a poll handles the interval timer of the engine `t₁` then. -/
theorem poll_of_enabled {now : Instant} {t t₁ : Trickle} {net net₁ : Network width size ℓ π}
    {events : List TrickleEvent} (henabled : t.config.enabled = true)
    (hacks : t.pollAcks now net = (events, t₁, net₁)) (random : ρ) :
    t.poll now random net =
      match t₁.intervalTimer.due now with
      | false => (.ok events, t₁, random, net₁)
      | true =>
        ((passDeadline (t₁.intervalTimer.deadline.getD now)
            { t₁ with intervalTimer := t₁.intervalTimer.stop } random net₁).1.map
          fun event => events ++ [event],
        (passDeadline (t₁.intervalTimer.deadline.getD now)
          { t₁ with intervalTimer := t₁.intervalTimer.stop } random net₁).2) := by
  unfold poll Timer.poll
  simp only [henabled, hacks]
  cases t₁.intervalTimer.due now with
  | false => rfl
  | true =>
    simp only [Bool.not_true, Bool.false_eq_true, if_false, if_true]
    split
    · rename_i hpass
      rw [hpass]
      rfl
    · rename_i hpass
      rw [hpass]
      rfl

theorem poll_of_draw {now : Instant} {t t₁ : Trickle} {random random' : ρ} {point : UInt64}
    {net net₁ : Network width size ℓ π} {events : List TrickleEvent}
    (henabled : t.config.enabled = true) (hacks : t.pollAcks now net = (events, t₁, net₁))
    (hphase : t₁.phase = .intervalEnd) (hdue : t₁.intervalTimer.due now = true)
    (hdraw : RandomSource.between (t₁.intervalAfter t₁.interval / 2)
      (t₁.intervalAfter t₁.interval) random = (some point, random')) :
    t.poll now random net =
      (.ok (events ++ [.intervalStarted (t₁.intervalAfter t₁.interval) point]),
        t₁.enter (t₁.intervalTimer.deadline.getD now) (t₁.intervalAfter t₁.interval) point,
        random', net₁) := by
  have hpass := passDeadline_of_draw (t₁.intervalTimer.deadline.getD now)
    (t := { t₁ with intervalTimer := t₁.intervalTimer.stop }) hphase hdraw net₁
  rw [poll_of_enabled henabled hacks, hdue]
  simp only [hpass]
  rfl

/-- Polled when an interval is over, the engine begins the next one and runs on. -/
theorem poll_of_intervalEnd {now : Instant} {t : Trickle} {random random' : ρ} {point : UInt64}
    (henabled : t.config.enabled = true) (hphase : t.phase = .intervalEnd)
    (hdue : t.intervalTimer.due now = true)
    (hdraw : RandomSource.between (t.intervalAfter t.interval / 2)
      (t.intervalAfter t.interval) random = (some point, random'))
    (net : Network width size ℓ π) :
    ∃ events t' net', t.poll now random net = (.ok events, t', random', net') ∧
      t'.config = t.config ∧ t'.interval = t.intervalAfter t.interval ∧ t'.isRunning = true := by
  obtain ⟨events, ackTimer, net', hacks⟩ := t.pollAcks_frame now net
  exact ⟨_, _, _, poll_of_draw henabled hacks hphase hdue hdraw, rfl, rfl, rfl⟩

end Link

/-- A call keeps the configuration, and keeps, draws, doubles or resets the interval. -/
theorem Scene.perform_effect {width size : Nat} {ρ ℓ π : Type} [RandomSource ρ]
    [LinkLayer ℓ width] (s : Scene width size ρ ℓ π) (op : Operation width) :
    IntervalEffect s.trickle (s.perform op).1 (s.perform op).2.trickle := by
  cases op with
  | start now => exact s.trickle.start_effect now s.random s.net
  | stop => exact .kept rfl rfl fun _ h => by cases h
  | poll now => exact s.trickle.poll_effect now s.random s.net
  | reset now => exact s.trickle.reset_effect now s.random
  | newNeighbor now permanentNeighbors =>
    exact s.trickle.newNeighbor_effect now permanentNeighbors s.random
  | hearFrom peer => exact s.trickle.hearFrom_effect peer s.net.neighbors

end Trickle

end MeshSecurity
