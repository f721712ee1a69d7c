import MeshSecurity.Proofs.TrickleSteps
import MeshSecurity.Random.Generator
import MeshSecurity.Simulation.Radio

/-!
# The bounds of the interval

A reset takes half of the smallest interval and doubles it, so where the smallest interval is odd
a reset leaves it one tick shorter. That is the only way below the smallest interval: the engine
always stays within twice that half and the largest interval, and it stays within the smallest and
the largest one unless it can be reset and the smallest one is odd.
-/

namespace MeshSecurity.Trickle

open Scene

/-- In every run of the engine, whatever its random source and its link layer do, the interval
lies between `floor` and the largest one, and a reset leaves it at `floor`. -/
def KeepsBounds (c : TrickleConfig) (floor : UInt64) : Prop :=
  ∀ (width size : Nat) (ρ ℓ π : Type) [RandomSource ρ] [LinkLayer ℓ width] (random : ρ)
    (net : Network width size ℓ π) (ops : List (Operation width)) (op : Operation width),
    let s := (run ops ⟨stopped c, random, net⟩).2
    (floor ≤ s.trickle.interval ∧ s.trickle.interval ≤ c.maxInterval) ∧
      ∀ point, (s.perform op).1 = .event (.ok (some (.reset point))) →
        (s.perform op).2.trickle.interval = floor

/-- Twice the half of the smallest interval. -/
def resetInterval (c : TrickleConfig) : UInt64 := 2 * (c.minInterval / 2)

theorem toNat_resetInterval (c : TrickleConfig) :
    (resetInterval c).toNat = 2 * (c.minInterval.toNat / 2) := by
  have hword := c.minInterval.toNat_lt
  rw [resetInterval, UInt64.toNat_mul, UInt64.toNat_div]
  exact Nat.mod_eq_of_lt (by change 2 * (c.minInterval.toNat / 2) < 2 ^ 64; omega)

theorem intervalAfter_half (t : Trickle) :
    t.intervalAfter (t.config.minInterval / 2) = resetInterval t.config := by
  have hle := UInt64.le_iff_toNat_le.mp t.config.minInterval_le_maxInterval
  apply UInt64.toNat_inj.mp
  rw [toNat_intervalAfter, toNat_resetInterval, UInt64.toNat_div]
  change min (2 * (t.config.minInterval.toNat / 2)) _ = _
  omega

/-- A floor that the calls of the engine respect. Above what a reset leaves it has to be the
largest interval, so that there is nothing to reset. -/
structure IsFloor (c : TrickleConfig) (floor : UInt64) : Prop where
  le_minInterval : floor ≤ c.minInterval
  reset : c.enabled = true → floor = resetInterval c ∨ floor = c.maxInterval

structure WithinBounds (c : TrickleConfig) (floor : UInt64) (t : Trickle) : Prop where
  config : t.config = c
  floor_le : floor ≤ t.interval
  le_max : t.interval ≤ c.maxInterval

theorem withinBounds_stopped {c : TrickleConfig} {floor : UInt64} (h : IsFloor c floor) :
    WithinBounds c floor (stopped c) :=
  ⟨rfl, h.le_minInterval, c.minInterval_le_maxInterval⟩

theorem WithinBounds.step {c : TrickleConfig} {floor : UInt64} {t t' : Trickle} {answer : Answer}
    (h : WithinBounds c floor t) (hfloor : IsFloor c floor)
    (heffect : IntervalEffect t answer t') :
    WithinBounds c floor t' ∧
      ∀ point, answer = .event (.ok (some (.reset point))) → t'.interval = floor := by
  obtain ⟨rfl, hlow, hhigh⟩ := h
  have hmin := hfloor.le_minInterval
  have hmax := t.config.minInterval_le_maxInterval
  cases heffect with
  | kept hconfig hinterval hanswer =>
    refine ⟨⟨hconfig, ?_, ?_⟩, fun point h => absurd h (hanswer point)⟩
    · rwa [hinterval]
    · rwa [hinterval]
  | drawn hconfig hdrawnLow hdrawnHigh =>
    exact ⟨⟨hconfig, UInt64.le_trans hmin hdrawnLow, hdrawnHigh⟩, fun _ h => by cases h⟩
  | doubled hconfig hinterval =>
    rw [UInt64.le_iff_toNat_le] at hlow hmin hmax
    have hsize := toNat_intervalAfter t.interval t
    rw [← hinterval] at hsize
    refine ⟨⟨hconfig, ?_, ?_⟩, fun _ h => by cases h⟩
    · rw [UInt64.le_iff_toNat_le]
      omega
    · rw [UInt64.le_iff_toNat_le]
      omega
  | reset hconfig hguard hinterval =>
    rcases hfloor.reset hguard.1 with hreset | hceiling
    · have hsame := hinterval.trans (intervalAfter_half t)
      rw [← hreset] at hsame
      refine ⟨⟨hconfig, ?_, ?_⟩, fun _ _ => hsame⟩
      · rw [hsame]
        exact UInt64.le_refl floor
      · rw [hsame]
        exact UInt64.le_trans hmin hmax
    · -- at its ceiling the interval is the smallest one, and then no reset takes place
      rw [hceiling] at hlow hmin
      have hinterval' : t.interval = t.config.maxInterval := UInt64.le_antisymm hhigh hlow
      exact absurd (hinterval'.trans (UInt64.le_antisymm hmin hmax)) hguard.2

theorem WithinBounds.run {width size : Nat} {ρ ℓ π : Type} [RandomSource ρ] [LinkLayer ℓ width]
    {c : TrickleConfig} {floor : UInt64} (hfloor : IsFloor c floor)
    (ops : List (Operation width)) {s : Scene width size ρ ℓ π}
    (h : WithinBounds c floor s.trickle) :
    WithinBounds c floor (run ops s).2.trickle := by
  induction ops generalizing s with
  | nil => exact h
  | cons op ops ih => exact ih (h.step hfloor (s.perform_effect op)).1

theorem keepsBounds_of_isFloor {c : TrickleConfig} {floor : UInt64} (hfloor : IsFloor c floor) :
    KeepsBounds c floor := by
  intro width size ρ ℓ π _ _ random net ops op
  have hrun := WithinBounds.run hfloor ops (s := ⟨stopped c, random, net⟩)
    (withinBounds_stopped hfloor)
  exact ⟨⟨hrun.floor_le, hrun.le_max⟩, (hrun.step hfloor (perform_effect _ op)).2⟩

theorem isFloor_resetInterval (c : TrickleConfig) : IsFloor c (resetInterval c) where
  le_minInterval := by
    rw [UInt64.le_iff_toNat_le, toNat_resetInterval]
    omega
  reset _ := .inl rfl

theorem isFloor_minInterval {c : TrickleConfig}
    (h : c.enabled = false ∨ c.minInterval.toNat % 2 = 0 ∨ c.maxInterval = c.minInterval) :
    IsFloor c c.minInterval where
  le_minInterval := UInt64.le_refl _
  reset henabled := by
    rcases h with hdisabled | heven | hsame
    · rw [henabled] at hdisabled
      cases hdisabled
    · refine .inl (UInt64.toNat_inj.mp ?_)
      rw [toNat_resetInterval]
      omega
    · exact .inr hsame.symm

/-- The engine with a random source that draws the lower end of each interval. -/
def lowest (c : TrickleConfig) : Scene 8 4 ConstantWord (Radio 8) Unit :=
  ⟨stopped c, ⟨0⟩, ⟨.empty, .instructed none [], ()⟩⟩

theorem between_lowest {low high : UInt64} :
    RandomSource.between low high (⟨0⟩ : ConstantWord) = (some low, ⟨0⟩) := by
  unfold RandomSource.between
  split
  · rfl
  · have hword : RandomSource.word (⟨0⟩ : ConstantWord) = (some 0, ⟨0⟩) := rfl
    rw [hword]
    simp [RandomSource.scale]

theorem intervalAfter_ne {t : Trickle} (hdouble : t.config.maxInterval ≠ t.config.minInterval)
    (hpositive : 0 < t.config.minInterval) :
    t.intervalAfter t.config.minInterval ≠ t.config.minInterval := by
  have hle := UInt64.le_iff_toNat_le.mp t.config.minInterval_le_maxInterval
  have hne : t.config.maxInterval.toNat ≠ t.config.minInterval.toNat :=
    fun heq => hdouble (UInt64.toNat_inj.mp heq)
  have hpos : 0 < t.config.minInterval.toNat := UInt64.lt_iff_toNat_lt.mp hpositive
  intro heq
  have hsize := congrArg UInt64.toNat heq
  rw [toNat_intervalAfter] at hsize
  omega

/-- Started, an enabled engine reaches its second interval when it is polled at the end of the
first one, which the random source makes the smallest. -/
theorem second_interval_lowest {c : TrickleConfig} (henabled : c.enabled = true) :
    ∃ t net, (run [.start .zero, .poll ⟨c.minInterval⟩] (lowest c)).2 = ⟨t, ⟨0⟩, net⟩ ∧
      t.config = c ∧ t.interval = (stopped c).intervalAfter c.minInterval ∧
      t.isRunning = true := by
  obtain ⟨started, ackTimer, net, hstart⟩ :=
    start_of_draw .zero (t := stopped c) henabled between_lowest (lowest c).net
  have hdue : Timer.due ⟨c.minInterval⟩ ⟨.zero, Saturating.sub c.minInterval 0, true⟩ = true := by
    change Instant.hasElapsed .zero ⟨c.minInterval⟩ (Saturating.sub c.minInterval 0) = true
    rw [Instant.hasElapsed_iff, Saturating.toNat_sub]
    exact Nat.le_refl _
  obtain ⟨polled, t, net', hpoll, hsecond⟩ := poll_of_intervalEnd
    (t := { stopped c with
      ackTimer
      intervalTimer := ⟨.zero, Saturating.sub c.minInterval 0, true⟩
      phase := .intervalEnd }) henabled rfl hdue between_lowest net
  have hfirst : ((lowest c).perform (.start .zero)).2 = ⟨_, ⟨0⟩, net⟩ :=
    congrArg (fun r => Scene.mk r.2.1 r.2.2.1 r.2.2.2) hstart
  refine ⟨t, net', ?_, hsecond⟩
  change (((lowest c).perform (.start .zero)).2.perform (.poll ⟨c.minInterval⟩)).2 = _
  rw [hfirst]
  exact congrArg (fun r => Scene.mk r.2.1 r.2.2.1 r.2.2.2) hpoll

theorem reset_lowest {c : TrickleConfig} (henabled : c.enabled = true)
    (hdouble : c.maxInterval ≠ c.minInterval) (hpositive : 0 < c.minInterval) :
    ∃ point, ((run [.start .zero, .poll ⟨c.minInterval⟩] (lowest c)).2.perform
        (.reset ⟨c.minInterval⟩)).1 = .event (.ok (some (.reset point))) ∧
      ((run [.start .zero, .poll ⟨c.minInterval⟩] (lowest c)).2.perform
        (.reset ⟨c.minInterval⟩)).2.trickle.interval = resetInterval c := by
  obtain ⟨t, net, hrun, hconfig, hinterval, hrunning⟩ := second_interval_lowest henabled
  have hlonger : t.interval ≠ t.config.minInterval := by
    rw [hinterval, hconfig]
    exact intervalAfter_ne (t := stopped c) hdouble hpositive
  have hreset := reset_of_draw ⟨c.minInterval⟩ (hconfig.symm ▸ henabled) hrunning hlonger
    between_lowest
  rw [hrun]
  simp only [perform, hreset]
  refine ⟨_, rfl, ?_⟩
  rw [← hconfig]
  exact intervalAfter_half t

/-- Twice the half of the smallest interval bounds the interval of every engine, and the smallest
interval does exactly if the engine is disabled, or the smallest interval is even, or it is the
largest one too. -/
theorem interval_bounds (c : TrickleConfig) :
    KeepsBounds c (resetInterval c) ∧
      (KeepsBounds c c.minInterval ↔
        c.enabled = false ∨ c.minInterval.toNat % 2 = 0 ∨ c.maxInterval = c.minInterval) := by
  refine ⟨keepsBounds_of_isFloor (isFloor_resetInterval c), fun hkeeps => ?_,
    fun h => keepsBounds_of_isFloor (isFloor_minInterval h)⟩
  cases henabled : c.enabled with
  | false => exact .inl rfl
  | true =>
    refine .inr (Decidable.byContradiction fun h => ?_)
    rw [not_or] at h
    have hpositive : 0 < c.minInterval := by
      rw [UInt64.lt_iff_toNat_lt]
      change 0 < c.minInterval.toNat
      omega
    obtain ⟨point, hanswer, hinterval⟩ := reset_lowest henabled h.2 hpositive
    have hsame := (hkeeps 8 4 ConstantWord (Radio 8) Unit ⟨0⟩ (lowest c).net
      [.start .zero, .poll ⟨c.minInterval⟩] (.reset ⟨c.minInterval⟩)).2 point hanswer
    have hsize := congrArg UInt64.toNat (hinterval.symm.trans hsame)
    rw [toNat_resetInterval] at hsize
    omega

def threeTicks : TrickleConfig where
  enabled := true
  minInterval := 3
  doublings := 4
  redundancy := 2
  resetWindow := 0
  resetsPerWindow := 0
  ackWait := 0

/-- A reset leaves this engine at two ticks. -/
theorem interval_below_threeTicks :
    ((run [.start .zero, .poll ⟨3⟩] (lowest threeTicks)).2.perform (.reset ⟨4⟩)).1 =
      .event (.ok (some (.reset 1))) ∧
    ((run [.start .zero, .poll ⟨3⟩] (lowest threeTicks)).2.perform
      (.reset ⟨4⟩)).2.trickle.interval < threeTicks.minInterval :=
  ⟨rfl, by decide⟩

end MeshSecurity.Trickle
