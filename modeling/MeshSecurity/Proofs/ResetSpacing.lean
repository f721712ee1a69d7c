import MeshSecurity.Proofs.IntervalSchedule
import MeshSecurity.Proofs.RevocationReports
import MeshSecurity.Revocation.Run

/-!
# How far apart resets are

A reset begins an interval of the smallest size, and in an interval of that size there is nothing to
reset. So until the interval is over its transmission point stays where it is, however many new
neighbors come and however many others are revoked.
-/

namespace MeshSecurity

variable {width capacity size : Nat} {τ ρ ℓ π : Type}

theorem TrickleConfig.toNat_minInterval_forRate (r : TickRate) :
    (forRate r).minInterval.toNat = 30 * r.hertz.toNat := by
  have hword := r.hertz.toNat_lt
  change (minIntervalSeconds.toUInt64 * r.hertz.toUInt64).toNat = _
  rw [UInt64.toNat_mul, UInt32.toNat_toUInt64, UInt32.toNat_toUInt64]
  exact Nat.mod_eq_of_lt (by change 30 * r.hertz.toNat < 2 ^ 64; omega)

/-- The smallest interval of the defaults is even, and not empty where the time passes. -/
theorem TrickleConfig.minInterval_forRate {r : TickRate} (hpasses : 0 < r.hertz) :
    2 ≤ (forRate r).minInterval ∧ (forRate r).minInterval.toNat % 2 = 0 := by
  have hsize := toNat_minInterval_forRate r
  have hhertz : 0 < r.hertz.toNat := UInt32.lt_iff_toNat_lt.mp hpasses
  refine ⟨UInt64.le_iff_toNat_le.mpr ?_, by omega⟩
  change 2 ≤ (forRate r).minInterval.toNat
  omega

namespace Trickle

section Cannot

variable [RandomSource ρ] {t : Trickle}

theorem reset_of_cannot (hcannot : ¬ t.CanReset) (now : Instant) (random : ρ) :
    t.reset now random = (.ok none, t, random) := if_pos (guard_of_cannot hcannot)

theorem newNeighbor_of_cannot (hcannot : ¬ t.CanReset) (now : Instant) (permanentNeighbors : Nat)
    (random : ρ) : ∃ newcomers,
      t.newNeighbor now permanentNeighbors random = (.ok none, { t with newcomers }, random) := by
  cases henabled : t.config.enabled with
  | false => exact ⟨t.newcomers, by simp only [newNeighbor, henabled]; rfl⟩
  | true =>
    have hguard := guard_of_cannot hcannot
    rw [henabled, Bool.not_true, Bool.false_or] at hguard
    refine ⟨Saturating.succ16 t.newcomers, ?_⟩
    unfold newNeighbor
    rw [henabled, Bool.not_true, if_neg Bool.false_ne_true]
    exact if_pos (by rw [Bool.or_assoc]; exact Bool.or_eq_true_iff.mpr (.inr hguard))

end Cannot

theorem Alike.position {t t' : Trickle} (h : Alike t t') : t'.position = t.position := by
  rw [Trickle.position, Trickle.position, h.interval, h.transmissionPoint, h.phase,
    h.intervalTimer]

/-- A poll tells when it has let the end of an interval pass. -/
theorem Polled.expired_iff {now : Instant} {t t' : Trickle}
    {result : Except Error (List TrickleEvent)} {calls : List LinkCall}
    (h : Polled now t result calls t') :
    (.expired : Sign width) ∈ signs (.poll now) (.events result) ↔
      t.phase = .intervalEnd ∧ t.intervalTimer.due now = true := by
  obtain @⟨events, _, t₁, _, _, _, hacks, hinterval⟩ := h
  have hnone : events.filterMap eventSign? = ([] : List (Sign width)) := by
    cases hacks <;> rfl
  obtain ⟨ackTimer, rfl⟩ := hacks.frame
  have hsigns (event : TrickleEvent) : (.expired : Sign width) ∈
      signs (.poll now) (.events (.ok (events ++ [event]))) ↔
        .expired ∈ ((eventSign? event).toList : List (Sign width)) := by
    rw [← signs_poll now event hnone, List.mem_reverse]
  cases hinterval with
  | early hearly =>
    have hearly' : t.intervalTimer.due now = false := hearly
    rw [hearly', Except.map, List.append_nil, signs, hnone]
    exact iff_of_false List.not_mem_nil fun hdue => Bool.false_ne_true hdue.2
  | fired hdue hpass =>
    cases hpass with
    | ended hphase hresult =>
      refine iff_of_true ?_ ⟨hphase, hdue⟩
      rcases hresult with rfl | rfl
      · exact (hsigns _).mpr List.mem_cons_self
      · exact List.mem_singleton_self _
    | transmission hphase hpass =>
      have hphase' : t.phase = .transmission := hphase
      refine iff_of_false (fun hmem => ?_) (by simp [hphase'])
      have hthere := (hsigns _).mp hmem
      cases hpass with
      | suppressed => exact List.not_mem_nil hthere
      | awaiting => exact List.not_mem_nil hthere
      | refused => exact List.not_mem_nil hthere
      | sent => cases List.mem_singleton.mp hthere

/-- Whether a call lets the end of an interval pass. -/
def EndsInterval (op : Operation width) (answer : Answer) : Prop := .expired ∈ signs op answer

instance (op : Operation width) (answer : Answer) : Decidable (EndsInterval op answer) :=
  inferInstanceAs (Decidable (_ ∈ _))

/-- An engine that is stopped, or in the smallest interval, which began at `begin` and has its
transmission point at `point`. -/
structure Underway (c : TrickleConfig) (begin point : Nat) [RandomSource ρ]
    (s : Scene width size ρ ℓ π) : Prop where
  config : s.trickle.config = c
  lap : s.trickle.isRunning = true → ∃ l : Lap, (l.begin = begin ∧ l.point = point) ∧
    l.size = c.minInterval.toNat ∧ OnSchedule c l s

namespace Underway

variable [RandomSource ρ] {c : TrickleConfig} {begin point : Nat} {s s' : Scene width size ρ ℓ π}

theorem interval_eq (h : Underway c begin point s) (hrunning : s.trickle.isRunning = true) :
    s.trickle.interval = c.minInterval ∧ s.trickle.transmissionPoint.toNat = point := by
  obtain ⟨l, ⟨-, rfl⟩, hsize, hl⟩ := h.lap hrunning
  exact ⟨UInt64.toNat_inj.mp (hl.size.trans hsize), hl.point⟩

theorem not_canReset (h : Underway c begin point s) : ¬ s.trickle.CanReset := by
  rintro ⟨-, hrunning, hinterval⟩
  rw [h.config] at hinterval
  exact hinterval (h.interval_eq hrunning).1

theorem of_alike (h : Underway c begin point s) (halike : Alike s.trickle s'.trickle) :
    Underway c begin point s' where
  config := halike.config.trans h.config
  lap hrunning := by
    rw [isRunning, halike.intervalTimer] at hrunning
    obtain ⟨l, hplace, hsize, hl⟩ := h.lap hrunning
    exact ⟨{ l with words := RandomSource.words s'.random }, hplace, hsize, hl.relaid s' halike⟩

/-- Until the interval is over, its timer runs out at the transmission point and then at the end of
the interval. -/
theorem due_iff (h : Underway c begin point s) (hrunning : s.trickle.isRunning = true)
    (now : Instant) : s.trickle.intervalTimer.due now = true ↔
      begin + (if s.trickle.phase = .transmission then point else c.minInterval.toNat) ≤
        now.ticks.toNat := by
  obtain ⟨l, ⟨rfl, rfl⟩, hsize, hl⟩ := h.lap hrunning
  rw [hl.due_iff, hl.phase, ← hsize]
  cases hphase : l.phase with
  | transmission => rw [Lap.due_of_transmission hphase, if_pos rfl]
  | intervalEnd => rw [Lap.due_of_intervalEnd hphase, if_neg (by simp)]

variable [LinkLayer ℓ width]

/-- A poll leaves the engine in its interval, or it comes at the end of it or later. -/
theorem poll (h : Underway c begin point s) (henabled : c.enabled = true)
    (hmin : 2 ≤ c.minInterval) (now : Instant) :
    (¬ EndsInterval (.poll now : Operation width) (s.perform (.poll now)).1 →
      Underway c begin point (s.perform (.poll now)).2) ∧
    (EndsInterval (.poll now : Operation width) (s.perform (.poll now)).1 →
      begin + c.minInterval.toNat ≤ now.ticks.toNat) := by
  have henabled' : s.trickle.config.enabled = true := by rw [h.config, henabled]
  have hlongest : 2 ≤ c.maxInterval.toNat := UInt64.le_iff_toNat_le.mp
    (UInt64.le_trans hmin c.minInterval_le_maxInterval)
  obtain ⟨result, hanswer, hpolled⟩ := Scene.perform_polled henabled' now
  rw [hanswer, EndsInterval, hpolled.expired_iff]
  refine ⟨fun hgoes => ⟨(s.perform_clockEffect (.poll now)).1.config.trans h.config,
    fun hrunning => ?_⟩, fun ⟨hphase, hdue⟩ => ?_⟩
  · have hrunning' := hpolled.running_iff.mp hrunning
    obtain ⟨l, hplace, hsize, hl⟩ := h.lap hrunning'
    by_cases hdue : l.due ≤ now.ticks.toNat
    · have hnext := hl.poll_of_due henabled hlongest hdue
      have hphase : l.phase = .transmission := by
        cases hphase : l.phase with
        | transmission => rfl
        | intervalEnd => exact absurd ⟨hl.phase.trans hphase, (hl.due_iff now).mpr hdue⟩ hgoes
      rw [Lap.next_of_transmission _ hphase] at hnext
      exact ⟨{ l with phase := .intervalEnd }, hplace, hsize, hnext⟩
    · exact ⟨l, hplace, hsize, hl.poll_of_early henabled (Nat.not_le.mp hdue)⟩
  · have hend := (h.due_iff (Timer.due_iff.mp hdue).1 now).mp hdue
    rwa [hphase, if_neg (by simp)] at hend

end Underway

end Trickle

namespace RevocationState

open Trickle (Alike Begun EndsInterval ResetOutcome Underway)

section Revoke

variable [RandomSource ρ]

/-- What a revocation may do to dissemination, with what it reports: nothing, or a reset that it
reports. -/
inductive TrickleEffect (now : Instant) (t : Trickle) :
    Except Error RevocationReport → Trickle → ρ → Prop
  | kept {result random} (hnone : ∀ report, result = .ok report → report.trickleReset = false) :
      TrickleEffect now t result t random
  | reset {report random t' random'}
      (houtcome : ResetOutcome now t random report.trickleReset t' random') :
      TrickleEffect now t (.ok report) t' random'

theorem TrickleEffect.of_cannot {now : Instant} {t t' : Trickle}
    {result : Except Error RevocationReport} {random : ρ}
    (h : TrickleEffect now t result t' random) (hcannot : ¬ t.CanReset) :
    (∀ report, result = .ok report → report.trickleReset = false) ∧ t = t' := by
  cases h with
  | kept hnone => exact ⟨hnone, rfl⟩
  | @reset report _ _ _ houtcome =>
    generalize hflag : report.trickleReset = flag at houtcome
    cases houtcome with
    | begun hcan => exact absurd hcan hcannot
    | undrawn hcan => exact absurd hcan hcannot
    | idle => exact ⟨fun _ hreport => by cases hreport; exact hflag, rfl⟩

theorem TrickleEffect.config {now : Instant} {t t' : Trickle}
    {result : Except Error RevocationReport} {random : ρ}
    (h : TrickleEffect now t result t' random) : t'.config = t.config := by
  cases h with
  | kept => rfl
  | @reset report _ _ _ houtcome =>
    generalize report.trickleReset = flag at houtcome
    cases houtcome <;> rfl

theorem TrickleEffect.begun {now : Instant} {t t' : Trickle} {report : RevocationReport}
    {random' : ρ} (h : TrickleEffect now t (.ok report) t' random')
    (hreset : report.trickleReset = true) :
    ∃ random, Begun t.config now random (.reset now : Trickle.Operation width) t' random' := by
  cases h with
  | kept hnone =>
    rw [hnone report rfl] at hreset
    cases hreset
  | reset houtcome =>
    rw [hreset] at houtcome
    cases houtcome with
    | begun hcan hdraw => exact ⟨_, .reset nofun hdraw rfl rfl rfl rfl⟩

variable [LinkLayer ℓ width] [Routing π width]

theorem expel_trickleEffect (c : RevocationConfig) (now : Instant) (entry : Neighbor width)
    (relation : Relation) (report : RevocationReport) (s : RevocationState width capacity τ ρ)
    (net : Network width size ℓ π) :
    TrickleEffect now s.trickle (s.expel c now entry relation report net).1
      (s.expel c now entry relation report net).2.1.trickle
      (s.expel c now entry relation report net).2.1.random := by
  obtain ⟨journal, neighbors, hdrop, -⟩ := s.dropNeighbor_frame now entry relation net
  obtain ⟨removal, journal₁, routing, hparent⟩ := dropParent_frame now entry.address
    { s with journal } { net with neighbors }
  obtain ⟨result, groupKeys, random, journal₂, link, hrenew⟩ := renewGroupKey_frame c now
    { s with journal := journal₁ } { net with neighbors, routing }
  unfold expel
  rw [hdrop]
  dsimp only
  rw [hparent]
  dsimp only
  rw [hrenew]
  cases result with
  | error e => exact .kept nofun
  | ok sent =>
    obtain ⟨effective, trickle, random₁, journal₃, hreset, houtcome⟩ := resetTrickle_outcome now
      { s with groupKeys, random, journal := journal₂ }
    dsimp only
    rw [hreset]
    exact .reset houtcome

theorem removePeer_trickleEffect (c : RevocationConfig) (now : Instant) (peer : Address width)
    {report : RevocationReport} (hnone : report.trickleReset = false)
    (s : RevocationState width capacity τ ρ) (net : Network width size ℓ π) :
    TrickleEffect now s.trickle (s.removePeer c now peer report net).1
      (s.removePeer c now peer report net).2.1.trickle
      (s.removePeer c now peer report net).2.1.random := by
  unfold removePeer
  split
  · exact .kept fun _ hreport => by cases hreport; exact hnone
  · split
    · exact .kept nofun
    · exact expel_trickleEffect c now _ _ report s net

theorem revoke_trickleEffect [RecordStore τ] (c : RevocationConfig) (now : Instant)
    (peer : Address width) (listing : Bool) (s : RevocationState width capacity τ ρ)
    (net : Network width size ℓ π) :
    TrickleEffect now s.trickle (s.revoke c now peer listing net).1
      (s.revoke c now peer listing net).2.1.trickle
      (s.revoke c now peer listing net).2.1.random := by
  unfold revoke
  cases listing with
  | false => exact removePeer_trickleEffect c now peer rfl s net
  | true =>
    have henlisted {report : RevocationReport} {s₁ : RevocationState width capacity τ ρ}
        (hnone : report.trickleReset = false) (hkept : s₁.trickle = s.trickle) :
        TrickleEffect now s.trickle (s₁.removePeer c now peer report net).1
          (s₁.removePeer c now peer report net).2.1.trickle
          (s₁.removePeer c now peer report net).2.1.random :=
      hkept ▸ removePeer_trickleEffect c now peer hnone s₁ net
    rcases s.enlist_cases now peer .blank with
      ⟨n, list, -, henlist⟩ | ⟨list, -, henlist⟩ | ⟨list, -, henlist⟩
    · rw [if_pos rfl, henlist]
      exact henlisted (by rfl) (by rfl)
    · rw [if_pos rfl, henlist]
      exact henlisted (by rfl) (by rfl)
    · rw [if_pos rfl, henlist]
      exact .kept nofun

end Revoke

/-- The time of a reset that had an effect. -/
def effectiveReset? : Operation width capacity size τ ρ ℓ π → Answer → Option Instant
  | .trickle op, .trickle (.event (.ok (some (.reset _)))) => op.time?
  | .revoke _ now _ _, .report (.ok report) => if report.trickleReset then some now else none
  | _, _ => none

/-- The time of a poll that let the end of an interval pass. -/
def ending? : Operation width capacity size τ ρ ℓ π → Answer → Option Instant
  | .trickle (.poll now), .trickle answer =>
    if EndsInterval (.poll now : Trickle.Operation width) answer then some now else none
  | _, _ => none

/-- Whether dissemination may be reset by a call. -/
def Operation.asksReset : Operation width capacity size τ ρ ℓ π → Bool
  | .trickle (.reset _) => true
  | .trickle (.newNeighbor _ _) => true
  | .revoke .. => true
  | _ => false

/-- Whether a call reports no event of dissemination, and no reset of it. -/
def Answer.NoReset : Answer → Prop
  | .trickle answer => answer = .event (.ok none)
  | .report result => ∀ report, result = .ok report → report.trickleReset = false
  | .done => True

theorem effectiveReset?_of_noReset {op : Operation width capacity size τ ρ ℓ π} {answer : Answer}
    (hnone : answer.NoReset) :
    effectiveReset? op answer = none := by
  cases op with
  | meanwhile => cases answer <;> rfl
  | revoke =>
    cases answer with
    | report result =>
      cases result with
      | error => rfl
      | ok report => exact if_neg (Bool.eq_false_iff.mp (hnone report rfl))
    | trickle => rfl
    | done => rfl
  | trickle op =>
    cases answer with
    | trickle answer =>
      obtain rfl : answer = _ := hnone
      rfl
    | report => rfl
    | done => rfl

theorem reset_of_effective {op : Trickle.Operation width} {answer : Trickle.Answer} {now : Instant}
    (heffective : effectiveReset? (.trickle op : Operation width capacity size τ ρ ℓ π)
      (.trickle answer) = some now) :
    op.time? = some now ∧ ∃ point, answer = .event (.ok (some (.reset point))) := by
  unfold effectiveReset? at heffective
  split at heffective
  · rename_i hop hanswer
    cases hop
    cases hanswer
    exact ⟨heffective, _, rfl⟩
  · rename_i hop
    cases hop
  · cases heffective

theorem report_of_effective {c : RevocationConfig} {now begin : Instant} {peer : Address width}
    {listing : Bool} {result : Except Error RevocationReport}
    (heffective : effectiveReset? (.revoke c now peer listing :
      Operation width capacity size τ ρ ℓ π) (.report result) = some begin) :
    now = begin ∧ ∃ report, result = .ok report ∧ report.trickleReset = true := by
  cases result with
  | error e => cases heffective
  | ok report =>
    cases hflag : report.trickleReset with
    | false => simp [effectiveReset?, hflag] at heffective
    | true =>
      simp only [effectiveReset?, hflag, if_true, Option.some.injEq] at heffective
      exact ⟨heffective, report, rfl, hflag⟩

section Run

variable [RecordStore τ] [RandomSource ρ] [LinkLayer ℓ width] [Routing π width]

/-- The times at which a run lets the ends of intervals pass. -/
def endings : List (Operation width capacity size τ ρ ℓ π) → Scene width capacity size τ ρ ℓ π →
    List Instant
  | [], _ => []
  | op :: ops, s => (ending? op (s.perform op).1).toList ++ endings ops (s.perform op).2

variable {s : Scene width capacity size τ ρ ℓ π} {op : Operation width capacity size τ ρ ℓ π}

theorem config_perform (s : Scene width capacity size τ ρ ℓ π)
    (op : Operation width capacity size τ ρ ℓ π) :
    (s.perform op).2.state.trickle.config = s.state.trickle.config := by
  cases op with
  | trickle op => exact (s.engine.perform_clockEffect op).1.config
  | revoke c now peer listing =>
    exact (revoke_trickleEffect c now peer listing s.state s.net).config
  | meanwhile => rfl

/-- Where there is nothing to reset, no call resets anything. -/
theorem perform_of_cannot (hcannot : ¬ s.state.trickle.CanReset) (hasks : op.asksReset = true) :
    (s.perform op).1.NoReset ∧ Alike s.state.trickle (s.perform op).2.state.trickle := by
  cases op with
  | meanwhile => cases hasks
  | revoke c now peer listing =>
    have heffect := revoke_trickleEffect c now peer listing s.state s.net
    obtain ⟨hnone, hsame⟩ := heffect.of_cannot hcannot
    exact ⟨hnone, hsame ▸ .refl _⟩
  | trickle op =>
    cases op with
    | reset now =>
      have hreset := Trickle.reset_of_cannot hcannot now s.state.random
      simp only [Scene.perform, Scene.engine, Trickle.Scene.perform, hreset]
      exact ⟨rfl, .refl _⟩
    | newNeighbor now permanentNeighbors =>
      obtain ⟨newcomers, hnew⟩ :=
        Trickle.newNeighbor_of_cannot hcannot now permanentNeighbors s.state.random
      simp only [Scene.perform, Scene.engine, Trickle.Scene.perform, hnew]
      exact ⟨rfl, rfl, rfl, rfl, rfl, rfl, rfl⟩
    | start => cases hasks
    | stop => cases hasks
    | poll => cases hasks
    | hearFrom => cases hasks

/-- A reset that has an effect is the answer of a call of dissemination that begins an interval, or
a revocation reports it. -/
theorem effective_cases {begin : Instant}
    (heffective : effectiveReset? op (s.perform op).1 = some begin) :
    op.asksReset = true ∧ op.time? = some begin ∧
      ((∃ call point, op = .trickle call ∧ call.beginTime? = some begin ∧
        (s.engine.perform call).1 = .event (.ok (some (.reset point)))) ∨
      ∃ c peer listing report, op = .revoke c begin peer listing ∧
        (s.state.revoke c begin peer listing s.net).1 = .ok report ∧
        report.trickleReset = true) := by
  cases op with
  | meanwhile => cases heffective
  | revoke c now peer listing =>
    have hreported : effectiveReset? (.revoke c now peer listing : Operation width capacity size τ
        ρ ℓ π) (.report (s.state.revoke c now peer listing s.net).1) = some begin := heffective
    obtain ⟨rfl, report, hreport, hflag⟩ := report_of_effective hreported
    exact ⟨rfl, rfl, .inr ⟨c, peer, listing, report, rfl, hreport, hflag⟩⟩
  | trickle call =>
    have hanswered : effectiveReset? (.trickle call : Operation width capacity size τ ρ ℓ π)
        (.trickle (s.engine.perform call).1) = some begin := heffective
    obtain ⟨htime, point, hanswer⟩ := reset_of_effective hanswered
    cases call with
    | reset => exact ⟨rfl, htime, .inl ⟨_, point, rfl, htime, hanswer⟩⟩
    | newNeighbor => exact ⟨rfl, htime, .inl ⟨_, point, rfl, htime, hanswer⟩⟩
    | start => cases heffective
    | stop => cases heffective
    | poll => cases heffective
    | hearFrom => cases heffective

/-- A reset that has an effect begins an interval, whatever it was asked for. -/
theorem begun_of_effective {begin : Instant}
    (heffective : effectiveReset? op (s.perform op).1 = some begin) :
    ∃ random op', op' ≠ .start begin ∧ Begun s.state.trickle.config begin random
      (op' : Trickle.Operation width) (s.perform op).2.state.trickle
      (s.perform op).2.state.random := by
  obtain ⟨hasks, -, ⟨call, point, rfl, hbegin, hanswer⟩ |
    ⟨c, peer, listing, report, rfl, hreport, hflag⟩⟩ := effective_cases heffective
  · refine ⟨s.state.random, call, ?_, Trickle.Scene.perform_begun (s := s.engine) hbegin ?_⟩
    · rintro rfl
      cases hasks
    · rw [hanswer, Trickle.signs_reset]
      exact List.cons_ne_nil _ _
  · have heffect := revoke_trickleEffect c begin peer listing s.state s.net
    rw [hreport] at heffect
    obtain ⟨random, hbegun⟩ := heffect.begun hflag
    exact ⟨random, .reset begin, nofun, hbegun⟩

theorem time_of_ending {now : Instant} (hend : ending? op (s.perform op).1 = some now) :
    op.time? = some now ∧ op.asksReset = false := by
  unfold ending? at hend
  split at hend
  · split at hend
    · cases hend
      exact ⟨rfl, rfl⟩
    · cases hend
  · cases hend

variable {c : TrickleConfig} {begin point : Nat}

/-- A call leaves the engine in its interval, unless it lets the end of it pass. -/
theorem underway_step (h : Underway c begin point s.engine) (henabled : c.enabled = true)
    (hmin : 2 ≤ c.minInterval) (hstart : ∀ now, op ≠ .trickle (.start now)) :
    (ending? op (s.perform op).1 = none → Underway c begin point (s.perform op).2.engine) ∧
      ∀ now, ending? op (s.perform op).1 = some now →
        begin + c.minInterval.toNat ≤ now.ticks.toNat := by
  cases hasks : op.asksReset with
  | true =>
    refine ⟨fun _ => h.of_alike (perform_of_cannot h.not_canReset hasks).2, fun now hend => ?_⟩
    rw [(time_of_ending hend).2] at hasks
    cases hasks
  | false =>
    cases op with
    | revoke => cases hasks
    | meanwhile => exact ⟨fun _ => h.of_alike (.refl _), nofun⟩
    | trickle op =>
      cases op with
      | start now => exact absurd rfl (hstart now)
      | reset => cases hasks
      | newNeighbor => cases hasks
      | stop => exact ⟨fun _ => ⟨h.config, nofun⟩, nofun⟩
      | hearFrom peer =>
        cases (s.engine.perform_clockEffect (.hearFrom peer)).1 with
        | kept hquiet halike => exact ⟨fun _ => h.of_alike halike, nofun⟩
      | poll time =>
        obtain ⟨hgoes, hends⟩ := h.poll henabled hmin time
        change ((if EndsInterval (.poll time : Trickle.Operation width)
          (s.engine.perform (.poll time)).1 then some time else none) = none → _) ∧
          ∀ now, (if EndsInterval (.poll time : Trickle.Operation width)
            (s.engine.perform (.poll time)).1 then some time else none) = some now → _
        split
        · rename_i hend
          exact ⟨nofun, fun now hnow => Option.some.inj hnow ▸ hends hend⟩
        · rename_i hend
          exact ⟨fun _ => hgoes hend, nofun⟩

theorem mem_times_of_mem_endings {now : Instant}
    {ops : List (Operation width capacity size τ ρ ℓ π)} (hmem : now ∈ endings ops s) :
    now ∈ times ops := by
  induction ops generalizing s with
  | nil => cases hmem
  | cons op ops ih =>
    rw [times_cons]
    rcases List.mem_append.mp hmem with hend | hrest
    · rw [(time_of_ending (Option.mem_toList.mp hend)).1]
      exact List.mem_append_left _ List.mem_cons_self
    · exact List.mem_append_right _ (ih hrest)

/-- No poll lets the end of an interval pass before the interval is over, and until then the engine
is in it. -/
theorem underway_run (henabled : c.enabled = true) (hmin : 2 ≤ c.minInterval)
    (ops : List (Operation width capacity size τ ρ ℓ π)) (h : Underway c begin point s.engine)
    (hstart : ∀ now, .trickle (.start now) ∉ ops)
    (htimes : (times ops).Pairwise fun a b => a.ticks ≤ b.ticks) :
    (endings ops s = [] → Underway c begin point (s.run ops).2.engine) ∧
      ∀ now ∈ endings ops s, begin + c.minInterval.toNat ≤ now.ticks.toNat := by
  induction ops generalizing s with
  | nil => exact ⟨fun _ => h, nofun⟩
  | cons op ops ih =>
    obtain ⟨hgoes, hends⟩ := underway_step h henabled hmin
      fun now hop => hstart now (hop ▸ List.mem_cons_self)
    rw [times_cons, List.pairwise_append] at htimes
    obtain ⟨-, hlater, hbetween⟩ := htimes
    rw [endings]
    cases hend : ending? op (s.perform op).1 with
    | none =>
      exact ih (hgoes hend) (fun now hmem => hstart now (List.mem_cons_of_mem _ hmem)) hlater
    | some now =>
      refine ⟨nofun, fun time hmem => ?_⟩
      have hlate := hends now hend
      rcases List.mem_cons.mp hmem with rfl | hrest
      · exact hlate
      · -- the first end is late, and the others come after it
        have hafter := hbetween now (by simp [(time_of_ending hend).1]) time
          (mem_times_of_mem_endings hrest)
        exact Nat.le_trans hlate (UInt64.le_iff_toNat_le.mp hafter)

/-- A reset that has an effect begins the smallest interval, if its size is even. -/
theorem underway_of_effective (hmin : 2 ≤ c.minInterval) (heven : c.minInterval.toNat % 2 = 0)
    (hconfig : s.state.trickle.config = c) {begin : Instant}
    (heffective : effectiveReset? op (s.perform op).1 = some begin) :
    ((s.perform op).2.state.trickle.interval = c.minInterval ∧
      (s.perform op).2.state.trickle.phase = .transmission ∧
      (s.perform op).2.state.trickle.intervalTimer =
        ⟨begin, (s.perform op).2.state.trickle.transmissionPoint, true⟩ ∧
      c.minInterval / 2 ≤ (s.perform op).2.state.trickle.transmissionPoint ∧
      (s.perform op).2.state.trickle.transmissionPoint < c.minInterval) ∧
    Underway c begin.ticks.toNat (s.perform op).2.state.trickle.transmissionPoint.toNat
      (s.perform op).2.engine := by
  have hsame : Trickle.resetInterval c = c.minInterval := UInt64.toNat_inj.mp (by
    rw [Trickle.toNat_resetInterval]
    omega)
  obtain ⟨random, op', hop, hbegun⟩ := begun_of_effective heffective
  rw [hconfig] at hbegun
  have hschedule := Begun.onSchedule (s := (s.perform op).2.engine) hmin
    ((config_perform s op).trans hconfig) hbegun
  have hlt := hschedule.point_lt
  cases hbegun with
  | started => exact absurd rfl hop
  | reset hop hdraw hinterval hpoint hphase htimer =>
    rw [hsame] at hdraw hinterval
    have hhalf : c.minInterval / 2 ≤ c.minInterval := by
      rw [UInt64.le_iff_toNat_le, UInt64.toNat_div]
      exact Nat.div_le_self _ _
    have hlow := (RandomSource.between_bounds hhalf (congrArg Prod.fst hdraw)).1
    rw [← hpoint] at hlow htimer
    have hsize : (s.perform op).2.state.trickle.interval.toNat = c.minInterval.toNat :=
      congrArg UInt64.toNat hinterval
    refine ⟨⟨hinterval, hphase, htimer, hlow, ?_⟩, ⟨hschedule.config, fun _ =>
      ⟨Trickle.Scene.lap begin (s.perform op).2.engine, ⟨rfl, rfl⟩, hsize, hschedule⟩⟩⟩
    rw [UInt64.lt_iff_toNat_lt, ← hsize]
    exact hlt

/-- A reset that has an effect begins the smallest interval, with a transmission point in its
second half. Until that interval is over no call resets anything, and an engine that is not stopped
reaches the transmission point and the end of the interval at the times set then. So the next reset
that has an effect is no earlier than the end of the interval. -/
theorem resets_spaced (henabled : c.enabled = true) (hmin : 2 ≤ c.minInterval)
    (heven : c.minInterval.toNat % 2 = 0) (hconfig : s.state.trickle.config = c) {begin : Instant}
    (hreset : effectiveReset? op (s.perform op).1 = some begin)
    (ops : List (Operation width capacity size τ ρ ℓ π))
    (call : Operation width capacity size τ ρ ℓ π) (hstart : ∀ now, .trickle (.start now) ∉ ops)
    (htimes : (begin :: times (ops ++ [call])).Pairwise fun a b => a.ticks ≤ b.ticks) :
    let s₁ := (s.perform op).2
    let s₂ := (s₁.run ops).2
    let t₁ := s₁.state.trickle
    let t₂ := s₂.state.trickle
    let ended := begin.ticks.toNat + c.minInterval.toNat
    (t₁.interval = c.minInterval ∧ t₁.phase = .transmission ∧
      t₁.intervalTimer = ⟨begin, t₁.transmissionPoint, true⟩ ∧
      c.minInterval / 2 ≤ t₁.transmissionPoint ∧ t₁.transmissionPoint < c.minInterval) ∧
    (∀ now ∈ endings ops s₁, ended ≤ now.ticks.toNat) ∧
    (∀ now, call.time? = some now → now.ticks.toNat < ended → endings ops s₁ = []) ∧
    (∀ now, effectiveReset? call (s₂.perform call).1 = some now → ended ≤ now.ticks.toNat) ∧
    (endings ops s₁ = [] →
      (call.asksReset = true → (s₂.perform call).1.NoReset ∧
        (s₂.perform call).2.state.trickle.position = t₂.position) ∧
      (t₂.isRunning = true → t₂.interval = t₁.interval ∧
        t₂.transmissionPoint = t₁.transmissionPoint ∧
        ∀ now, t₂.intervalTimer.due now = true ↔
          begin.ticks.toNat + (if t₂.phase = .transmission then t₁.transmissionPoint.toNat
            else c.minInterval.toNat) ≤ now.ticks.toNat)) := by
  intro s₁ s₂ t₁ t₂ ended
  obtain ⟨hbegun, hunderway⟩ := underway_of_effective hmin heven hconfig hreset
  have hlater := (List.pairwise_cons.mp htimes).2
  have hsplit : times (ops ++ [call]) = times ops ++ times [call] := List.filterMap_append
  rw [hsplit, List.pairwise_append] at hlater
  obtain ⟨hops, -, hcall⟩ := hlater
  obtain ⟨hgoes, hends⟩ := underway_run henabled hmin ops hunderway hstart hops
  -- the end of the interval lies before a call that comes after it
  have hafter {now : Instant} (htime : call.time? = some now) (hover : endings ops s₁ ≠ []) :
      ended ≤ now.ticks.toNat := by
    obtain ⟨time, hmem⟩ := List.exists_mem_of_ne_nil _ hover
    have hle := hcall time (mem_times_of_mem_endings hmem) now (by simp [times, htime])
    exact Nat.le_trans (hends time hmem) (UInt64.le_iff_toNat_le.mp hle)
  refine ⟨hbegun, hends, fun now htime hearly => ?_, fun now heffective => ?_,
    fun hnone => ⟨fun hasks => ?_, fun hrunning => ?_⟩⟩
  · by_contra hover
    exact Nat.not_lt.mpr (hafter htime hover) hearly
  · obtain ⟨hasks, htime, -⟩ := effective_cases heffective
    refine hafter htime fun hnone => ?_
    have hquiet := (perform_of_cannot (hgoes hnone).not_canReset hasks).1
    rw [effectiveReset?_of_noReset hquiet] at heffective
    cases heffective
  · obtain ⟨hquiet, halike⟩ := perform_of_cannot (hgoes hnone).not_canReset hasks
    exact ⟨hquiet, halike.position⟩
  · obtain ⟨hinterval, hpoint⟩ := (hgoes hnone).interval_eq hrunning
    exact ⟨hinterval.trans hbegun.1.symm, UInt64.toNat_inj.mp hpoint,
      (hgoes hnone).due_iff hrunning⟩

end Run

abbrev SettledCall := Operation 8 4 4 (MemoryStore 64) Generator (Radio 8) (ParentSet 8)

/-- The revocation of the preferred parent, which resets dissemination. -/
def firstRevocation : SettledCall := .revoke .standard ⟨50⟩ (.repeated 2) true

/-- New neighbors, revocations and a reset come all the time, and the poll of the transmission point
comes late. -/
def flood : List SettledCall :=
  [.trickle (.newNeighbor ⟨60⟩ 0), .revoke .standard ⟨15049⟩ (.repeated 4) true,
    .trickle (.poll ⟨20000⟩), .trickle (.newNeighbor ⟨20001⟩ 0), .trickle (.reset ⟨30000⟩)]

/-- A poll comes at the end of the interval. -/
def floodAndEnd : List SettledCall := flood ++ [.trickle (.poll ⟨30050⟩)]

def lastReset : SettledCall := .trickle (.reset ⟨30049⟩)

def nextRevocation : SettledCall := .revoke .standard ⟨30050⟩ (.repeated 3) true

/-- The node after the first revocation. -/
def revoked : Scene 8 4 4 (MemoryStore 64) Generator (Radio 8) (ParentSet 8) :=
  (Scene.perform ⟨settled, surroundings⟩ firstRevocation).2

/-- Just before the end of the interval there is nothing to reset, and at the end of it a revocation
resets dissemination again. -/
theorem resets_spaced_flood :
    (settled.trickle.config.enabled = true ∧ 2 ≤ settled.trickle.config.minInterval ∧
      settled.trickle.config.minInterval.toNat % 2 = 0) ∧
    effectiveReset? firstRevocation
      (Scene.perform ⟨settled, surroundings⟩ firstRevocation).1 = some ⟨50⟩ ∧
    ((∀ now, .trickle (.start now) ∉ flood) ∧ ∀ now, .trickle (.start now) ∉ floodAndEnd) ∧
    ((⟨50⟩ :: times (flood ++ [lastReset])).Pairwise (fun a b => a.ticks ≤ b.ticks) ∧
      (⟨50⟩ :: times (floodAndEnd ++ [nextRevocation])).Pairwise fun a b => a.ticks ≤ b.ticks) ∧
    (((revoked.run flood).2.perform lastReset).1.NoReset ∧
      ((revoked.run flood).2.perform lastReset).2.state.trickle.position =
        (revoked.run flood).2.state.trickle.position) ∧
    effectiveReset? nextRevocation ((revoked.run floodAndEnd).2.perform nextRevocation).1 =
      some ⟨30050⟩ ∧
    50 + settled.trickle.config.minInterval.toNat ≤ 30050 := by
  obtain ⟨hmin, heven⟩ : 2 ≤ settled.trickle.config.minInterval ∧
      settled.trickle.config.minInterval.toNat % 2 = 0 :=
    TrickleConfig.minInterval_forRate (r := .kilohertz) (by decide)
  have hfirst : effectiveReset? firstRevocation
      (Scene.perform ⟨settled, surroundings⟩ firstRevocation).1 = some ⟨50⟩ := rfl
  have hflood : ∀ now, .trickle (.start now) ∉ flood := by simp [flood]
  have hend : ∀ now, .trickle (.start now) ∉ floodAndEnd := by simp [floodAndEnd, flood]
  have htimes : (⟨50⟩ :: times (flood ++ [lastReset])).Pairwise
      (fun a b => a.ticks ≤ b.ticks) := by decide
  have htimes' : (⟨50⟩ :: times (floodAndEnd ++ [nextRevocation])).Pairwise
      (fun a b => a.ticks ≤ b.ticks) := by decide
  have hnext : effectiveReset? nextRevocation
      ((revoked.run floodAndEnd).2.perform nextRevocation).1 = some ⟨30050⟩ := rfl
  obtain ⟨-, -, hbefore, -, hquiet⟩ := resets_spaced (s := ⟨settled, surroundings⟩) rfl hmin heven
    rfl hfirst flood lastReset hflood htimes
  obtain ⟨-, -, -, hspaced, -⟩ := resets_spaced (s := ⟨settled, surroundings⟩) rfl hmin heven rfl
    hfirst floodAndEnd nextRevocation hend htimes'
  exact ⟨⟨rfl, hmin, heven⟩, hfirst, ⟨hflood, hend⟩, ⟨htimes, htimes'⟩,
    (hquiet (hbefore ⟨30049⟩ rfl (by decide))).1 rfl, hnext, hspaced _ hnext⟩

end RevocationState

end MeshSecurity
