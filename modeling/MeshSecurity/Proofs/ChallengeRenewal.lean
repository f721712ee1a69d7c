import Mathlib.Data.List.Chain
import MeshSecurity.Proofs.ClockSteps
import MeshSecurity.Proofs.IntervalBounds

/-!
# Every HELLO has a challenge of its own

The challenge is replaced when the wait for answers ends, and by a start. While a HELLO of ours is
the latest one under the current challenge, the wait for its answers goes on or the engine is
stopped, and neither ends with another HELLO before the challenge is replaced.
-/

namespace MeshSecurity.Trickle

variable {width size : Nat} {ρ ℓ π : Type}

theorem challengesSent_append (current : Nat) (calls rest : List LinkCall) :
    challengesSent current (calls ++ rest) = challengesSent current calls ++
      challengesSent (current + calls.count .challengeChanged) rest := by
  induction calls generalizing current with
  | nil => rfl
  | cons call calls ih =>
    cases call with
    | challengeChanged =>
      simp [challengesSent, ih, Nat.add_assoc, Nat.add_comm 1]
    | helloSent => simp [challengesSent, ih]
    | helloRefused e => simp [challengesSent, ih]

/-- The last HELLO was sent under the challenge `last`, and `current` is the challenge now. -/
structure Renewed (last current : Nat) (t : Trickle) : Prop where
  le : last ≤ current
  awaiting : last = current → t.isRunning = true → t.isAwaitingAcks = true

/-- From `last` on, challenges increase from HELLO to HELLO. -/
def Increasing (last current : Nat) (calls : List LinkCall) : Prop :=
  (last :: challengesSent current calls).IsChain (· < ·)

theorem Increasing.sent {last current : Nat} {calls : List LinkCall} (hnew : last < current)
    (hrest : Increasing current current calls) : Increasing last current (.helloSent :: calls) :=
  List.isChain_cons_cons.mpr ⟨hnew, hrest⟩

/-- At a transmission point where a HELLO would be sent only under a new challenge. -/
theorem Transmission.renewed {now : Instant} {t : Trickle} {event : TrickleEvent}
    {calls : List LinkCall} {ackTimer : Timer} {last current : Nat}
    (hpass : Transmission now t event calls ackTimer) (hle : last ≤ current)
    (hawaiting : last = current → t.ackTimer.armed = true)
    (hnew : t.ackTimer.expired now = true → last < current) :
    ∃ last', last' ≤ current ∧ (last' = current → ackTimer.armed = true) ∧
      ∀ rest, Increasing last' current rest → Increasing last current (calls ++ rest) := by
  cases hpass with
  | suppressed => exact ⟨last, hle, hawaiting, fun _ hrest => hrest⟩
  | awaiting => exact ⟨last, hle, hawaiting, fun _ hrest => hrest⟩
  | refused => exact ⟨last, hle, hawaiting, fun _ hrest => hrest⟩
  | sent hfew hexpired =>
    exact ⟨current, Nat.le_refl _, fun _ => rfl, fun _ hrest => hrest.sent (hnew hexpired)⟩

/-- After the wait for answers was polled, a transmission point in the past comes with a new
challenge or with a wait that goes on. -/
theorem AcksPolled.renewed {now : Instant} {t t₁ : Trickle} {events : List TrickleEvent}
    {calls : List LinkCall} {last current : Nat} (hacks : AcksPolled now t events calls t₁)
    (hlast : Renewed last current t) :
    ∃ current', Renewed last current' t₁ ∧
      (t.isRunning = true → ∀ due : Instant, due.ticks ≤ now.ticks →
        t₁.ackTimer.expired due = true → last < current') ∧
      ∀ rest, Increasing last current' rest → Increasing last current (calls ++ rest) := by
  cases hacks with
  | waiting hdue =>
    refine ⟨current, hlast, fun hrunning due hpast hexpired => ?_, fun _ hrest => hrest⟩
    refine Nat.lt_of_le_of_ne hlast.le fun hsame => ?_
    have harmed : t.ackTimer.armed = true := hlast.awaiting hsame hrunning
    have helapsed := Timer.expired_iff.mp (Timer.expired_of_le hpast hexpired) harmed
    rw [Timer.due_iff.mpr ⟨harmed, helapsed⟩] at hdue
    cases hdue
  | ended hdue =>
    have hnew : last < current + 1 := Nat.lt_succ_of_le hlast.le
    exact ⟨current + 1, ⟨hnew.le, fun hsame => absurd hsame hnew.ne⟩, fun _ _ _ _ => hnew,
      fun _ hrest => hrest⟩

/-- A call sends a HELLO only under a challenge that came after the one of the last HELLO. -/
theorem Renewed.step {op : Operation width} {ops : List (Operation width)} {t t' : Trickle}
    {answer : Answer} {calls : List LinkCall} {last current : Nat}
    (hlast : Renewed last current t) (hbefore : SetBefore t (op :: ops))
    (heffect : ClockEffect t op answer calls t') :
    ∃ last' current', Renewed last' current' t' ∧
      ∀ rest, Increasing last' current' rest → Increasing last current (calls ++ rest) := by
  cases heffect with
  | kept hquiet halike =>
    refine ⟨last, current, ⟨hlast.le, fun hsame hrunning => ?_⟩, fun _ hrest => hrest⟩
    rw [isRunning, halike.intervalTimer] at hrunning
    rw [isAwaitingAcks, halike.ackTimer]
    exact hlast.awaiting hsame hrunning
  | stopped =>
    exact ⟨last, current, ⟨hlast.le, fun _ hrunning => absurd hrunning Bool.false_ne_true⟩,
      fun _ hrest => hrest⟩
  | started henabled hpass =>
    have hnew : last < current + 1 := Nat.lt_succ_of_le hlast.le
    obtain ⟨last', hle', hawaiting, hrest⟩ :=
      hpass.renewed hnew.le (fun hsame => absurd hsame hnew.ne) fun _ => hnew
    exact ⟨last', current + 1, ⟨hle', fun hsame _ => hawaiting hsame⟩, hrest⟩
  | reset htime hrunning hcounter halike =>
    refine ⟨last, current, ⟨hlast.le, fun hsame _ => ?_⟩, fun _ hrest => hrest⟩
    rw [isAwaitingAcks, halike.ackTimer]
    exact hlast.awaiting hsame hrunning
  | @polled now _ _ _ _ _ _ henabled hacks hinterval =>
    obtain ⟨current', hlast', hnew, hacksRest⟩ := hacks.renewed hlast
    obtain ⟨ackTimer, rfl⟩ := hacks.frame
    cases hinterval with
    | early =>
      refine ⟨last, current', hlast', fun rest hrest => ?_⟩
      rw [List.append_nil]
      exact hacksRest rest hrest
    | fired hdue hpass =>
      have hrunning : t.isRunning = true := (Timer.due_iff.mp hdue).1
      cases hpass with
      | transmission hphase hpass =>
        have hpast := Timer.deadline_le_of_due
          (hbefore hrunning now (mem_times_of_time rfl)) hdue
        obtain ⟨last', hle', hawaiting, hrest⟩ := hpass.renewed hlast'.le
          (fun hsame => hlast'.awaiting hsame hrunning) (hnew hrunning _ hpast)
        refine ⟨last', current', ⟨hle', fun hsame _ => hawaiting hsame⟩, fun rest h => ?_⟩
        rw [List.append_assoc]
        exact hacksRest _ (hrest rest h)
      | ended hphase hresult =>
        refine ⟨last, current', ⟨hlast'.le, fun hsame _ => hlast'.awaiting hsame hrunning⟩,
          fun rest hrest => ?_⟩
        rw [List.append_nil]
        exact hacksRest rest hrest

section Run

variable [RandomSource ρ] [LinkLayer ℓ width]

theorem increasing_traffic (ops : List (Operation width)) {s : Scene width size ρ ℓ π}
    {last current : Nat} (hlast : Renewed last current s.trickle)
    (hbefore : SetBefore s.trickle ops) (htimes : Chronological ops) :
    Increasing last current (s.traffic ops) := by
  induction ops generalizing s last current with
  | nil => exact List.isChain_singleton _
  | cons op ops ih =>
    have heffect := (s.perform_clockEffect op).1
    obtain ⟨last', current', hlast', hrest⟩ := hlast.step hbefore heffect
    rw [Scene.traffic_cons]
    exact hrest _ (ih hlast' (hbefore.step htimes heffect) (chronological_cons.mp htimes).2)

end Run

/-- The challenge of the next HELLO came after the last one. -/
theorem Increasing.changed {current : Nat} {before after : List LinkCall}
    (h : Increasing current current (before ++ .helloSent :: after)) :
    .challengeChanged ∈ before := by
  rw [Increasing, challengesSent_append] at h
  have hlater := h.rel_cons (List.mem_append_right _ List.mem_cons_self)
  exact List.count_pos_iff.mp (by omega)

/-- From a HELLO on, challenges increase after its own. -/
theorem Increasing.after_sent {last current : Nat} {before after : List LinkCall}
    (h : Increasing last current (before ++ .helloSent :: after)) :
    Increasing (current + before.count .challengeChanged)
      (current + before.count .challengeChanged) after := by
  rw [Increasing, challengesSent_append] at h
  exact List.IsChain.right_of_append (List.cons_append ▸ h)

/-- In a run of the engine, however late it is polled, the challenge is replaced before the first
HELLO is sent and between any two of them, so no challenge is sent twice. -/
theorem challenge_renewed [RandomSource ρ] [LinkLayer ℓ width] (c : TrickleConfig) (random : ρ)
    (net : Network width size ℓ π) (ops : List (Operation width)) (htimes : Chronological ops) :
    let calls := Scene.traffic ops ⟨stopped c, random, net⟩
    (∀ before after, calls = before ++ .helloSent :: after → .challengeChanged ∈ before) ∧
    (∀ before between after,
      calls = before ++ .helloSent :: between ++ .helloSent :: after →
        .challengeChanged ∈ between) ∧
    (challengesSent 0 calls).Nodup := by
  intro calls
  have hstopped : Renewed 0 0 (stopped c) :=
    ⟨Nat.le_refl 0, fun _ hrunning => absurd hrunning Bool.false_ne_true⟩
  have hincreasing : Increasing 0 0 calls := increasing_traffic ops hstopped
    (setBefore_of_stopped rfl ops) htimes
  refine ⟨fun before after hcalls => ?_, fun before between after hcalls => ?_, ?_⟩
  · rw [hcalls] at hincreasing
    exact hincreasing.changed
  · rw [hcalls, List.append_assoc, List.cons_append] at hincreasing
    exact hincreasing.after_sent.changed
  · have hsorted := List.isChain_iff_pairwise.mp hincreasing
    exact (List.pairwise_cons.mp hsorted).2.imp Nat.ne_of_lt

/-- This engine is polled too late for three transmission points, and restarted after a stop. -/
def lateAndRestarted : List (Operation 8) :=
  [.start .zero, .poll ⟨50⟩, .poll ⟨50⟩, .poll ⟨50⟩, .poll ⟨50⟩, .stop, .start ⟨50⟩]

theorem traffic_lateAndRestarted : (lowest threeTicks).traffic lateAndRestarted =
    [.challengeChanged, .helloSent, .challengeChanged, .helloSent, .challengeChanged, .helloSent,
      .challengeChanged, .helloSent] := by decide

theorem challenge_renewed_threeTicks :
    Chronological lateAndRestarted ∧
    (challengesSent 0 ((lowest threeTicks).traffic lateAndRestarted)) = [1, 2, 3, 4] ∧
    (challengesSent 0 ((lowest threeTicks).traffic lateAndRestarted)).Nodup := by
  have htimes : Chronological lateAndRestarted := by decide
  obtain ⟨-, -, hnodup⟩ := challenge_renewed threeTicks (lowest threeTicks).random
    (lowest threeTicks).net lateAndRestarted htimes
  exact ⟨htimes, by rw [traffic_lateAndRestarted]; rfl, hnodup⟩

end MeshSecurity.Trickle
