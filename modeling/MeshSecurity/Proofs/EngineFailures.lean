import MeshSecurity.Proofs.ClockSteps
import MeshSecurity.Proofs.IntervalBounds
import MeshSecurity.Simulation.Interrupted

/-!
# Failures do not stall the engine

A call fails where no random number can be drawn. A start or a reset that fails leaves the engine
as it was. A poll has disarmed the interval timer by then, and goes on with the middle of the next
interval. So once an engine is started, its interval timer is armed until it is stopped.
-/

namespace MeshSecurity.Trickle

open Scene

variable {width size : Nat} {ρ ℓ π : Type}

/-- The error of a call that failed. -/
def Answer.error? : Answer → Option Error
  | .events (.error e) => some e
  | .event (.error e) => some e
  | _ => none

theorem Answer.error?_events {result : Except Error (List TrickleEvent)} {e : Error} :
    (Answer.events result).error? = some e ↔ result = .error e := by
  cases result <;> simp [error?]

theorem Answer.error?_event {result : Except Error (Option TrickleEvent)} {e : Error} :
    (Answer.event result).error? = some e ↔ result = .error e := by
  cases result <;> simp [error?]

/-- What a poll leaves that could not draw the transmission point of the next interval. -/
structure MidpointEntered (now : Instant) (t t' : Trickle) : Prop where
  config : t'.config = t.config
  due : t.intervalTimer.due now = true
  ended : t.phase = .intervalEnd
  interval : t'.interval.toNat = min (2 * t.interval.toNat) t.config.maxInterval.toNat
  point : t'.transmissionPoint = t'.interval / 2
  counter : t'.counter = 0
  newcomers : t'.newcomers = 0
  phase : t'.phase = .transmission
  timer : ∃ deadline, t.intervalTimer.deadline = some deadline ∧
    t'.intervalTimer = ⟨deadline, t'.transmissionPoint, true⟩

/-- What is left of the engine by a call that failed, with what the call asked of the link layer. -/
inductive Failure (t : Trickle) : Operation width → List LinkCall → Trickle → Prop
  | start {now} : Failure t (.start now) [] t
  | reset {now} : Failure t (.reset now) [] t
  | newNeighbor {now permanentNeighbors t'} (halike : Alike t t')
      (hcounter : t'.counter = t.counter) :
      Failure t (.newNeighbor now permanentNeighbors) [] t'
  | poll {now calls t'} (hentered : MidpointEntered now t t') : Failure t (.poll now) calls t'

/-- Only a stop disarms the interval timer. -/
theorem ClockEffect.running {op : Operation width} {t t' : Trickle} {answer : Answer}
    {calls : List LinkCall} (heffect : ClockEffect t op answer calls t') (hstop : op ≠ .stop)
    (hrunning : t.isRunning = true) : t'.isRunning = true := by
  cases heffect with
  | kept hquiet halike => rwa [isRunning, halike.intervalTimer]
  | stopped => exact absurd rfl hstop
  | started => rfl
  | reset htime hwas hcounter halike =>
    rw [isRunning, halike.intervalTimer]
    rfl
  | polled henabled hacks hinterval =>
    obtain ⟨ackTimer, rfl⟩ := hacks.frame
    cases hinterval with
    | early => exact hrunning
    | fired hdue hpass =>
      cases hpass with
      | transmission => rfl
      | ended => rfl

/-- A failed call asks nothing of the link layer, unless it is a poll. -/
theorem ClockEffect.calls_of_error {op : Operation width} {t t' : Trickle} {answer : Answer}
    {calls : List LinkCall} {e : Error} (heffect : ClockEffect t op answer calls t')
    (herror : answer.error? = some e) (hpoll : ∀ now, op ≠ .poll now) : calls = [] := by
  cases heffect with
  | kept => rfl
  | stopped => rfl
  | started => cases herror
  | reset => rfl
  | polled => exact absurd rfl (hpoll _)

section Calls

variable [RandomSource ρ]

theorem reset_of_error {now : Instant} {t : Trickle} {random : ρ} {e : Error}
    (herror : (t.reset now random).1 = .error e) :
    e = .randomFailure ∧ (t.reset now random).2.1 = t := by
  rcases t.reset_cases now random with
    ⟨random', hreset | hreset⟩ | ⟨point, random', -, -, -, hreset⟩
  · rw [hreset] at herror
    cases herror
  · rw [hreset] at herror ⊢
    cases herror
    exact ⟨rfl, rfl⟩
  · rw [hreset] at herror
    cases herror

theorem newNeighbor_of_error {now : Instant} {permanentNeighbors : Nat} {t : Trickle} {random : ρ}
    {e : Error} (herror : (t.newNeighbor now permanentNeighbors random).1 = .error e) :
    e = .randomFailure ∧ Alike t (t.newNeighbor now permanentNeighbors random).2.1 ∧
      (t.newNeighbor now permanentNeighbors random).2.1.counter = t.counter := by
  rcases t.newNeighbor_cases now permanentNeighbors random with
    ⟨result, newcomers, windowStart, windowResets, random', hresult, hnew⟩ |
      ⟨point, windowStart, windowResets, random', -, -, -, hnew⟩
  · rw [hnew] at herror ⊢
    rcases hresult with rfl | rfl | rfl
    · cases herror
    · cases herror
    · cases herror
      exact ⟨rfl, ⟨rfl, rfl, rfl, rfl, rfl, rfl⟩, rfl⟩
  · rw [hnew] at herror
    cases herror

variable [LinkLayer ℓ width]

theorem start_of_error {now : Instant} {t : Trickle} {random : ρ} {net : Network width size ℓ π}
    {e : Error} (herror : (t.start now random net).1 = .error e) :
    e = .randomFailure ∧ (t.start now random net).2.1 = t := by
  unfold start at herror ⊢
  split
  · rename_i hdisabled
    rw [if_pos hdisabled] at herror
    cases herror
  · rename_i henabled
    rw [if_neg henabled] at herror
    split
    · rename_i hdraw
      rw [hdraw] at herror
      cases herror
      exact ⟨rfl, rfl⟩
    · rename_i hdraw
      rw [hdraw] at herror
      cases herror

theorem isRunning_start {now : Instant} {t : Trickle} {random : ρ} {net : Network width size ℓ π}
    {events : List TrickleEvent} (henabled : t.config.enabled = true)
    (hok : (t.start now random net).1 = .ok events) :
    (t.start now random net).2.1.isRunning = true := by
  rcases hdraw : RandomSource.between t.config.minInterval t.config.maxInterval random with
    ⟨_ | interval, random'⟩
  · simp only [start, henabled, hdraw] at hok
    cases hok
  · obtain ⟨events', ackTimer, net', hstart⟩ := start_of_draw now henabled hdraw net
    rw [hstart]
    rfl

theorem passDeadline_of_error {deadline : Instant} {t : Trickle} {random : ρ}
    {net : Network width size ℓ π} {e : Error}
    (herror : (t.passDeadline deadline random net).1 = .error e) :
    e = .randomFailure ∧ t.phase = .intervalEnd ∧ (t.passDeadline deadline random net).2.1 =
      t.enter deadline (t.intervalAfter t.interval) (t.intervalAfter t.interval / 2) := by
  unfold passDeadline at herror ⊢
  cases hphase : t.phase with
  | transmission =>
    rw [hphase] at herror
    cases herror
  | intervalEnd =>
    rw [hphase] at herror
    rcases t.beginAfter_cases deadline t.interval random with
      ⟨point, random', -, hbegin⟩ | ⟨random', -, hbegin⟩
    · simp only [hbegin] at herror
      cases herror
    · simp only [hbegin] at herror
      cases herror
      exact ⟨rfl, rfl, by simp only [hbegin]⟩

theorem poll_of_error {now : Instant} {t : Trickle} {random : ρ} {net : Network width size ℓ π}
    {e : Error} (herror : (t.poll now random net).1 = .error e) :
    e = .randomFailure ∧ MidpointEntered now t (t.poll now random net).2.1 := by
  cases henabled : t.config.enabled with
  | false =>
    simp only [poll, henabled] at herror
    cases herror
  | true =>
    obtain ⟨events, ackTimer, net', hacks⟩ := t.pollAcks_frame now net
    rw [poll_of_enabled henabled hacks random] at herror ⊢
    cases hdue : t.intervalTimer.due now with
    | false =>
      simp only [hdue] at herror
      cases herror
    | true =>
      simp only [hdue] at herror ⊢
      have hdeadline := Timer.deadline_of_armed (Timer.due_iff.mp hdue).1
      rw [hdeadline, Option.getD_some] at herror ⊢
      have hfailed : (passDeadline (t.intervalTimer.start.after t.intervalTimer.interval)
          { t with ackTimer, intervalTimer := t.intervalTimer.stop } random net').1 = .error e := by
        generalize passDeadline _ _ random net' = passed at herror ⊢
        obtain ⟨_ | _, rest⟩ := passed
        · cases herror
          rfl
        · cases herror
      obtain ⟨hcause, hended, hentered⟩ := passDeadline_of_error hfailed
      rw [hentered]
      exact ⟨hcause, rfl, hdue, hended, toNat_intervalAfter _ _, rfl, rfl, rfl, rfl, _, hdeadline,
        rfl⟩

end Calls

section Run

variable [RandomSource ρ] [LinkLayer ℓ width]

theorem Scene.isRunning_run (ops : List (Operation width)) {s : Scene width size ρ ℓ π}
    (hstop : .stop ∉ ops) (hrunning : s.trickle.isRunning = true) :
    (run ops s).2.trickle.isRunning = true := by
  induction ops generalizing s with
  | nil => exact hrunning
  | cons op ops ih =>
    have hgoes : op ≠ .stop := fun h => hstop (h ▸ List.mem_cons_self)
    exact ih (fun hmem => hstop (List.mem_cons_of_mem _ hmem))
      ((s.perform_clockEffect op).1.running hgoes hrunning)

/-- A call fails only for want of a random number. -/
theorem Scene.failure_of_error {op : Operation width} {s : Scene width size ρ ℓ π} {e : Error}
    (herror : (s.perform op).1.error? = some e) :
    e = .randomFailure ∧ Failure s.trickle op (traffic [op] s) (s.perform op).2.trickle := by
  have hcalls := (s.perform_clockEffect op).1.calls_of_error herror
  cases op with
  | start now =>
    obtain ⟨hcause, hkept⟩ := start_of_error (Answer.error?_events.mp herror)
    rw [hcalls fun _ h => by cases h]
    refine ⟨hcause, ?_⟩
    change Failure _ _ _ (s.trickle.start now s.random s.net).2.1
    rw [hkept]
    exact .start
  | stop => cases herror
  | poll now =>
    obtain ⟨hcause, hentered⟩ := poll_of_error (Answer.error?_events.mp herror)
    exact ⟨hcause, .poll hentered⟩
  | reset now =>
    obtain ⟨hcause, hkept⟩ := reset_of_error (Answer.error?_event.mp herror)
    rw [hcalls fun _ h => by cases h]
    refine ⟨hcause, ?_⟩
    change Failure _ _ _ (s.trickle.reset now s.random).2.1
    rw [hkept]
    exact .reset
  | newNeighbor now permanentNeighbors =>
    obtain ⟨hcause, halike, hcounter⟩ := newNeighbor_of_error (Answer.error?_event.mp herror)
    rw [hcalls fun _ h => by cases h]
    exact ⟨hcause, .newNeighbor halike hcounter⟩
  | hearFrom peer => cases herror

/-- Whatever random source and radio refuse, a started engine runs until it is stopped. A call
fails only for want of a random number. It leaves the engine as it was, except that a new neighbor
counts, and that a poll has entered the next interval with its middle as transmission point. -/
theorem engine_never_stalls {s : Scene width size ρ ℓ π}
    (henabled : s.trickle.config.enabled = true) :
    (∀ now events, (s.perform (.start now)).1 = .events (.ok events) → ∀ ops, .stop ∉ ops →
      (run ops (s.perform (.start now)).2).2.trickle.isRunning = true) ∧
    ∀ op e, (s.perform op).1.error? = some e →
      e = .randomFailure ∧ Failure s.trickle op (traffic [op] s) (s.perform op).2.trickle := by
  refine ⟨fun now events hok ops hstop => ?_, fun op e herror => failure_of_error herror⟩
  have hresult : (s.trickle.start now s.random s.net).1 = .ok events := Answer.events.inj hok
  exact isRunning_run ops hstop (isRunning_start henabled hresult)

end Run

/-- A stopped engine whose random source fails at its second and its third request, and whose radio
sends nothing. -/
def unlucky : Scene 8 4 (InterruptedSource ConstantWord) (Radio 8) Unit :=
  ⟨stopped threeTicks, ⟨⟨0⟩, .ofFailing [1, 2]⟩, ⟨.empty, .instructed (some .sendFailed) [], ()⟩⟩

def unluckyPoll : Operation 8 := .poll ⟨3⟩

def unluckyReset : Operation 8 := .reset ⟨4⟩

/-- The poll at the end of the first interval and the reset after it both fail. -/
theorem engine_never_stalls_unlucky :
    let started := (unlucky.perform (.start .zero)).2
    let polled := (started.perform unluckyPoll).2
    unlucky.trickle.config.enabled = true ∧
    (unlucky.perform (.start .zero)).1 =
      .events (.ok [.started 3, .helloFailed .sendFailed]) ∧
    .stop ∉ [unluckyPoll, unluckyReset] ∧
    (run [unluckyPoll, unluckyReset] (unlucky.perform (.start .zero)).2).2.trickle.isRunning =
      true ∧
    (started.perform unluckyPoll).1.error? = some .randomFailure ∧
    Failure started.trickle unluckyPoll (traffic [unluckyPoll] started) polled.trickle ∧
    (polled.perform unluckyReset).1.error? = some .randomFailure ∧
    Failure polled.trickle unluckyReset (traffic [unluckyReset] polled)
      (polled.perform unluckyReset).2.trickle := by
  intro started polled
  have hstart : (unlucky.perform (.start .zero)).1 =
      .events (.ok [.started 3, .helloFailed .sendFailed]) := rfl
  have hstop : .stop ∉ [unluckyPoll, unluckyReset] := by decide
  have hpoll : (started.perform unluckyPoll).1.error? = some .randomFailure := by decide
  have hreset : (polled.perform unluckyReset).1.error? = some .randomFailure := by decide
  have hpolled : polled.trickle.config.enabled = true := by
    rw [(started.perform_clockEffect unluckyPoll).1.config,
      (unlucky.perform_clockEffect (.start .zero)).1.config]
    rfl
  refine ⟨rfl, hstart, hstop, ?_, hpoll, ?_, hreset, ?_⟩
  · exact (engine_never_stalls (s := unlucky) rfl).1 .zero _ hstart _ hstop
  · exact ((engine_never_stalls (s := started) rfl).2 _ _ hpoll).2
  · exact ((engine_never_stalls hpolled).2 _ _ hreset).2

end MeshSecurity.Trickle
