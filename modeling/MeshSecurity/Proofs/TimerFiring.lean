import Mathlib.Data.List.Induction
import MeshSecurity.Timer.Run

/-!
# A timer fires at its deadline

An armed timer is one that was set and has been spared by all calls since. A poll fires it from the
time on at which its interval has passed. The deadline is that time, or the last tick where the time
comes after it. In the latter case the timer never fires, not even at its deadline; otherwise a poll
fires it exactly if the deadline has come. Each set is good for one firing.
-/

namespace MeshSecurity.Timer

/-! ## A timer that outlasts the clock -/

theorem after_of_not_fits {t : Timer} (hfits : ¬ t.Fits) :
    (t.start.after t.interval).ticks = Saturating.maxWord := by
  have hbeyond := Nat.lt_of_not_le hfits
  rw [← UInt64.toNat_inj, Instant.toNat_after, Saturating.toNat_maxWord]
  omega

/-- A timer whose interval passes after the last tick never fires. -/
theorem not_due_of_not_fits {t : Timer} (hfits : ¬ t.Fits) (now : Instant) :
    ¬ t.due now = true := by
  have hbeyond := Nat.lt_of_not_le hfits
  have hstart := t.start.ticks.toNat_lt
  have hnow := now.ticks.toNat_lt
  rw [due_iff]
  omega

/-- The deadline of such a timer is the last tick. -/
theorem deadline_reached_iff {now : Instant} {t : Timer} (harmed : t.armed = true)
    (hfits : ¬ t.Fits) :
    (∃ d, t.deadline = some d ∧ d.ticks ≤ now.ticks) ↔ now.ticks = Saturating.maxWord := by
  have hword := now.ticks.toNat_lt
  simp only [deadline_of_armed harmed, Option.some_inj, exists_eq_left', after_of_not_fits hfits,
    UInt64.le_iff_toNat_le, ← UInt64.toNat_inj, Saturating.toNat_maxWord]
  omega

/-- Firing and deadline disagree only about a timer that never fires, and only at the last tick. -/
theorem firing_agrees_iff {now : Instant} {t : Timer}
    (hpast : t.armed = true → t.start.ticks ≤ now.ticks) :
    (t.due now = true ↔ ∃ d, t.deadline = some d ∧ d.ticks ≤ now.ticks) ↔
      ¬ (now.ticks = Saturating.maxWord ∧ t.armed = true ∧ ¬ t.Fits) := by
  by_cases hbeyond : t.armed = true ∧ ¬ t.Fits
  · rw [iff_false_left (not_due_of_not_fits hbeyond.2 now),
      deadline_reached_iff hbeyond.1 hbeyond.2, and_iff_left hbeyond]
  · have hfits : t.armed = true → t.Fits := fun harmed => by_contra fun h => hbeyond ⟨harmed, h⟩
    exact iff_of_true (due_iff_deadline_le hfits hpast) fun h => hbeyond h.2

theorem due_at_deadline_iff {d : Instant} {t : Timer} (hdeadline : t.deadline = some d) :
    t.due d = true ↔ t.Fits := by
  constructor
  · exact fun hdue => by_contra fun hfits => not_due_of_not_fits hfits d hdue
  · exact fun hfits => due_of_deadline_le hfits hdeadline (UInt64.le_refl _)

/-! ## What the calls leave waiting -/

/-- A call leaves a timer waiting if it sets it so, or if the timer was waiting and is spared. -/
theorem perform_waiting_iff (t : Timer) (call : Call) (start : Instant) (interval : UInt64) :
    (t.perform call).2 = ⟨start, interval, true⟩ ↔
      call = .set start interval ∨ t = ⟨start, interval, true⟩ ∧ call.Spares start interval := by
  cases call with
  | set now n => simp [perform, set, Call.Spares]
  | stop => simp [perform, stop, Call.Spares]
  | poll now =>
    have hkind : Call.poll now ≠ .set start interval := Call.noConfusion
    rw [or_iff_right hkind]
    change (t.poll now).2 = _ ↔ _
    rw [snd_poll]
    split
    · rename_i hdue
      constructor
      · intro hstop
        exact absurd (congrArg armed hstop) Bool.false_ne_true
      · rintro ⟨rfl, hspares⟩
        exact absurd (due_iff.mp hdue).2 (Nat.not_le_of_lt hspares)
    · rename_i hdue
      refine (and_iff_left_of_imp ?_).symm
      rintro rfl
      exact Nat.lt_of_not_le fun helapsed => hdue (due_iff.mpr ⟨rfl, helapsed⟩)

theorem awaits_append_iff (calls : List Call) (call : Call) (start : Instant) (interval : UInt64) :
    Awaits (calls ++ [call]) start interval ↔
      call = .set start interval ∨ Awaits calls start interval ∧ call.Spares start interval := by
  constructor
  · rintro ⟨before, after, hcalls, hspares⟩
    -- the call is the set itself, or the last one behind it
    rcases List.eq_nil_or_concat after with rfl | ⟨after, last, rfl⟩
    · exact Or.inl (List.append_singleton_inj.mp hcalls).2
    · rw [List.concat_eq_append] at hcalls hspares
      rw [← List.cons_append, ← List.append_assoc] at hcalls
      obtain ⟨rfl, rfl⟩ := List.append_singleton_inj.mp hcalls
      obtain ⟨hafter, hlast⟩ := List.forall_mem_append.mp hspares
      exact Or.inr ⟨⟨before, after, rfl, hafter⟩, hlast call (List.mem_singleton_self call)⟩
  · rintro (rfl | ⟨⟨before, after, rfl, hafter⟩, hspares⟩)
    · exact ⟨calls, [], rfl, List.forall_mem_nil _⟩
    · refine ⟨before, after ++ [call], ?_, ?_⟩
      · rw [List.append_assoc, List.cons_append]
      · exact List.forall_mem_append.mpr ⟨hafter, List.forall_mem_singleton.mpr hspares⟩

theorem run_append (earlier later : List Call) (t : Timer) :
    (run (earlier ++ later) t).2 = (run later (run earlier t).2).2 := by
  induction earlier generalizing t with
  | nil => rfl
  | cons call earlier ih => exact ih (t.perform call).2

/-- The state after a run is told by the calls: an armed timer waits for what they leave waiting. -/
theorem run_waiting_iff {calls : List Call} {start : Instant} {interval : UInt64} :
    (run calls idle).2 = ⟨start, interval, true⟩ ↔ Awaits calls start interval := by
  induction calls using List.reverseRecOn with
  | nil =>
    refine iff_of_false (fun hidle => ?_) ?_
    · exact Bool.false_ne_true (congrArg armed hidle)
    · rintro ⟨before, after, hcalls, -⟩
      exact absurd hcalls (by simp)
  | append_singleton calls call ih =>
    rw [run_append, awaits_append_iff, ← ih]
    exact perform_waiting_iff _ call start interval

theorem awaits_of_armed {calls : List Call} (harmed : (run calls idle).2.armed = true) :
    Awaits calls (run calls idle).2.start (run calls idle).2.interval := by
  rw [← run_waiting_iff, ← harmed]

theorem getLast?_setTimes {calls : List Call} {start : Instant} {interval : UInt64}
    (h : Awaits calls start interval) : (setTimes calls).getLast? = some start := by
  obtain ⟨before, after, rfl, hafter⟩ := h
  have hnone : after.filterMap Call.setTime? = [] := by
    refine List.filterMap_eq_nil_iff.mpr fun call hcall => ?_
    have hspares := hafter call hcall
    cases call with
    | set => exact hspares.elim
    | stop => rfl
    | poll => rfl
  have hset : (Call.set start interval :: after).filterMap Call.setTime? = [start] :=
    congrArg (start :: ·) hnone
  rw [setTimes, List.filterMap_append, hset, List.getLast?_concat]

section Reached

variable {calls : List Call} {now : Instant}

theorem start_le_of_past (hpast : ∀ start ∈ (setTimes calls).getLast?, start.ticks ≤ now.ticks)
    {start : Instant} {interval : UInt64} (hawaits : Awaits calls start interval) :
    start.ticks.toNat ≤ now.ticks.toNat :=
  UInt64.le_iff_toNat_le.mp (hpast start (getLast?_setTimes hawaits))

theorem due_iff_awaits (hpast : ∀ start ∈ (setTimes calls).getLast?, start.ticks ≤ now.ticks) :
    (run calls idle).2.due now = true ↔ ∃ start interval, Awaits calls start interval ∧
      start.ticks.toNat + interval.toNat ≤ now.ticks.toNat := by
  rw [due_iff]
  constructor
  · rintro ⟨harmed, helapsed⟩
    have hawaits := awaits_of_armed harmed
    have hstart := start_le_of_past hpast hawaits
    exact ⟨_, _, hawaits, by omega⟩
  · rintro ⟨start, interval, hawaits, hreached⟩
    rw [run_waiting_iff.mpr hawaits]
    exact ⟨rfl, Nat.le_sub_of_add_le' hreached⟩

theorem not_fits_iff : (run calls idle).2.armed = true ∧ ¬ (run calls idle).2.Fits ↔
    OutlastsClock calls := by
  constructor
  · rintro ⟨harmed, hfits⟩
    exact ⟨_, _, awaits_of_armed harmed, Nat.lt_of_not_le hfits⟩
  · rintro ⟨start, interval, hawaits, hbeyond⟩
    rw [run_waiting_iff.mpr hawaits]
    exact ⟨rfl, Nat.not_le_of_lt hbeyond⟩

end Reached

/-! ## One firing for each set -/

theorem perform_firings (t : Timer) (call : Call) :
    (t.perform call).1.toNat + (t.perform call).2.armed.toNat ≤
      t.armed.toNat + (setTimes [call]).length := by
  cases call with
  | set now interval => exact Nat.le_add_left _ _
  | stop => exact Nat.zero_le _
  | poll now =>
    change (t.poll now).1.toNat + (t.poll now).2.armed.toNat ≤ t.armed.toNat
    rw [fst_poll, snd_poll]
    cases hdue : t.due now with
    | false => exact Nat.le_of_eq (Nat.zero_add _)
    | true =>
      rw [(due_iff.mp hdue).1]
      exact Nat.le_refl 1

/-- Every firing uses up a set, or the arming before the run. -/
theorem count_firings_add_le (calls : List Call) (t : Timer) :
    (run calls t).1.count true + (run calls t).2.armed.toNat ≤
      t.armed.toNat + (setTimes calls).length := by
  induction calls generalizing t with
  | nil => exact Nat.le_of_eq (Nat.zero_add _)
  | cons call calls ih =>
    have hcall := perform_firings t call
    have hcalls := ih (t.perform call).2
    have hcount : (run (call :: calls) t).1.count true =
        (run calls (t.perform call).2).1.count true + (t.perform call).1.toNat := by
      change ((t.perform call).1 :: (run calls (t.perform call).2).1).count true = _
      cases (t.perform call).1 with
      | false => rfl
      | true => exact List.count_cons_self
    have hlength : (setTimes (call :: calls)).length =
        (setTimes [call]).length + (setTimes calls).length := by
      rw [← List.singleton_append, setTimes, List.filterMap_append, List.length_append]
      rfl
    change _ + (run calls (t.perform call).2).2.armed.toNat ≤ _
    omega

/-- Polled again after it has fired, a timer stays quiet until it is set anew. -/
example : (run [.set ⟨0⟩ 10, .poll ⟨10⟩, .poll ⟨11⟩, .set ⟨10⟩ 20, .poll ⟨29⟩, .poll ⟨30⟩] idle).1 =
    [false, true, false, false, false, true] := by
  decide

/-! ## Firing and the deadline -/

/-- From the time of the last set on, a poll fires the timer exactly if that set is still awaited
and its interval has passed, which is exactly if the timer is armed and has expired. This is exactly
if its deadline has come, unless it outlasts the clock and the time is the last tick: such a timer
has the last tick as its deadline but never fires, and every other one fires at its deadline. Each
set is good for one firing at most. -/
theorem firing_matches_deadline_iff (calls : List Call) (now : Instant)
    (hpast : ∀ start ∈ (setTimes calls).getLast?, start.ticks ≤ now.ticks) :
    let t := (run calls idle).2
    ((t.poll now).1 = true ↔ ∃ start interval, Awaits calls start interval ∧
      start.ticks.toNat + interval.toNat ≤ now.ticks.toNat) ∧
    ((t.poll now).1 = true ↔ t.armed = true ∧ t.expired now = true) ∧
    (((t.poll now).1 = true ↔ ∃ d, t.deadline = some d ∧ d.ticks ≤ now.ticks) ↔
      ¬ (now.ticks = Saturating.maxWord ∧ OutlastsClock calls)) ∧
    (∀ d, t.deadline = some d → ((t.poll d).1 = true ↔ ¬ OutlastsClock calls)) ∧
    (∀ later, setTimes later = [] → (run later t).1.count true ≤ t.armed.toNat) ∧
    (run calls idle).1.count true ≤ (setTimes calls).length := by
  intro t
  simp only [fst_poll]
  refine ⟨due_iff_awaits hpast, ?_, ?_, ?_, ?_, ?_⟩
  · rw [due_iff, expired_iff]
    exact and_congr_right fun harmed => (imp_iff_right harmed).symm
  · have hstart : t.armed = true → t.start.ticks ≤ now.ticks := fun harmed =>
      hpast _ (getLast?_setTimes (awaits_of_armed harmed))
    rw [firing_agrees_iff hstart, not_fits_iff]
  · intro d hdeadline
    rw [due_at_deadline_iff hdeadline, ← not_fits_iff, and_iff_right (armed_of_deadline hdeadline),
      not_not]
  · intro later hlater
    have hcount := count_firings_add_le later t
    rw [hlater] at hcount
    exact Nat.le_trans (Nat.le_add_right _ _) hcount
  · have hcount := count_firings_add_le calls idle
    have hidle : idle.armed.toNat = 0 := rfl
    omega

/-- The interval passes at the last tick, just in time. -/
theorem firing_matches_deadline_iff_lastTick :
    let calls : List Call := [.set ⟨0xFFFFFFFFFFFFFFFA⟩ 5, .poll ⟨0xFFFFFFFFFFFFFFFE⟩]
    let later : List Call := [.poll ⟨Saturating.maxWord⟩, .poll ⟨Saturating.maxWord⟩]
    let t := (run calls idle).2
    (∀ start ∈ (setTimes calls).getLast?, start.ticks ≤ Saturating.maxWord) ∧
      setTimes later = [] ∧ t.deadline = some ⟨Saturating.maxWord⟩ ∧
      (t.poll ⟨Saturating.maxWord⟩).1 = true ∧ ¬ OutlastsClock calls ∧
      (run later t).1.count true ≤ 1 := by
  intro calls later t
  have hpast : ∀ start ∈ (setTimes calls).getLast?, start.ticks ≤ Saturating.maxWord := by
    rintro start ⟨⟩
    decide
  have hnone : setTimes later = [] := rfl
  have hdeadline : t.deadline = some ⟨Saturating.maxWord⟩ := by decide
  obtain ⟨hfires, -, -, hat, hlater, -⟩ :=
    firing_matches_deadline_iff calls ⟨Saturating.maxWord⟩ hpast
  have hawaits : Awaits calls ⟨0xFFFFFFFFFFFFFFFA⟩ 5 := by
    refine ⟨[], _, rfl, List.forall_mem_singleton.mpr ?_⟩
    decide
  have hfired := hfires.mpr ⟨_, _, hawaits, by decide⟩
  exact ⟨hpast, hnone, hdeadline, hfired, (hat _ hdeadline).mp hfired, hlater later hnone⟩

/-- A timer set at the first tick for the longest interval does not fire at its deadline. -/
theorem unfired_at_deadline_longestInterval :
    let calls : List Call := [.set ⟨1⟩ Saturating.maxWord]
    let t := (run calls idle).2
    (∀ start ∈ (setTimes calls).getLast?, start.ticks ≤ Saturating.maxWord) ∧
      t.armed = true ∧ t.deadline = some ⟨Saturating.maxWord⟩ ∧
      (t.poll ⟨Saturating.maxWord⟩).1 = false := by
  refine ⟨?_, rfl, by decide, by decide⟩
  rintro start ⟨⟩
  decide

end MeshSecurity.Timer
