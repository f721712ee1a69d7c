import MeshSecurity.Proofs.ClockSteps
import MeshSecurity.Proofs.IntervalBounds

/-!
# How often new neighbors reset an engine

A window of resets opens with its first reset, and no other one opens before it is over. So the
resets within any such length of time belong to two windows at most, and of the earlier one the
reset that opened it is not among them.
-/

namespace MeshSecurity

/-- Whether an instant lies in the length of one window from `begin` on. -/
def TrickleConfig.inWindow (c : TrickleConfig) (begin : Nat) (now : Instant) : Bool :=
  begin ≤ now.ticks.toNat && now.ticks.toNat < begin + c.resetWindow.toNat

namespace Trickle

open Scene

variable {width size : Nat} {ρ ℓ π : Type}

/-- The time of a reset that a new neighbor caused. -/
def churnReset? : Operation width → Answer → Option Instant
  | .newNeighbor now _, .event (.ok (some (.reset _))) => some now
  | _, _ => none

/-- The times at which new neighbors reset the engine in a run. -/
def churnResets [RandomSource ρ] [LinkLayer ℓ width] :
    List (Operation width) → Scene width size ρ ℓ π → List Instant
  | [], _ => []
  | op :: ops, s => (churnReset? op (s.perform op).1).toList ++ churnResets ops (s.perform op).2

/-- Whether two engines count resets in the same window. -/
def SameWindow (t t' : Trickle) : Prop :=
  t'.windowStart = t.windowStart ∧ t'.windowResets = t.windowResets

/-- What a call may do to the window. -/
inductive WindowEffect (t : Trickle) (op : Operation width) (answer : Answer) (t' : Trickle) : Prop
  | kept (hsame : SameWindow t t') (hnone : churnReset? op answer = none)
  | opened {now} (htime : op.time? = some now) (hsame : SameWindow (t.openWindow now) t')
      (hnone : churnReset? op answer = none)
  | reset {now} (htime : op.time? = some now)
      (hroom : (t.openWindow now).windowResets < t.config.resetsPerWindow)
      (hstart : t'.windowStart = (t.openWindow now).windowStart)
      (hresets : t'.windowResets = (t.openWindow now).windowResets + 1)
      (hreset : churnReset? op answer = some now)

section Effect

theorem hearFrom_window (peer : Address width) (t : Trickle)
    (neighbors : NeighborTable width size) : SameWindow t (t.hearFrom peer neighbors).2.1 := by
  unfold hearFrom
  split
  · exact ⟨rfl, rfl⟩
  · rename_i sender _
    obtain ⟨counted, sender', counter, hhear⟩ := t.hear_frame sender
    rw [hhear]
    exact ⟨rfl, rfl⟩

variable [RandomSource ρ]

theorem reset_window (now : Instant) (t : Trickle) (random : ρ) :
    SameWindow t (t.reset now random).2.1 := by
  rcases t.reset_cases now random with
    ⟨random', hreset | hreset⟩ | ⟨point, random', -, -, -, hreset⟩
  · rw [hreset]
    exact ⟨rfl, rfl⟩
  · rw [hreset]
    exact ⟨rfl, rfl⟩
  · rw [hreset]
    exact ⟨rfl, rfl⟩

theorem openWindow_newcomers (now : Instant) (newcomers : UInt16) (t : Trickle) :
    ({ t with newcomers } : Trickle).openWindow now = { t.openWindow now with newcomers } := by
  unfold openWindow
  split
  · rfl
  · rfl

theorem config_openWindow (now : Instant) (t : Trickle) :
    (t.openWindow now).config = t.config := by
  obtain ⟨windowStart, windowResets, hopens⟩ := openWindow_frame now t
  rw [hopens]

theorem newNeighbor_windowEffect (now : Instant) (permanentNeighbors : Nat) (t : Trickle)
    (random : ρ) :
    WindowEffect t (.newNeighbor now permanentNeighbors : Operation width)
      (.event (t.newNeighbor now permanentNeighbors random).1)
      (t.newNeighbor now permanentNeighbors random).2.1 := by
  unfold newNeighbor
  dsimp only
  split
  · exact .kept ⟨rfl, rfl⟩ rfl
  · split
    · exact .kept ⟨rfl, rfl⟩ rfl
    · rw [openWindow_newcomers]
      split
      · exact .opened rfl ⟨rfl, rfl⟩ rfl
      · rename_i hroom
        rcases reset_cases now { t.openWindow now with
            newcomers := Saturating.succ16 t.newcomers } random with
          ⟨random', hreset | hreset⟩ | ⟨point, random', -, -, -, hreset⟩
        · rw [hreset]
          exact .opened rfl ⟨rfl, rfl⟩ rfl
        · rw [hreset]
          exact .opened rfl ⟨rfl, rfl⟩ rfl
        · rw [hreset]
          exact .reset rfl (config_openWindow now t ▸ UInt8.not_le.mp hroom) rfl rfl rfl

variable [LinkLayer ℓ width]

theorem start_window (now : Instant) (t : Trickle) (random : ρ) (net : Network width size ℓ π) :
    SameWindow t (t.start now random net).2.1 := by
  unfold start
  split
  · exact ⟨rfl, rfl⟩
  · split
    · exact ⟨rfl, rfl⟩
    · exact ⟨rfl, rfl⟩

theorem passDeadline_window (deadline : Instant) (t : Trickle) (random : ρ)
    (net : Network width size ℓ π) : SameWindow t (t.passDeadline deadline random net).2.1 := by
  unfold passDeadline
  split
  · exact ⟨rfl, rfl⟩
  · rcases t.beginAfter_cases deadline t.interval random with
      ⟨point, random', -, hbegin⟩ | ⟨random', -, hbegin⟩
    · rw [hbegin]
      exact ⟨rfl, rfl⟩
    · rw [hbegin]
      exact ⟨rfl, rfl⟩

theorem poll_window (now : Instant) (t : Trickle) (random : ρ) (net : Network width size ℓ π) :
    SameWindow t (t.poll now random net).2.1 := by
  unfold poll
  split
  · exact ⟨rfl, rfl⟩
  · obtain ⟨events, ackTimer, net', hacks⟩ := t.pollAcks_frame now net
    rw [hacks]
    dsimp only
    split
    · exact ⟨rfl, rfl⟩
    · rename_i intervalTimer _
      have hpass := passDeadline_window (t.intervalTimer.deadline.getD now)
        { t with ackTimer, intervalTimer } random net'
      generalize passDeadline _ _ random net' = outcome at hpass ⊢
      obtain ⟨_ | _, rest⟩ := outcome <;> exact hpass

/-- A call keeps the window or opens one, and resets the engine for a new neighbor only where the
window has room. -/
theorem Scene.perform_windowEffect (s : Scene width size ρ ℓ π) (op : Operation width) :
    WindowEffect s.trickle op (s.perform op).1 (s.perform op).2.trickle := by
  cases op with
  | start now => exact .kept (s.trickle.start_window now s.random s.net) rfl
  | stop => exact .kept ⟨rfl, rfl⟩ rfl
  | poll now => exact .kept (s.trickle.poll_window now s.random s.net) rfl
  | reset now => exact .kept (s.trickle.reset_window now s.random) rfl
  | newNeighbor now permanentNeighbors =>
    exact s.trickle.newNeighbor_windowEffect now permanentNeighbors s.random
  | hearFrom peer => exact .kept (s.trickle.hearFrom_window peer s.net.neighbors) rfl

end Effect

/-- A window opens where the last one had no reset or is over. -/
theorem openWindow_cases (now : Instant) (t : Trickle) :
    ((t.openWindow now).windowStart = now ∧ (t.openWindow now).windowResets = 0 ∧
      (t.windowResets.toNat = 0 ∨
        t.config.resetWindow.toNat ≤ now.ticks.toNat - t.windowStart.ticks.toNat)) ∨
    ((t.openWindow now).windowStart = t.windowStart ∧
      (t.openWindow now).windowResets = t.windowResets ∧ t.windowResets.toNat ≠ 0) := by
  unfold openWindow
  split
  · rename_i hopens
    rw [Bool.or_eq_true, beq_iff_eq, Instant.hasElapsed_iff] at hopens
    exact .inl ⟨rfl, rfl, hopens.imp_left (congrArg UInt8.toNat)⟩
  · rename_i hgoes
    rw [Bool.or_eq_true, beq_iff_eq, not_or] at hgoes
    exact .inr ⟨rfl, rfl, fun hnone => hgoes.1 (UInt8.toNat_inj.mp hnone)⟩

theorem toNat_windowResets_of_room {now : Instant} {t t' : Trickle}
    (hroom : (t.openWindow now).windowResets < t.config.resetsPerWindow)
    (hresets : t'.windowResets = (t.openWindow now).windowResets + 1) :
    t'.windowResets.toNat = (t.openWindow now).windowResets.toNat + 1 := by
  have hroom' := UInt8.lt_iff_toNat_lt.mp hroom
  have hword := t.config.resetsPerWindow.toNat_lt
  rw [hresets, UInt8.toNat_add]
  exact Nat.mod_eq_of_lt (by change _ + 1 < 256; omega)

/-- Whether the resets of the window are not more than it admits. -/
def WithinLimit (t : Trickle) : Prop := t.windowResets.toNat ≤ t.config.resetsPerWindow.toNat

theorem WithinLimit.step {t t' : Trickle} {op : Operation width} {answer : Answer}
    (h : WithinLimit t) (hconfig : t'.config = t.config) (heffect : WindowEffect t op answer t') :
    WithinLimit t' := by
  rw [WithinLimit, hconfig]
  cases heffect with
  | kept hsame => rwa [hsame.2]
  | @opened now htime hsame =>
    rw [hsame.2]
    rcases openWindow_cases now t with ⟨-, hnone, -⟩ | ⟨-, hgoes, -⟩
    · rw [hnone]
      exact Nat.zero_le _
    · rwa [hgoes]
  | reset htime hroom hstart hresets =>
    rw [toNat_windowResets_of_room hroom hresets]
    exact UInt8.lt_iff_toNat_lt.mp hroom

/-- How many resets the length of one window from `begin` on may have seen, with `n` of them so
far, when no time to come lies before `clock`. -/
inductive Share (begin clock n : Nat) (t : Trickle) : Prop
  | elapsed (hover : begin + t.config.resetWindow.toNat ≤ clock)
      (hfew : n < 2 * t.config.resetsPerWindow.toNat)
  /-- The reset that opened the window came before `begin`. -/
  | earlier (hstart : t.windowStart.ticks.toNat < begin) (hfew : n < t.windowResets.toNat)
  | within (hstart : t.windowResets.toNat = 0 ∨ begin ≤ t.windowStart.ticks.toNat)
      (hfew : n < t.config.resetsPerWindow.toNat + t.windowResets.toNat)

/-- What holds of the window all along a run, for the resets from `begin` on. -/
structure Tally (begin clock n : Nat) (t : Trickle) : Prop where
  limit : WithinLimit t
  none_before : clock < begin → n = 0
  share : Share begin clock n t

namespace Tally

variable {begin clock n : Nat} {t t' : Trickle} {now : Instant}

theorem congr (h : Tally begin clock n t) (hconfig : t'.config = t.config)
    (hsame : SameWindow t t') : Tally begin clock n t' := by
  obtain ⟨hlimit, hnone, hshare⟩ := h
  obtain ⟨hstart, hresets⟩ := hsame
  refine ⟨by rwa [WithinLimit, hconfig, hresets], hnone, ?_⟩
  cases hshare with
  | elapsed hover hfew => exact .elapsed (hconfig ▸ hover) (hconfig ▸ hfew)
  | earlier hbefore hfew => exact .earlier (hstart ▸ hbefore) (hresets ▸ hfew)
  | within hwithin hfew => exact .within (hstart ▸ hresets ▸ hwithin) (hconfig ▸ hresets ▸ hfew)

/-- When another window opens, the last one is over, and has taken from the share all it can. -/
theorem openWindow (h : Tally begin clock n t) (hlength : 0 < t.config.resetWindow.toNat)
    (hnow : clock ≤ now.ticks.toNat) : Tally begin now.ticks.toNat n (t.openWindow now) := by
  obtain ⟨hlimit, hnone, hshare⟩ := h
  have hnone' : now.ticks.toNat < begin → n = 0 := fun hearly =>
    hnone (Nat.lt_of_le_of_lt hnow hearly)
  have hlimit' : t.windowResets.toNat ≤ t.config.resetsPerWindow.toNat := hlimit
  obtain ⟨windowStart, windowResets, hframe⟩ := openWindow_frame now t
  have hopens := openWindow_cases now t
  rw [hframe] at hopens ⊢
  rcases hopens with ⟨hstart, hresets, hover⟩ | ⟨hstart, hresets, hpositive⟩
  · dsimp only at hstart hresets
    subst hstart hresets
    refine ⟨Nat.zero_le _, hnone', ?_⟩
    cases hshare with
    | elapsed hpast hfew => exact .elapsed (Nat.le_trans hpast hnow) hfew
    | earlier hbefore hfew => exact .within (.inl rfl) (Nat.lt_of_lt_of_le hfew hlimit)
    | within hwithin hfew =>
      by_cases hfirst : t.windowResets.toNat = 0
      · rw [hfirst] at hfew
        exact .within (.inl rfl) hfew
      · have hbegin := hwithin.resolve_left hfirst
        have hlast := hover.resolve_left hfirst
        exact .elapsed (by dsimp only; omega) (by dsimp only; omega)
  · dsimp only at hstart hresets
    subst hstart hresets
    refine ⟨hlimit, hnone', ?_⟩
    cases hshare with
    | elapsed hpast hfew => exact .elapsed (Nat.le_trans hpast hnow) hfew
    | earlier hbefore hfew => exact .earlier hbefore hfew
    | within hwithin hfew => exact .within hwithin hfew

/-- A reset takes from the share, unless it lies before `begin` or too far after it. -/
theorem reset (h : Tally begin now.ticks.toNat n t)
    (hfirst : t.windowResets = 0 → t.windowStart = now)
    (hroom : t.windowResets < t.config.resetsPerWindow) (hconfig : t'.config = t.config)
    (hstart : t'.windowStart = t.windowStart)
    (hresets : t'.windowResets.toNat = t.windowResets.toNat + 1) :
    Tally begin now.ticks.toNat (n + if t.config.inWindow begin now then 1 else 0) t' := by
  obtain ⟨hlimit, hnone, hshare⟩ := h
  have hroom' := UInt8.lt_iff_toNat_lt.mp hroom
  have hhit : (if t.config.inWindow begin now then 1 else 0) ≤ 1 := by split <;> omega
  have hmiss (hout : now.ticks.toNat < begin ∨
      begin + t.config.resetWindow.toNat ≤ now.ticks.toNat) :
      (if t.config.inWindow begin now then 1 else 0) = 0 := by
    refine if_neg fun hin => ?_
    rw [TrickleConfig.inWindow, Bool.and_eq_true, decide_eq_true_iff, decide_eq_true_iff] at hin
    omega
  refine ⟨by rwa [WithinLimit, hconfig, hresets], fun hearly => ?_, ?_⟩
  · rw [hnone hearly, hmiss (.inl hearly)]
  · cases hshare with
    | elapsed hover hfew =>
      rw [hmiss (.inr hover)]
      exact .elapsed (hconfig ▸ hover) (hconfig ▸ hfew)
    | earlier hbefore hfew => exact .earlier (hstart ▸ hbefore) (by omega)
    | within hwithin hfew =>
      by_cases hearly : t.windowStart.ticks.toNat < begin
      · -- this reset opens the window before `begin`
        have hzero := hwithin.resolve_right (Nat.not_le.mpr hearly)
        have hnow : t.windowStart = now := hfirst (UInt8.toNat_inj.mp hzero)
        rw [hnow] at hearly
        rw [hnone hearly, hmiss (.inl hearly)]
        exact .earlier (by rwa [hstart, hnow]) (by omega)
      · exact .within (.inr (hstart ▸ Nat.not_lt.mp hearly)) (by rw [hconfig]; omega)

theorem lt (h : Tally begin clock n t) : n < 2 * t.config.resetsPerWindow.toNat := by
  have hlimit : t.windowResets.toNat ≤ t.config.resetsPerWindow.toNat := h.limit
  cases h.share with
  | elapsed hover hfew => exact hfew
  | earlier hbefore hfew => omega
  | within hwithin hfew => omega

theorem step {op : Operation width} {ops : List (Operation width)} {answer : Answer}
    (h : Tally begin clock n t) (hlength : 0 < t.config.resetWindow.toNat)
    (hclock : ∀ time ∈ times (op :: ops), clock ≤ time.ticks.toNat)
    (htimes : Chronological (op :: ops)) (hconfig : t'.config = t.config)
    (heffect : WindowEffect t op answer t') :
    ∃ clock', (∀ time ∈ times ops, clock' ≤ time.ticks.toNat) ∧
      Tally begin clock' (n + (churnReset? op answer).toList.countP (t.config.inWindow begin))
        t' := by
  cases heffect with
  | kept hsame hnone =>
    rw [hnone]
    exact ⟨clock, fun time hmem => hclock time (mem_times_of_mem hmem), h.congr hconfig hsame⟩
  | @opened now htime hsame hnone =>
    have hopened := h.openWindow hlength (hclock now (mem_times_of_time htime))
    rw [hnone]
    exact ⟨now.ticks.toNat, (chronological_cons.mp htimes).1 now htime,
      hopened.congr (hconfig.trans (config_openWindow now t).symm) hsame⟩
  | @reset now htime hroom hstart hresets hreset =>
    have hopened := h.openWindow hlength (hclock now (mem_times_of_time htime))
    have hfirst : (t.openWindow now).windowResets = 0 → (t.openWindow now).windowStart = now := by
      rcases openWindow_cases now t with ⟨hopens, -⟩ | ⟨-, hgoes, hpositive⟩
      · exact fun _ => hopens
      · exact fun hzero => absurd (congrArg UInt8.toNat (hgoes.symm.trans hzero)) hpositive
    have hcounted := hopened.reset hfirst (by rwa [config_openWindow])
      (hconfig.trans (config_openWindow now t).symm) hstart
      (toNat_windowResets_of_room hroom hresets)
    rw [config_openWindow] at hcounted
    rw [hreset, Option.toList_some, List.countP_singleton]
    exact ⟨now.ticks.toNat, (chronological_cons.mp htimes).1 now htime, hcounted⟩

end Tally

section Run

variable [RandomSource ρ] [LinkLayer ℓ width]

theorem WithinLimit.run (ops : List (Operation width)) {s : Scene width size ρ ℓ π}
    (h : WithinLimit s.trickle) : WithinLimit (run ops s).2.trickle := by
  induction ops generalizing s with
  | nil => exact h
  | cons op ops ih =>
    exact ih (h.step (s.perform_clockEffect op).1.config (s.perform_windowEffect op))

theorem Tally.run {begin clock n : Nat} (ops : List (Operation width))
    {s : Scene width size ρ ℓ π} (h : Tally begin clock n s.trickle)
    (hlength : 0 < s.trickle.config.resetWindow.toNat)
    (hclock : ∀ time ∈ times ops, clock ≤ time.ticks.toNat) (htimes : Chronological ops) :
    ∃ clock', Tally begin clock'
      (n + (churnResets ops s).countP (s.trickle.config.inWindow begin)) (run ops s).2.trickle := by
  induction ops generalizing s clock n with
  | nil => exact ⟨clock, h⟩
  | cons op ops ih =>
    have hconfig := (s.perform_clockEffect op).1.config
    obtain ⟨clock', hclock', hstep⟩ :=
      h.step hlength hclock htimes hconfig (s.perform_windowEffect op)
    obtain ⟨clock'', hrun⟩ := ih hstep (hconfig.symm ▸ hlength) hclock'
      (chronological_cons.mp htimes).2
    rw [hconfig, Nat.add_assoc, ← List.countP_append] at hrun
    exact ⟨clock'', hrun⟩

theorem churnResets_eq_nil (ops : List (Operation width)) {s : Scene width size ρ ℓ π}
    (hnone : s.trickle.config.resetsPerWindow = 0) : churnResets ops s = [] := by
  induction ops generalizing s with
  | nil => rfl
  | cons op ops ih =>
    have hrest := ih ((congrArg TrickleConfig.resetsPerWindow
      (s.perform_clockEffect op).1.config).trans hnone)
    rw [churnResets, hrest, List.append_nil]
    cases s.perform_windowEffect op with
    | kept hsame hreset => rw [hreset, Option.toList_none]
    | opened htime hsame hreset => rw [hreset, Option.toList_none]
    | reset htime hroom =>
      rw [hnone] at hroom
      exact absurd hroom UInt8.not_lt_zero

theorem countP_churnResets_le (c : TrickleConfig) (begin : Nat) (random : ρ)
    (net : Network width size ℓ π) {ops : List (Operation width)} (htimes : Chronological ops) :
    (churnResets ops ⟨stopped c, random, net⟩).countP (c.inWindow begin) ≤
      2 * c.resetsPerWindow.toNat - 1 := by
  by_cases hnone : c.resetsPerWindow = 0
  · rw [churnResets_eq_nil ops hnone]
    exact Nat.zero_le _
  · have hpositive : 0 < c.resetsPerWindow.toNat :=
      Nat.pos_of_ne_zero fun h => hnone (UInt8.toNat_inj.mp h)
    by_cases hlength : 0 < c.resetWindow.toNat
    · have hstopped : Tally begin 0 0 (stopped c) :=
        ⟨Nat.zero_le _, fun _ => rfl, .within (.inl rfl) hpositive⟩
      obtain ⟨clock, hrun⟩ := Tally.run ops (s := ⟨stopped c, random, net⟩) hstopped hlength
        (fun _ _ => Nat.zero_le _) htimes
      have hfew := hrun.lt
      rw [config_run, Nat.zero_add] at hfew
      exact Nat.le_sub_one_of_lt hfew
    · have hempty : ∀ now ∈ churnResets ops ⟨stopped c, random, net⟩,
          ¬ c.inWindow begin now = true := fun now _ hin => by
        rw [TrickleConfig.inWindow, Bool.and_eq_true, decide_eq_true_iff, decide_eq_true_iff] at hin
        omega
      rw [List.countP_eq_zero.mpr hempty]
      exact Nat.zero_le _

/-- The length of one window never sees more resets caused by new neighbors than two windows
admit, less one, however it lies to the windows that the engine opens. The engine never counts more
in a window than it admits, so its counter never leaves its word. -/
theorem churn_resets_bounded (c : TrickleConfig) (random : ρ) (net : Network width size ℓ π)
    (ops : List (Operation width)) (htimes : Chronological ops) :
    let s := (run ops ⟨stopped c, random, net⟩).2
    (∀ begin, (churnResets ops ⟨stopped c, random, net⟩).countP (c.inWindow begin) ≤
      2 * c.resetsPerWindow.toNat - 1) ∧
    (c.resetsPerWindow = 0 → churnResets ops ⟨stopped c, random, net⟩ = []) ∧
    s.trickle.windowResets ≤ c.resetsPerWindow ∧
    ∀ now permanentNeighbors point,
      (s.perform (.newNeighbor now permanentNeighbors)).1 = .event (.ok (some (.reset point))) →
        (s.perform (.newNeighbor now permanentNeighbors)).2.trickle.windowResets.toNat =
          (s.trickle.openWindow now).windowResets.toNat + 1 := by
  intro s
  have hlimit : WithinLimit s.trickle :=
    WithinLimit.run ops (s := ⟨stopped c, random, net⟩) (Nat.zero_le _)
  have hconfig : s.trickle.config = c := config_run ops _
  refine ⟨fun begin => countP_churnResets_le c begin random net htimes,
    fun hnone => churnResets_eq_nil ops hnone, ?_, fun now permanentNeighbors point hanswer => ?_⟩
  · rw [WithinLimit, hconfig] at hlimit
    exact UInt8.le_iff_toNat_le.mpr hlimit
  · have heffect := s.perform_windowEffect (.newNeighbor now permanentNeighbors)
    rw [hanswer] at heffect
    cases heffect with
    | kept hsame hnone => cases hnone
    | opened htime hsame hnone => cases hnone
    | reset htime hroom hstart hresets hreset =>
      cases htime
      exact toNat_windowResets_of_room hroom hresets

end Run

/-- An engine that admits two resets in a thousand ticks. -/
def twoInThousandTicks : TrickleConfig where
  enabled := true
  minInterval := 100
  doublings := 3
  redundancy := 2
  resetWindow := 1000
  resetsPerWindow := 2
  ackWait := 60

/-- New neighbors come at the end of one window and at the begin of the next one. -/
def acrossWindows : List (Operation 8) :=
  [.start .zero, .poll ⟨100⟩, .newNeighbor ⟨150⟩ 0, .poll ⟨200⟩, .poll ⟨250⟩,
    .newNeighbor ⟨1100⟩ 0, .poll ⟨1150⟩, .poll ⟨1200⟩, .newNeighbor ⟨1201⟩ 0, .poll ⟨1251⟩,
    .poll ⟨1301⟩, .newNeighbor ⟨1310⟩ 0, .poll ⟨1360⟩, .poll ⟨1410⟩, .newNeighbor ⟨1500⟩ 0]

/-- Three resets within the length of one window are as many as there can be. -/
theorem churn_resets_bounded_twoInThousandTicks :
    Chronological acrossWindows ∧
    churnResets acrossWindows (lowest twoInThousandTicks) = [⟨150⟩, ⟨1100⟩, ⟨1201⟩, ⟨1310⟩] ∧
    (churnResets acrossWindows (lowest twoInThousandTicks)).countP
      (twoInThousandTicks.inWindow 1100) = 3 ∧
    (∀ begin, (churnResets acrossWindows (lowest twoInThousandTicks)).countP
      (twoInThousandTicks.inWindow begin) ≤ 3) := by
  have htimes : Chronological acrossWindows := by decide
  have hresets : churnResets acrossWindows (lowest twoInThousandTicks) =
      [⟨150⟩, ⟨1100⟩, ⟨1201⟩, ⟨1310⟩] := by decide
  obtain ⟨hbound, -⟩ := churn_resets_bounded twoInThousandTicks
    (lowest twoInThousandTicks).random (lowest twoInThousandTicks).net acrossWindows htimes
  exact ⟨htimes, hresets, by rw [hresets]; decide, hbound⟩

end Trickle

end MeshSecurity
