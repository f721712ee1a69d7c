import MeshSecurity.Proofs.ClockSteps
import MeshSecurity.Proofs.HelloHistory
import MeshSecurity.Proofs.IntervalBounds

/-!
# A HELLO is suppressed only by enough neighbors

The counter may count a neighbor twice in one interval, but only where a HELLO of ours lies between
its two, and the counter may be the one of an earlier interval, but only after a start. While an
engine waits for the transmission point of an interval neither is so, and there each HELLO that was
counted has a sender of its own.
-/

namespace MeshSecurity.Trickle

variable {width size : Nat} {ρ ℓ π : Type}

/-- Whether the engine runs towards the transmission point of its interval. -/
def AwaitsTransmission (t : Trickle) : Prop := t.isRunning = true ∧ t.phase = .transmission

/-- Whether an interval began after another one or by a reset and no HELLO of ours was sent in
it. -/
def Quiet : List (Sign width) → Prop
  | [] => False
  | .sent :: _ => False
  | .started :: _ => False
  | .expired :: _ => True
  | .reset :: _ => True
  | .heard _ :: h => Quiet h

theorem notMem_senders_of_silent {peer : Address width} {h : List (Sign width)} (hquiet : Quiet h)
    (hsilent : silent peer h = true) : peer ∉ senders h := by
  induction h with
  | nil => exact Finset.notMem_empty peer
  | cons sign h ih =>
    cases sign with
    | heard sender =>
      rw [silent, Bool.and_eq_true, bne_iff_ne] at hsilent
      rw [senders, Finset.mem_insert, not_or]
      exact ⟨Ne.symm hsilent.1, ih hquiet hsilent.2⟩
    | sent => exact hquiet.elim
    | started => exact hquiet.elim
    | expired => exact Finset.notMem_empty peer
    | reset => exact Finset.notMem_empty peer

/-- In a quiet interval no neighbor counts twice. -/
theorem counted_le_card_senders {h : List (Sign width)} (hquiet : Quiet h) :
    counted h ≤ (senders h).card := by
  induction h with
  | nil => exact hquiet.elim
  | cons sign h ih =>
    cases sign with
    | heard peer =>
      have hrest : counted h ≤ (senders h).card := ih hquiet
      cases hsilent : silent peer h with
      | true =>
        have hnew : peer ∉ senders h := notMem_senders_of_silent hquiet hsilent
        rw [counted, hsilent, if_pos rfl, senders, Finset.card_insert_of_notMem hnew]
        omega
      | false =>
        rw [counted, hsilent, if_neg Bool.false_ne_true, senders]
        exact hrest.trans (Finset.card_le_card (Finset.subset_insert peer _))
    | sent => exact hquiet.elim
    | started => exact hquiet.elim
    | expired => exact Nat.zero_le _
    | reset => exact Nat.zero_le _

section Step

variable {op : Operation width} {t t' : Trickle} {answer : Answer} {calls : List LinkCall}

theorem Quiet.append {h : List (Sign width)} (hquiet : Quiet h) {new : List (Sign width)}
    (hnew : ∀ sign ∈ new, sign ≠ .sent ∧ sign ≠ .started) : Quiet (new ++ h) := by
  induction new with
  | nil => exact hquiet
  | cons sign new ih =>
    have hrest := ih fun sign hmem => hnew sign (List.mem_cons_of_mem _ hmem)
    cases sign with
    | heard peer => exact hrest
    | sent => exact absurd rfl (hnew .sent List.mem_cons_self).1
    | started => exact absurd rfl (hnew .started List.mem_cons_self).2
    | expired => trivial
    | reset => trivial

/-- HELLOs of ours and starts are seen from the events that a call reports. -/
theorem exists_reported {sign : Sign width} (hsign : sign ∈ signs op answer)
    (hours : sign = .sent ∨ sign = .started) :
    ∃ event ∈ reported answer, eventSign? event = some sign := by
  unfold signs at hsign
  split at hsign
  · exact List.mem_filterMap.mp hsign
  · rw [List.mem_singleton] at hsign
    subst hsign
    rcases hours with hours | hours <;> cases hours
  · exact ⟨_, List.mem_singleton.mpr rfl, Option.mem_toList.mp hsign⟩
  · rw [List.mem_singleton] at hsign
    subst hsign
    rcases hours with hours | hours <;> cases hours
  · cases hsign

theorem ClockEffect.quiet (heffect : ClockEffect t op answer calls t') {h : List (Sign width)}
    (hquiet : AwaitsTransmission t → Quiet h) (hawaits : AwaitsTransmission t') :
    Quiet ((signs op answer).reverse ++ h) := by
  cases heffect with
  | kept hreported halike =>
    have hbefore : AwaitsTransmission t := by
      rw [AwaitsTransmission, isRunning, halike.intervalTimer, halike.phase] at hawaits
      exact hawaits
    refine (hquiet hbefore).append fun sign hmem => ?_
    rw [← not_or]
    intro hours
    obtain ⟨event, hevent, hsign⟩ := exists_reported (List.mem_reverse.mp hmem) hours
    rw [hreported event hevent] at hsign
    cases hsign
  | stopped => exact absurd hawaits.1 Bool.false_ne_true
  | started => cases hawaits.2
  | reset htime => cases op <;> trivial
  | polled henabled hacks hinterval =>
    cases hinterval with
    | early => cases hacks <;> exact hquiet hawaits
    | fired hdue hpass =>
      cases hpass with
      | transmission => cases hawaits.2
      | ended hphase hresult =>
        rcases hresult with rfl | rfl
        · cases hacks <;> trivial
        · trivial

/-- A poll suppresses a HELLO of ours only at the transmission point of a running interval. -/
theorem ClockEffect.suppressed {now : Instant} {n : UInt16}
    (heffect : ClockEffect t (.poll now : Operation width) answer calls t')
    (hsuppressed : .suppressed n ∈ reported answer) :
    t.config.enabled = true ∧ AwaitsTransmission t ∧ n = t.counter ∧
      t.config.redundancy ≤ t.counter := by
  cases heffect with
  | kept hreported => cases hreported _ hsuppressed
  | reset => cases List.mem_singleton.mp hsuppressed
  | @polled _ events _ _ _ _ _ henabled hacks hinterval =>
    have hnone : .suppressed n ∉ events := by cases hacks <;> simp
    obtain ⟨ackTimer, rfl⟩ := hacks.frame
    cases hinterval with
    | early => simp [reported, Except.map, hnone] at hsuppressed
    | fired hdue hpass =>
      cases hpass with
      | ended hphase hresult =>
        rcases hresult with rfl | rfl <;> simp [reported, Except.map, hnone] at hsuppressed
      | transmission hphase hpass =>
        have hrunning : t.isRunning = true := (Timer.due_iff.mp hdue).1
        cases hpass with
        | suppressed hmany =>
          simp only [reported, Except.map, List.mem_append, hnone, List.mem_singleton, false_or,
            TrickleEvent.suppressed.injEq] at hsuppressed
          exact ⟨henabled, ⟨hrunning, hphase⟩, hsuppressed, hmany⟩
        | awaiting => simp [reported, Except.map, hnone] at hsuppressed
        | refused => simp [reported, Except.map, hnone] at hsuppressed
        | sent => simp [reported, Except.map, hnone] at hsuppressed

end Step

section Run

variable [RandomSource ρ] [LinkLayer ℓ width]

/-- While the engine runs towards a transmission point, the interval has been quiet. -/
theorem quiet_history (ops : List (Operation width)) {s : Scene width size ρ ℓ π}
    {h : List (Sign width)} (hquiet : AwaitsTransmission s.trickle → Quiet h) :
    AwaitsTransmission (s.run ops).2.trickle → Quiet (history ops s h) := by
  induction ops generalizing s h with
  | nil => exact hquiet
  | cons op ops ih => exact ih ((s.perform_clockEffect op).1.quiet hquiet)

theorem history_append (ops : List (Operation width)) (s : Scene width size ρ ℓ π)
    (h past : List (Sign width)) : history ops s (h ++ past) = history ops s h ++ past := by
  induction ops generalizing s h with
  | nil => rfl
  | cons op ops ih => rw [history, history, ← List.append_assoc, ih]

end Run

theorem senders_append_expired (h past : List (Sign width)) :
    senders (h ++ .expired :: past) = senders h := by
  induction h with
  | nil => rfl
  | cons sign h ih =>
    cases sign with
    | heard peer => exact congrArg (insert peer) ih
    | sent => exact ih
    | started => rfl
    | expired => rfl
    | reset => rfl

/-- The neighbors whose HELLO is noted in the table. -/
def noted (table : NeighborTable width size) : List (Address width) :=
  table.permanentPeers.filter fun peer =>
    ((table.lookup peer).bind (·.permanent)).any (·.heard)

/-- A history that explains the notes of the table. -/
def past (table : NeighborTable width size) : List (Sign width) :=
  .expired :: (noted table).map .heard

theorem silent_heard (peer : Address width) (peers : List (Address width)) :
    silent peer (peers.map .heard) = !peers.contains peer := by
  induction peers with
  | nil => rfl
  | cons sender peers ih =>
    rw [List.map_cons, silent, ih, List.contains_cons, Bool.not_or, bne, BEq.comm]

/-- Whatever was noted before the engine is created, counter and table follow from what was done
before and after. -/
theorem tracks_past {c : TrickleConfig} (henabled : c.enabled = true)
    (table : NeighborTable width size) :
    Tracks table.permanentPeers (past table) (.stopped c) table where
  enabled := henabled
  counter := rfl
  notes := by
    intro peer sender hlookup
    obtain ⟨entry, hentry, hpermanent⟩ := Option.bind_eq_some_iff.mp hlookup
    have hmem := NeighborTable.mem_permanentPeers_of_lookup hentry
      (Option.isSome_iff_exists.mpr ⟨sender, hpermanent⟩)
    have hsilent : silent peer (past table) = !(noted table).contains peer := silent_heard peer _
    rw [hsilent, Bool.not_not, Bool.eq_iff_iff, List.contains_iff_mem, noted, List.mem_filter,
      hlookup]
    simp [hmem]
  permanent := rfl
  known := Finset.empty_subset _

/-- In every run of the engine, a poll that suppresses a HELLO of ours for `n` others counts at
least as many as make it redundant, and as many permanent neighbors sent a HELLO since the interval
began. -/
theorem suppression_justified [RandomSource ρ] [LinkLayer ℓ width] (c : TrickleConfig)
    (table : NeighborTable width size) (random : ρ) (link : ℓ) (routing : π)
    (ops : List (Operation width)) (now : Instant) (n : UInt16) :
    let s : Scene width size ρ ℓ π := ⟨.stopped c, random, ⟨table, link, routing⟩⟩
    .suppressed n ∈ reported ((s.run ops).2.perform (.poll now)).1 →
      c.redundancy ≤ n ∧ n.toNat ≤ (senders (history ops s [])).card ∧
        senders (history ops s []) ⊆ table.permanentPeers.toFinset := by
  intro s hsuppressed
  obtain ⟨henabled, hawaits, rfl, hmany⟩ :=
    ((s.run ops).2.perform_clockEffect (.poll now)).1.suppressed hsuppressed
  rw [Scene.config_run] at henabled hmany
  have htracks := (tracks_past henabled table).run ops (s := s)
  have hquiet : Quiet (history ops s (past table)) :=
    quiet_history ops (fun hstopped => absurd hstopped.1 Bool.false_ne_true) hawaits
  have hcounter := htracks.counter
  have hcounted := counted_le_card_senders hquiet
  have hsenders : senders (history ops s (past table)) = senders (history ops s []) :=
    (congrArg senders (history_append ops s [] (past table))).trans (senders_append_expired _ _)
  rw [hsenders] at hcounted
  refine ⟨hmany, ?_, hsenders ▸ htracks.known⟩
  rw [hcounter]
  omega

/-- The neighbor table of this engine has two permanent neighbors. -/
def twoNeighbors : NeighborTable 8 4 :=
  ((NeighborTable.empty.insert ⟨.repeated 2, none, some .fresh⟩).2.insert
    ⟨.repeated 3, none, some .fresh⟩).2

/-- Both neighbors are heard in the second interval, one of them twice. -/
def bothHeard : List (Operation 8) :=
  [.start .zero, .poll ⟨3⟩, .hearFrom (.repeated 2), .hearFrom (.repeated 2),
    .hearFrom (.repeated 3)]

def besideTwoNeighbors : Scene 8 4 ConstantWord (Radio 8) Unit :=
  ⟨stopped threeTicks, ⟨0⟩, ⟨twoNeighbors, .instructed none [], ()⟩⟩

theorem suppression_justified_twoNeighbors :
    .suppressed 2 ∈ reported ((besideTwoNeighbors.run bothHeard).2.perform (.poll ⟨6⟩)).1 ∧
    threeTicks.redundancy ≤ 2 ∧ 2 ≤ (senders (history bothHeard besideTwoNeighbors [])).card := by
  have hsuppressed :
      .suppressed 2 ∈ reported ((besideTwoNeighbors.run bothHeard).2.perform (.poll ⟨6⟩)).1 := by
    decide
  obtain ⟨hmany, hsenders, -⟩ := suppression_justified threeTicks twoNeighbors (⟨0⟩ : ConstantWord)
    (.instructed none [] : Radio 8) () bothHeard ⟨6⟩ 2 hsuppressed
  exact ⟨hsuppressed, hmany, hsenders⟩

end MeshSecurity.Trickle
