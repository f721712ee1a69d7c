import MeshSecurity.Proofs.HelloHistory
import MeshSecurity.Random.Generator
import MeshSecurity.Simulation.Radio

/-!
# What the redundancy counter counts

A HELLO counts if its sender was not heard since our last broadcast, and the counter is cleared at
the begin of an interval. So it is the number of neighbors heard in the interval only as long as
both say of every HELLO the same: that it is the first one of its sender.
-/

namespace MeshSecurity.Trickle

variable {width size : Nat} {ρ ℓ π : Type}

/-- After the first end of an interval, a HELLO is the first of its sender since our last one
whenever it is the first of its sender in the interval, and not else; and the engine is started
only where nobody was heard in the interval. -/
def InStep : List (Sign width) → Prop
  | [] => True
  | .heard peer :: h => (.expired ∈ h → (silent peer h = true ↔ peer ∉ senders h)) ∧ InStep h
  | .started :: h => (.expired ∈ h → senders h = ∅) ∧ InStep h
  | _ :: h => InStep h

theorem counted_of_inStep {h : List (Sign width)} (hexpired : .expired ∈ h) (hstep : InStep h) :
    counted h = (senders h).card := by
  induction h with
  | nil => cases hexpired
  | cons sign h ih =>
    cases sign with
    | heard peer =>
      obtain ⟨hfirst, hrest⟩ := hstep
      have hbefore : .expired ∈ h := (List.mem_cons.mp hexpired).resolve_left (by simp)
      have hcount := ih hbefore hrest
      rw [counted, senders]
      by_cases hmem : peer ∈ senders h
      · rw [if_neg fun hsilent => (hfirst hbefore).mp hsilent hmem, Finset.insert_eq_of_mem hmem,
          hcount]
      · rw [if_pos ((hfirst hbefore).mpr hmem), Finset.card_insert_of_notMem hmem, hcount]
    | sent => exact ih ((List.mem_cons.mp hexpired).resolve_left (by simp)) hstep
    | started =>
      obtain ⟨hnone, hrest⟩ := hstep
      have hbefore : .expired ∈ h := (List.mem_cons.mp hexpired).resolve_left (by simp)
      have hcount := ih hbefore hrest
      rw [hnone hbefore] at hcount
      exact hcount
    | expired => rfl
    | reset => rfl

/-- Where the counter is right before a call and after it, the call was in step. -/
theorem inStep_of_effect {t t' : Trickle} {neighbors neighbors' : NeighborTable width size}
    {new h : List (Sign width)} (heffect : CountEffect t neighbors new t' neighbors')
    (hstep : InStep h) (hroom : (senders h).card < 65535)
    (hafter : .expired ∈ new ++ h → min 65535 (counted (new ++ h)) = (senders (new ++ h)).card) :
    InStep (new ++ h) := by
  have hstarted (hcount : .expired ∈ h → min 65535 (counted h) = 0) : InStep (.started :: h) := by
    refine ⟨fun hexpired => ?_, hstep⟩
    have hbefore := counted_of_inStep hexpired hstep
    have hzero := hcount hexpired
    exact Finset.card_eq_zero.mp (by omega)
  cases heffect with
  | nothing => exact hstep
  | sent => exact hstep
  | started => exact hstarted fun hexpired => hafter (by simp [hexpired])
  | startedAndSent => exact hstarted fun hexpired => hafter (by simp [hexpired])
  | begun hsign => rcases hsign with rfl | rfl <;> exact hstep
  | @heard peer sender hsender =>
    change InStep (.heard peer :: h)
    refine ⟨fun hexpired => ?_, hstep⟩
    have hbefore := counted_of_inStep hexpired hstep
    have hcount := hafter (List.mem_cons_of_mem _ hexpired)
    rw [List.singleton_append, counted, senders] at hcount
    -- the numbers were equal before, so what they say of this HELLO shows in them after it
    by_cases hmem : peer ∈ senders h
    · rw [Finset.insert_eq_of_mem hmem] at hcount
      have hheard : ¬ silent peer h = true := fun hsilent => by
        rw [if_pos hsilent] at hcount
        omega
      exact iff_of_false hheard (not_not_intro hmem)
    · rw [Finset.card_insert_of_notMem hmem] at hcount
      have hsilent : silent peer h = true := by
        by_contra hheard
        rw [if_neg hheard] at hcount
        omega
      exact iff_of_true hsilent hmem

section Run

variable [RandomSource ρ] [LinkLayer ℓ width]

theorem inStep_history {peers : List (Address width)} (hroom : peers.length < 65535)
    (ops : List (Operation width)) {s : Scene width size ρ ℓ π} {h : List (Sign width)}
    (htracks : Tracks peers h s.trickle s.net.neighbors) (hstep : InStep h)
    (hequal : ∀ earlier, earlier <+: ops → .expired ∈ history earlier s h →
      (s.run earlier).2.trickle.counter.toNat = (senders (history earlier s h)).card) :
    InStep (history ops s h) := by
  induction ops generalizing s h with
  | nil => exact hstep
  | cons op ops ih =>
    have heffect := s.perform_countEffect op
    have hafter := htracks.effect heffect
    have hsenders : (senders h).card < 65535 :=
      Nat.lt_of_le_of_lt ((Finset.card_le_card htracks.known).trans (List.toFinset_card_le peers))
        hroom
    refine ih hafter ?_ ?_
    · refine inStep_of_effect heffect hstep hsenders fun hexpired => ?_
      have hcount := hequal [op] (List.prefix_append [op] ops) hexpired
      have hcounter := hafter.counter
      exact hcounter.symm.trans hcount
    · intro earlier hearlier
      exact hequal (op :: earlier) (List.cons_prefix_cons.mpr ⟨rfl, hearlier⟩)

/-- The counter is the number of HELLOs that were the first of their sender since our last one. It
is the number of neighbors heard in the interval as long as HELLOs come in step, and if they do
not, then at some time it is another number. -/
theorem counter_of_run {c : TrickleConfig} (henabled : c.enabled = true)
    {table : NeighborTable width size}
    (hfresh : ∀ entry ∈ table.entries, ∀ sender, entry.permanent = some sender →
      sender.heard = false)
    (hfew : table.count .permanent < 65536) (random : ρ) (link : ℓ) (routing : π)
    (ops : List (Operation width)) :
    let s : Scene width size ρ ℓ π := ⟨.stopped c, random, ⟨table, link, routing⟩⟩
    (s.run ops).2.trickle.counter.toNat = min 65535 (counted (history ops s [])) ∧
    (InStep (history ops s []) → .expired ∈ history ops s [] →
      (s.run ops).2.trickle.counter.toNat = (senders (history ops s [])).card) ∧
    (table.count .permanent < 65535 →
      (∀ earlier, earlier <+: ops → .expired ∈ history earlier s [] →
        (s.run earlier).2.trickle.counter.toNat = (senders (history earlier s [])).card) →
      InStep (history ops s [])) := by
  intro s
  have hstart : Tracks table.permanentPeers [] s.trickle s.net.neighbors :=
    tracks_stopped henabled hfresh
  have hrun := hstart.run ops
  have hlength : table.permanentPeers.length = table.count .permanent := by
    rw [NeighborTable.permanentPeers, List.length_map, ← List.countP_eq_length_filter]
    rfl
  refine ⟨hrun.counter, ?_, ?_⟩
  · intro hstep hexpired
    have hcounted := counted_of_inStep hexpired hstep
    have hknown : (senders (history ops s [])).card ≤ table.permanentPeers.length :=
      (Finset.card_le_card hrun.known).trans (List.toFinset_card_le _)
    rw [hrun.counter, hcounted]
    omega
  · intro hfewer hequal
    exact inStep_history (hlength ▸ hfewer) ops hstart trivial hequal

end Run

/-- An engine that waits for no answers and finds two HELLOs enough. -/
def hundredTicks : TrickleConfig where
  enabled := true
  minInterval := 100
  doublings := 4
  redundancy := 2
  resetWindow := 0
  resetsPerWindow := 0
  ackWait := 0

/-- The neighbor table of this engine has one permanent neighbor. -/
def oneNeighbor : NeighborTable 8 4 :=
  (NeighborTable.empty.insert ⟨.repeated 2, none, some .fresh⟩).2

def besideOneNeighbor : Scene 8 4 ConstantWord (Radio 8) Unit :=
  ⟨stopped hundredTicks, ⟨0⟩, ⟨oneNeighbor, .instructed none [], ()⟩⟩

/-- The neighbor is heard in the second interval, before the transmission point. -/
def heardOnce : List (Operation 8) :=
  [.start .zero, .poll ⟨100⟩, .hearFrom (.repeated 2)]

/-- It is heard again, after our HELLO and in the third interval. -/
def heardOnAndOn : List (Operation 8) :=
  heardOnce ++ [.poll ⟨200⟩, .hearFrom (.repeated 2), .poll ⟨300⟩, .hearFrom (.repeated 2)]

theorem history_heardOnce :
    history heardOnce besideOneNeighbor [] = [.heard (.repeated 2), .expired, .sent, .started] :=
  rfl

theorem counter_of_run_oneNeighbor :
    hundredTicks.enabled = true ∧
    (∀ entry ∈ oneNeighbor.entries, ∀ sender, entry.permanent = some sender →
      sender.heard = false) ∧
    oneNeighbor.count .permanent < 65535 ∧
    InStep (history heardOnce besideOneNeighbor []) ∧
    .expired ∈ history heardOnce besideOneNeighbor [] ∧
    (besideOneNeighbor.run heardOnce).2.trickle.counter.toNat =
      (senders (history heardOnce besideOneNeighbor [])).card := by
  have hfresh : ∀ entry ∈ oneNeighbor.entries, ∀ sender, entry.permanent = some sender →
      sender.heard = false := by
    have hentries : oneNeighbor.entries = [⟨.repeated 2, none, some .fresh⟩] := rfl
    rw [hentries]
    simp [Permanent.fresh]
  have hstep : InStep (history heardOnce besideOneNeighbor []) := by
    rw [history_heardOnce]
    exact ⟨fun _ => iff_of_true rfl (by simp [senders]), fun h => by simp at h, trivial⟩
  have hexpired : .expired ∈ history heardOnce besideOneNeighbor [] := by
    rw [history_heardOnce]
    simp
  obtain ⟨-, hcounter, -⟩ := counter_of_run (c := hundredTicks) rfl hfresh (by decide)
    (⟨0⟩ : ConstantWord) (Radio.instructed none [] : Radio 8) () heardOnce
  exact ⟨rfl, hfresh, by decide, hstep, hexpired, hcounter hstep hexpired⟩

/-- In the second interval the one neighbor counts twice, in the third one not at all. -/
theorem counter_wrong_oneNeighbor :
    let second := heardOnAndOn.take 5
    .expired ∈ history second besideOneNeighbor [] ∧
    (besideOneNeighbor.run second).2.trickle.counter = 2 ∧
    (senders (history second besideOneNeighbor [])).card = 1 ∧
    (besideOneNeighbor.run heardOnAndOn).2.trickle.counter = 0 ∧
    (senders (history heardOnAndOn besideOneNeighbor [])).card = 1 := by
  refine ⟨by decide, rfl, rfl, rfl, rfl⟩

end MeshSecurity.Trickle
