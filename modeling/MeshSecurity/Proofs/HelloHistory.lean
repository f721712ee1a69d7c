import Mathlib.Data.Finset.Card
import MeshSecurity.Proofs.NeighborLookup
import MeshSecurity.Proofs.TrickleSteps

/-!
# HELLOs heard and sent

What the calls of a run yield tells when neighbors were heard, when HELLOs of ours were broadcast
and when intervals began. Counter and neighbor table follow from this history: the counter is
cleared when an interval begins, and the notes of who was heard when a HELLO of ours is broadcast.
-/

namespace MeshSecurity.Trickle

/-- What a call does that matters to the counter. -/
inductive Sign (width : Nat)
  | heard (peer : Address width)
  /-- A HELLO of ours was broadcast. -/
  | sent
  | started
  /-- An interval began at the end of another one. -/
  | expired
  /-- An interval of the smallest size began. -/
  | reset
deriving DecidableEq

variable {width size : Nat} {ρ ℓ π : Type}

/-- What an event of the engine stands for. -/
def eventSign? : TrickleEvent → Option (Sign width)
  | .started _ => some .started
  | .helloBroadcast => some .sent
  | .intervalStarted _ _ => some .expired
  | .reset _ => some .reset
  | _ => none

/-- What a call did, to be seen from what it yields. A poll yields an error only when it begins an
interval without a drawn transmission point. -/
def signs : Operation width → Answer → List (Sign width)
  | _, .events (.ok events) => events.filterMap eventSign?
  | .poll _, .events (.error _) => [.expired]
  | _, .event (.ok (some event)) => (eventSign? event).toList
  | .hearFrom peer, .heard (some _) => [.heard peer]
  | _, _ => []

/-- What the calls of a run did, the latest first, put before what was done earlier. -/
def history [RandomSource ρ] [LinkLayer ℓ width] :
    List (Operation width) → Scene width size ρ ℓ π → List (Sign width) → List (Sign width)
  | [], _, h => h
  | op :: ops, s, h => history ops (s.perform op).2 ((signs op (s.perform op).1).reverse ++ h)

/-- Whether no HELLO of the peer came since our last one. -/
def silent (peer : Address width) : List (Sign width) → Bool
  | [] => true
  | .sent :: _ => true
  | .heard sender :: h => sender != peer && silent peer h
  | _ :: h => silent peer h

/-- The HELLOs since the counter was cleared that were the first of their sender since our last
one. -/
def counted : List (Sign width) → Nat
  | [] => 0
  | .expired :: _ => 0
  | .reset :: _ => 0
  | .heard peer :: h => if silent peer h then counted h + 1 else counted h
  | _ :: h => counted h

/-- Who was heard since the interval began. -/
def senders : List (Sign width) → Finset (Address width)
  | [] => ∅
  | .started :: _ => ∅
  | .expired :: _ => ∅
  | .reset :: _ => ∅
  | .heard peer :: h => insert peer (senders h)
  | .sent :: h => senders h

theorem signs_start (now : Instant) (interval : UInt64) (event : TrickleEvent) :
    (signs (.start now) (.events (.ok [.started interval, event]))).reverse =
      ((eventSign? event).toList ++ [.started] : List (Sign width)) := by
  cases event <;> rfl

theorem signs_poll (now : Instant) {events : List TrickleEvent} (event : TrickleEvent)
    (hnone : events.filterMap eventSign? = ([] : List (Sign width))) :
    (signs (.poll now) (.events (.ok (events ++ [event])))).reverse =
      ((eventSign? event).toList : List (Sign width)) := by
  rw [signs, List.filterMap_append, hnone]
  cases event <;> rfl

theorem signs_reset (op : Operation width) (point : UInt64) :
    signs op (.event (.ok (some (.reset point)))) = [.reset] := by
  cases op <;> rfl

/-- What a call may do to counter and neighbor table, with the signs of it, the latest first. -/
inductive CountEffect (t : Trickle) (neighbors : NeighborTable width size) :
    List (Sign width) → Trickle → NeighborTable width size → Prop
  | nothing {t'} (hconfig : t'.config = t.config) (hcounter : t'.counter = t.counter) :
      CountEffect t neighbors [] t' neighbors
  | sent {t'} (hconfig : t'.config = t.config) (hcounter : t'.counter = t.counter) :
      CountEffect t neighbors [.sent] t' neighbors.clearHeard
  | started {t'} (hconfig : t'.config = t.config) (hcounter : t'.counter = t.counter) :
      CountEffect t neighbors [.started] t' neighbors
  | startedAndSent {t'} (hconfig : t'.config = t.config) (hcounter : t'.counter = t.counter) :
      CountEffect t neighbors [.sent, .started] t' neighbors.clearHeard
  | begun {sign t'} (hsign : sign = .expired ∨ sign = .reset) (hconfig : t'.config = t.config)
      (hcounter : t'.counter = 0) : CountEffect t neighbors [sign] t' neighbors
  | heard {peer sender} (hsender : (neighbors.lookup peer).bind (·.permanent) = some sender) :
      CountEffect t neighbors [.heard peer] (t.hear sender).2.2
        (neighbors.adjust peer fun n => some { n with permanent := some (t.hear sender).2.1 })

section Effect

theorem hearFrom_countEffect (peer : Address width) (t : Trickle)
    (neighbors : NeighborTable width size) :
    CountEffect t neighbors (signs (.hearFrom peer) (.heard (t.hearFrom peer neighbors).1)).reverse
      (t.hearFrom peer neighbors).2.1 (t.hearFrom peer neighbors).2.2 := by
  unfold hearFrom
  split
  · exact .nothing rfl rfl
  · rename_i sender hsender
    exact .heard hsender

theorem reset_countEffect [RandomSource ρ] (now : Instant) (t : Trickle) (random : ρ)
    (neighbors : NeighborTable width size) :
    CountEffect t neighbors (signs (.reset now) (.event (t.reset now random).1)).reverse
      (t.reset now random).2.1 neighbors := by
  rcases t.reset_cases now random with
    ⟨random', hreset | hreset⟩ | ⟨point, random', -, -, -, hreset⟩
  · rw [hreset]
    exact .nothing rfl rfl
  · rw [hreset]
    exact .nothing rfl rfl
  · rw [hreset]
    exact .begun (.inr rfl) rfl rfl

theorem newNeighbor_countEffect [RandomSource ρ] (now : Instant) (permanentNeighbors : Nat)
    (t : Trickle) (random : ρ) (neighbors : NeighborTable width size) :
    CountEffect t neighbors (signs (.newNeighbor now permanentNeighbors)
        (.event (t.newNeighbor now permanentNeighbors random).1)).reverse
      (t.newNeighbor now permanentNeighbors random).2.1 neighbors := by
  rcases t.newNeighbor_cases now permanentNeighbors random with
    ⟨result, newcomers, windowStart, windowResets, random', hresult, hnew⟩ |
      ⟨point, windowStart, windowResets, random', -, -, -, hnew⟩
  · rw [hnew]
    rcases hresult with rfl | rfl | rfl <;> exact .nothing rfl rfl
  · rw [hnew]
    exact .begun (.inr rfl) rfl rfl

variable [LinkLayer ℓ width]

/-- Either a HELLO of ours is broadcast, or nothing happens that matters to the counter. -/
theorem passTransmission_cases (now : Instant) (t : Trickle) (net : Network width size ℓ π) :
    (t.passTransmission now net).2.1.config = t.config ∧
      (t.passTransmission now net).2.1.counter = t.counter ∧
      ((eventSign? (t.passTransmission now net).1 = (none : Option (Sign width)) ∧
          (t.passTransmission now net).2.2.neighbors = net.neighbors) ∨
        (eventSign? (t.passTransmission now net).1 = some (.sent : Sign width) ∧
          (t.passTransmission now net).2.2.neighbors = net.neighbors.clearHeard)) := by
  refine ⟨rfl, rfl, ?_⟩
  unfold passTransmission transmit
  dsimp only
  split
  · exact .inl ⟨rfl, rfl⟩
  · split
    · exact .inl ⟨rfl, rfl⟩
    · split
      · exact .inr ⟨rfl, rfl⟩
      · exact .inl ⟨rfl, rfl⟩

theorem pollAcks_countFrame (now : Instant) (t : Trickle) (net : Network width size ℓ π) :
    (t.pollAcks now net).1.filterMap eventSign? = ([] : List (Sign width)) ∧
      (t.pollAcks now net).2.1.config = t.config ∧
      (t.pollAcks now net).2.1.counter = t.counter ∧
      (t.pollAcks now net).2.2.neighbors = net.neighbors := by
  unfold pollAcks
  split
  · exact ⟨rfl, rfl, rfl, rfl⟩
  · exact ⟨rfl, rfl, rfl, rfl⟩

variable [RandomSource ρ]

theorem start_countEffect (now : Instant) (t : Trickle) (random : ρ)
    (net : Network width size ℓ π) :
    CountEffect t net.neighbors (signs (.start now) (.events (t.start now random net).1)).reverse
      (t.start now random net).2.1 (t.start now random net).2.2.2.neighbors := by
  unfold start
  split
  · exact .nothing rfl rfl
  · split
    · exact .nothing rfl rfl
    · rename_i interval random' _
      obtain ⟨hconfig, hcounter, hsign⟩ := passTransmission_cases now
        { t with interval, transmissionPoint := 0 }
        { net with link := LinkLayer.changeChallenge net.link }
      dsimp only
      rw [signs_start]
      rcases hsign with ⟨hsign, hneighbors⟩ | ⟨hsign, hneighbors⟩
      · rw [hsign, hneighbors]
        exact .started hconfig hcounter
      · rw [hsign, hneighbors]
        exact .startedAndSent hconfig hcounter

/-- The engine is the one before the poll, which has handled the time for answers since. -/
theorem passDeadline_countEffect {engine t : Trickle} (hconfig : t.config = engine.config)
    (hcounter : t.counter = engine.counter) (deadline : Instant) (random : ρ)
    (net : Network width size ℓ π) :
    CountEffect engine net.neighbors
      (match (t.passDeadline deadline random net).1 with
        | .ok event => (eventSign? event).toList
        | .error _ => [.expired])
      (t.passDeadline deadline random net).2.1
      (t.passDeadline deadline random net).2.2.2.neighbors := by
  unfold passDeadline
  cases t.phase with
  | transmission =>
    obtain ⟨hpassed, hkept, hsign⟩ := passTransmission_cases deadline t net
    dsimp only
    rcases hsign with ⟨hsign, hneighbors⟩ | ⟨hsign, hneighbors⟩
    · rw [hsign, hneighbors]
      exact .nothing (hpassed.trans hconfig) (hkept.trans hcounter)
    · rw [hsign, hneighbors]
      exact .sent (hpassed.trans hconfig) (hkept.trans hcounter)
  | intervalEnd =>
    rcases t.beginAfter_cases deadline t.interval random with
      ⟨point, random', -, hbegin⟩ | ⟨random', -, hbegin⟩
    · dsimp only
      rw [hbegin]
      exact .begun (.inl rfl) hconfig rfl
    · dsimp only
      rw [hbegin]
      exact .begun (.inl rfl) hconfig rfl

theorem poll_countEffect (now : Instant) (t : Trickle) (random : ρ)
    (net : Network width size ℓ π) :
    CountEffect t net.neighbors (signs (.poll now) (.events (t.poll now random net).1)).reverse
      (t.poll now random net).2.1 (t.poll now random net).2.2.2.neighbors := by
  obtain ⟨hnone, hconfig, hcounter, hneighbors⟩ := pollAcks_countFrame now t net
  unfold poll
  split
  · exact .nothing rfl rfl
  · generalize t.pollAcks now net = polled at hnone hconfig hcounter hneighbors ⊢
    obtain ⟨events, t', net'⟩ := polled
    dsimp only at hnone hconfig hcounter hneighbors ⊢
    rw [← hneighbors]
    split
    · rw [signs, hnone]
      exact .nothing hconfig hcounter
    · rename_i intervalTimer _
      have hpassed := passDeadline_countEffect (t := { t' with intervalTimer }) hconfig hcounter
        (t'.intervalTimer.deadline.getD now) random net'
      generalize passDeadline (t'.intervalTimer.deadline.getD now) { t' with intervalTimer }
        random net' = passed at hpassed ⊢
      obtain ⟨result, rest⟩ := passed
      cases result with
      | ok event =>
        dsimp only
        rw [signs_poll now event hnone]
        exact hpassed
      | error e => exact hpassed

/-- A call sends, begins an interval or hears a neighbor, or it leaves counter and table. -/
theorem Scene.perform_countEffect (s : Scene width size ρ ℓ π) (op : Operation width) :
    CountEffect s.trickle s.net.neighbors (signs op (s.perform op).1).reverse
      (s.perform op).2.trickle (s.perform op).2.net.neighbors := by
  cases op with
  | start now => exact s.trickle.start_countEffect now s.random s.net
  | stop => exact .nothing rfl rfl
  | poll now => exact s.trickle.poll_countEffect now s.random s.net
  | reset now => exact s.trickle.reset_countEffect now s.random s.net.neighbors
  | newNeighbor now permanentNeighbors =>
    exact s.trickle.newNeighbor_countEffect now permanentNeighbors s.random s.net.neighbors
  | hearFrom peer => exact s.trickle.hearFrom_countEffect peer s.net.neighbors

end Effect

/-- What holds of counter and table all along a run, of which `h` tells what was done: `peers` are
the permanent neighbors. -/
structure Tracks (peers : List (Address width)) (h : List (Sign width)) (t : Trickle)
    (neighbors : NeighborTable width size) : Prop where
  enabled : t.config.enabled = true
  counter : t.counter.toNat = min 65535 (counted h)
  notes : ∀ peer sender, (neighbors.lookup peer).bind (·.permanent) = some sender →
    sender.heard = !silent peer h
  permanent : neighbors.permanentPeers = peers
  known : senders h ⊆ peers.toFinset

namespace Tracks

variable {peers : List (Address width)} {h : List (Sign width)} {t t' : Trickle}
  {neighbors : NeighborTable width size}

theorem congr (htracks : Tracks peers h t neighbors) (hconfig : t'.config = t.config)
    (hcounter : t'.counter = t.counter) : Tracks peers h t' neighbors where
  enabled := by rw [hconfig, htracks.enabled]
  counter := by rw [hcounter, htracks.counter]
  notes := htracks.notes
  permanent := htracks.permanent
  known := htracks.known

theorem sent (htracks : Tracks peers h t neighbors) :
    Tracks peers (.sent :: h) t neighbors.clearHeard where
  enabled := htracks.enabled
  counter := htracks.counter
  notes := by
    intro peer sender hlookup
    rw [NeighborTable.lookup_clearHeard] at hlookup
    cases hentry : neighbors.lookup peer with
    | none => simp [hentry] at hlookup
    | some entry =>
      simp only [hentry, Option.map_some, Option.bind_some, Neighbor.unheard,
        Option.map_eq_some_iff] at hlookup
      obtain ⟨_, -, rfl⟩ := hlookup
      rfl
  permanent := by rw [NeighborTable.permanentPeers_clearHeard, htracks.permanent]
  known := htracks.known

theorem started (htracks : Tracks peers h t neighbors) :
    Tracks peers (.started :: h) t neighbors where
  enabled := htracks.enabled
  counter := htracks.counter
  notes := htracks.notes
  permanent := htracks.permanent
  known := Finset.empty_subset _

theorem begun (htracks : Tracks peers h t neighbors) {sign : Sign width}
    (hsign : sign = .expired ∨ sign = .reset) (hconfig : t'.config = t.config)
    (hcounter : t'.counter = 0) : Tracks peers (sign :: h) t' neighbors := by
  have hcounted : counted (sign :: h) = 0 := by rcases hsign with rfl | rfl <;> rfl
  have hsenders : senders (sign :: h) = ∅ := by rcases hsign with rfl | rfl <;> rfl
  have hsilent (peer : Address width) : silent peer (sign :: h) = silent peer h := by
    rcases hsign with rfl | rfl <;> rfl
  refine ⟨by rw [hconfig, htracks.enabled], by rw [hcounter, hcounted]; rfl, ?_,
    htracks.permanent, by rw [hsenders]; exact Finset.empty_subset _⟩
  intro peer sender hlookup
  rw [hsilent]
  exact htracks.notes peer sender hlookup

/-- A HELLO counts if its sender was silent, and it is noted in either case. -/
theorem hear_cases (htracks : Tracks peers h t neighbors) {peer : Address width}
    {sender : Permanent} (hsender : (neighbors.lookup peer).bind (·.permanent) = some sender) :
    (t.hear sender).2.1.heard = true ∧ (t.hear sender).2.2.config = t.config ∧
      (t.hear sender).2.2.counter.toNat = min 65535 (counted (.heard peer :: h)) := by
  have hnote := htracks.notes peer sender hsender
  have hcounter := htracks.counter
  cases hsilent : silent peer h with
  | true =>
    have hunheard : sender.heard = false := by rw [hnote, hsilent, Bool.not_true]
    have hhear : t.hear sender =
        (true, ⟨true⟩, { t with counter := Saturating.succ16 t.counter }) := by
      simp [hear, htracks.enabled, hunheard]
    rw [hhear, counted, if_pos hsilent]
    refine ⟨rfl, rfl, ?_⟩
    have hsucc := Saturating.toNat_succ16 t.counter
    dsimp only
    omega
  | false =>
    have hheard : sender.heard = true := by rw [hnote, hsilent, Bool.not_false]
    have hhear : t.hear sender = (false, sender, t) := by simp [hear, hheard]
    rw [hhear, counted, hsilent, if_neg Bool.false_ne_true]
    exact ⟨hheard, rfl, hcounter⟩

theorem heard (htracks : Tracks peers h t neighbors) {peer : Address width} {sender : Permanent}
    (hsender : (neighbors.lookup peer).bind (·.permanent) = some sender) :
    Tracks peers (.heard peer :: h) (t.hear sender).2.2
      (neighbors.adjust peer fun n => some { n with permanent := some (t.hear sender).2.1 }) := by
  obtain ⟨hnoted, hconfig, hcounter⟩ := htracks.hear_cases hsender
  obtain ⟨entry, hentry, hpermanent⟩ := Option.bind_eq_some_iff.mp hsender
  let g (n : Neighbor width) : Neighbor width := { n with permanent := some (t.hear sender).2.1 }
  have haddress : ∀ n, (g n).address = n.address := fun _ => rfl
  refine ⟨by rw [hconfig, htracks.enabled], hcounter, ?_, ?_, ?_⟩
  · -- the note of the sender is set, and those of the others stay
    intro other sender' hlookup
    by_cases hother : other = peer
    · subst hother
      have hself := NeighborTable.lookup_adjust_self other haddress neighbors
      rw [hself, hentry] at hlookup
      cases hlookup
      simp [silent, hnoted]
    · have hkept : (neighbors.adjust peer fun n => some (g n)).lookup other =
          neighbors.lookup other :=
        NeighborTable.lookup_adjust_of_ne hother (fun n n' hn => by cases hn; rfl) neighbors
      rw [hkept] at hlookup
      rw [htracks.notes other sender' hlookup, silent, bne_iff_ne.mpr (Ne.symm hother),
        Bool.true_and]
  · rw [← htracks.permanent]
    refine NeighborTable.permanentPeers_adjust haddress fun n hn => ?_
    obtain rfl : entry = n := Option.some.inj (hentry.symm.trans hn)
    simp [g, Neighbor.has, hpermanent]
  · have hmem := NeighborTable.mem_permanentPeers_of_lookup hentry
      (Option.isSome_iff_exists.mpr ⟨sender, hpermanent⟩)
    rw [htracks.permanent] at hmem
    exact Finset.insert_subset (List.mem_toFinset.mpr hmem) htracks.known

theorem effect (htracks : Tracks peers h t neighbors) {new : List (Sign width)}
    {neighbors' : NeighborTable width size} (heffect : CountEffect t neighbors new t' neighbors') :
    Tracks peers (new ++ h) t' neighbors' := by
  cases heffect with
  | nothing hconfig hcounter => exact htracks.congr hconfig hcounter
  | sent hconfig hcounter => exact htracks.sent.congr hconfig hcounter
  | started hconfig hcounter => exact htracks.started.congr hconfig hcounter
  | startedAndSent hconfig hcounter => exact htracks.started.sent.congr hconfig hcounter
  | begun hsign hconfig hcounter => exact htracks.begun hsign hconfig hcounter
  | heard hsender => exact htracks.heard hsender

theorem run [RandomSource ρ] [LinkLayer ℓ width] (ops : List (Operation width))
    {s : Scene width size ρ ℓ π} (htracks : Tracks peers h s.trickle s.net.neighbors) :
    Tracks peers (history ops s h) (s.run ops).2.trickle (s.run ops).2.net.neighbors := by
  induction ops generalizing s h with
  | nil => exact htracks
  | cons op ops ih => exact ih (htracks.effect (s.perform_countEffect op))

end Tracks

theorem tracks_stopped {c : TrickleConfig} (henabled : c.enabled = true)
    {table : NeighborTable width size}
    (hfresh : ∀ entry ∈ table.entries, ∀ sender, entry.permanent = some sender →
      sender.heard = false) : Tracks table.permanentPeers [] (.stopped c) table where
  enabled := henabled
  counter := rfl
  notes := by
    intro peer sender hlookup
    obtain ⟨entry, hentry, hpermanent⟩ := Option.bind_eq_some_iff.mp hlookup
    exact hfresh entry (List.mem_of_find?_eq_some hentry) sender hpermanent
  permanent := rfl
  known := Finset.empty_subset _

end MeshSecurity.Trickle
