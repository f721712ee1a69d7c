import MeshSecurity.Proofs.IntervalBounds
import MeshSecurity.Proofs.NeighborSlots
import MeshSecurity.Proofs.RevocationSteps
import MeshSecurity.Random.Generator
import MeshSecurity.Simulation.ParentSet
import MeshSecurity.Simulation.Radio
import MeshSecurity.Storage.Memory

/-!
# The report of a revocation

A revocation that succeeds has done what its report says, and nothing else. The state afterwards is
given in terms of the state before: for the list with its store, the neighbor table, routing, the
link layer, the group key, the random source and dissemination.
-/

namespace MeshSecurity

variable {width capacity size : Nat} {τ ρ ℓ π : Type}

/-! ## The list, the link layer and dissemination -/

namespace RevocationList

variable [RecordStore τ]

/-- Whether the record of a peer would not be stored completely. -/
def Loses (peer : Address width) (l : RevocationList width capacity τ) : Prop :=
  l.persistent = true ∧
    (RecordStore.append (record peer) l.store).1 ≠ .ok (recordSize width)

theorem revoke_of_room {peer : Address width} {l l' : RevocationList width capacity τ}
    {result : Except Error Nat} (h : l.revoke peer = (result, l'))
    (hroom : result ≠ .error .capacityExceeded) :
    l'.entries.toList = l.entries.toList ++ [peer] ∧ l'.persistent = l.persistent ∧
      l'.store = (if l.persistent then (RecordStore.append (record peer) l.store).2 else l.store) ∧
      (result = .ok l'.length ∧ ¬ l.Loses peer ∨
        result = .error .recordNotStored ∧ l.Loses peer) := by
  unfold revoke at h
  cases hpush : l.entries.push? peer with
  | none =>
    rw [hpush] at h
    cases h
    exact absurd rfl hroom
  | some entries =>
    have hentries := Bounded.push?_eq_some_iff.mp hpush
    rw [hpush] at h
    dsimp only at h
    by_cases hpersistent : l.persistent = true
    · rw [if_pos hpersistent] at h ⊢
      cases happend : RecordStore.append (record peer) l.store with
      | mk appended store =>
        rw [happend] at h
        have hloses : l.Loses peer ↔ appended ≠ .ok (recordSize width) := by
          rw [Loses, happend]
          exact and_iff_right hpersistent
        cases appended with
        | error e =>
          cases h
          exact ⟨hentries, rfl, rfl, .inr ⟨rfl, hloses.mpr (fun hstored => by cases hstored)⟩⟩
        | ok stored =>
          dsimp only at h
          by_cases hstored : stored = recordSize width
          · rw [if_pos hstored] at h
            cases h
            exact ⟨hentries, rfl, rfl, .inl ⟨rfl, fun hlost => hloses.mp hlost (by rw [hstored])⟩⟩
          · rw [if_neg hstored] at h
            cases h
            exact ⟨hentries, rfl, rfl,
              .inr ⟨rfl, hloses.mpr fun hok => hstored (Except.ok.inj hok)⟩⟩
    · rw [if_neg hpersistent] at h ⊢
      cases h
      exact ⟨hentries, rfl, rfl, .inl ⟨rfl, fun hlost => hpersistent hlost.1⟩⟩

end RevocationList

namespace GroupKeys

variable [LinkLayer ℓ width]

/-- Sends a key to peers one after the other and counts those to which it was sent. -/
def sendAll (key : Key) : List (Address width) → ℓ → Nat × ℓ
  | [], link => (0, link)
  | peer :: peers, link =>
    let sent := LinkLayer.sendUpdate peer key link
    let rest := sendAll key peers sent.2
    ((if sent.1.isOk then 1 else 0) + rest.1, rest.2)

theorem sendTo_frame (now : Instant) (key : Key) (d : Distribution ℓ) (peer : Address width) :
    (sendTo now key d peer).sent =
        d.sent + (if (LinkLayer.sendUpdate peer key d.link).1.isOk then 1 else 0) ∧
      (sendTo now key d peer).link = (LinkLayer.sendUpdate peer key d.link).2 := by
  unfold sendTo
  split
  · rename_i hsent
    rw [hsent]
    exact ⟨rfl, rfl⟩
  · rename_i hsent
    rw [hsent]
    exact ⟨rfl, rfl⟩

theorem foldl_sendTo (now : Instant) (key : Key) (peers : List (Address width))
    (d : Distribution ℓ) :
    (peers.foldl (sendTo now key) d).sent = d.sent + (sendAll key peers d.link).1 ∧
      (peers.foldl (sendTo now key) d).link = (sendAll key peers d.link).2 := by
  induction peers generalizing d with
  | nil => exact ⟨rfl, rfl⟩
  | cons peer peers ih =>
    obtain ⟨hsent, hlink⟩ := sendTo_frame now key d peer
    obtain ⟨hsents, hlinks⟩ := ih (sendTo now key d peer)
    rw [hlink] at hsents hlinks
    rw [hsent, Nat.add_assoc] at hsents
    exact ⟨hsents, hlinks⟩

theorem distribute_eq (now : Instant) (key : Key) (net : Network width size ℓ π)
    (journal : Journal) :
    (distribute now key net journal).sent =
        (sendAll key net.neighbors.permanentPeers net.link).1 ∧
      (distribute now key net journal).link =
        (sendAll key net.neighbors.permanentPeers net.link).2 := by
  have h := foldl_sendTo now key net.neighbors.permanentPeers ⟨0, 0, net.link, journal⟩
  rwa [Nat.zero_add] at h

end GroupKeys

namespace Trickle

/-- Whether there is anything to reset: the engine runs in another interval than the smallest. -/
def CanReset (t : Trickle) : Prop :=
  t.config.enabled = true ∧ t.isRunning = true ∧ t.interval ≠ t.config.minInterval

/-- What a reset may come to: whether it has an effect, the engine and the random source. -/
inductive ResetOutcome [RandomSource ρ] (now : Instant) (t : Trickle) (random : ρ) :
    Bool → Trickle → ρ → Prop
  | begun {point random'} (hcan : t.CanReset)
      (hdraw : RandomSource.between (resetInterval t.config / 2) (resetInterval t.config) random =
        (some point, random')) :
      ResetOutcome now t random true (t.enter now (resetInterval t.config) point) random'
  | undrawn {random'} (hcan : t.CanReset)
      (hdraw : RandomSource.between (resetInterval t.config / 2) (resetInterval t.config) random =
        (none, random')) :
      ResetOutcome now t random false t random'
  | idle (hcannot : ¬ t.CanReset) : ResetOutcome now t random false t random

def effective : Except Error (Option TrickleEvent) → Bool
  | .ok event => event.isSome
  | .error _ => false

/-- Where there is nothing to reset, that is found out first. -/
theorem guard_of_cannot {t : Trickle} (hcannot : ¬ t.CanReset) :
    (!t.config.enabled || !t.isRunning || t.interval == t.config.minInterval) = true := by
  rw [CanReset, not_and, not_and] at hcannot
  by_cases henabled : t.config.enabled = true
  · by_cases hrunning : t.isRunning = true
    · have hinterval : t.interval = t.config.minInterval :=
        Decidable.not_not.mp (hcannot henabled hrunning)
      rw [hinterval, beq_self_eq_true, Bool.or_true]
    · rw [Bool.eq_false_iff.mpr hrunning, Bool.not_false, Bool.or_true, Bool.true_or]
  · rw [Bool.eq_false_iff.mpr henabled, Bool.not_false, Bool.true_or, Bool.true_or]

theorem reset_outcome [RandomSource ρ] (now : Instant) (t : Trickle) (random : ρ) :
    ∃ result trickle random', t.reset now random = (result, trickle, random') ∧
      ResetOutcome now t random (effective result) trickle random' := by
  by_cases hcan : t.CanReset
  · obtain ⟨henabled, hrunning, hinterval⟩ := hcan
    rcases t.beginAfter_cases now (t.config.minInterval / 2) random with
      ⟨point, random', hdraw, hbegin⟩ | ⟨random', hdraw, hbegin⟩
    · rw [reset_of_draw now henabled hrunning hinterval hdraw]
      rw [intervalAfter_half] at hdraw ⊢
      exact ⟨_, _, _, rfl, .begun ⟨henabled, hrunning, hinterval⟩ hdraw⟩
    · rw [intervalAfter_half] at hdraw
      refine ⟨.error .randomFailure, t, random', ?_, .undrawn ⟨henabled, hrunning, hinterval⟩ hdraw⟩
      simp only [reset, henabled, hrunning, beq_false_of_ne hinterval, hbegin]
      rfl
  · exact ⟨.ok none, t, random, if_pos (guard_of_cannot hcan), .idle hcan⟩

end Trickle

/-! ## Successful revocations -/

namespace RevocationState

open NeighborTable

theorem slots_dropNeighbor (now : Instant) {peer : Address width} {entry : Neighbor width}
    {relation : Relation} (s : RevocationState width capacity τ ρ)
    {net : Network width size ℓ π} (hdistinct : net.neighbors.Distinct)
    (hlookup : net.neighbors.lookup peer = some entry)
    (hrelation : entry.relation = some relation) :
    (s.dropNeighbor now entry relation net).2.neighbors.slots =
      vacated peer net.neighbors.slots := by
  have haddress := address_of_lookup hlookup
  obtain ⟨before, after, hslots, hbefore⟩ := exists_split_of_lookup hlookup
  rw [vacated_of_split hdistinct hslots hbefore haddress]
  rw [← haddress] at hbefore
  unfold dropNeighbor
  split
  · -- the permanent part goes first and leaves a tentative entry in the slot
    rename_i hrekeying
    obtain ⟨rfl, htentative⟩ := hrekeying
    have hfirst : (net.neighbors.remove entry.address .permanent).2.slots =
        before ++ some (entry.without .permanent) :: after := by
      refine (slots_adjust_of_split _ hslots hbefore rfl).trans ?_
      have hrest : (entry.without .permanent).relation = some .tentative := if_pos htentative
      dsimp only
      rw [hrest]
      rfl
    exact slots_adjust_of_split _ hfirst hbefore rfl
  · rename_i hsingle
    refine (slots_adjust_of_split _ hslots hbefore rfl).trans ?_
    dsimp only
    rw [Neighbor.relation_without hrelation hsingle]
    rfl

theorem resetTrickle_outcome [RandomSource ρ] (now : Instant)
    (s : RevocationState width capacity τ ρ) :
    ∃ reset trickle random journal,
      s.resetTrickle now = (reset, { s with trickle, random, journal }) ∧
      Trickle.ResetOutcome now s.trickle s.random reset trickle random := by
  obtain ⟨result, trickle, random, hreset, houtcome⟩ := s.trickle.reset_outcome now s.random
  unfold resetTrickle
  rw [hreset]
  cases result with
  | ok event => exact ⟨_, _, _, _, rfl, houtcome⟩
  | error e => exact ⟨_, _, _, _, rfl, houtcome⟩

theorem dropParent_eq [Routing π width] (now : Instant) (peer : Address width)
    (s : RevocationState width capacity τ ρ) (net : Network width size ℓ π) :
    ∃ journal routing,
      s.dropParent now peer net =
        ((Routing.dropParent peer net.routing).1, { s with journal }, { net with routing }) ∧
      routing = if (Routing.dropParent peer net.routing).1 = .preferredRemoved then
          Routing.advertiseRoute
            (Routing.selectPreferredParent (Routing.dropParent peer net.routing).2)
        else (Routing.dropParent peer net.routing).2 := by
  unfold dropParent
  split
  · rename_i hdrop
    rw [hdrop]
    exact ⟨_, _, rfl, rfl⟩
  · rename_i hother hdrop
    rw [hdrop]
    exact ⟨_, _, rfl, (if_neg hother).symm⟩

variable [RecordStore τ] [RandomSource ρ] [LinkLayer ℓ width] [Routing π width]

/-- What a revocation enters in the list, and what it reports of that. -/
structure Enlisted (peer : Address width) (listing : Bool)
    (l l' : RevocationList width capacity τ) (report : RevocationReport) : Prop where
  entries : l'.entries.toList = l.entries.toList ++ if listing then [peer] else []
  persistent : l'.persistent = l.persistent
  store : l'.store = if listing && l.persistent then
    (RecordStore.append (RevocationList.record peer) l.store).2 else l.store
  listed : report.listed = if listing then some l'.length else none
  notStored : report.notStored = true ↔ listing = true ∧ l.Loses peer

/-- A peer that is no neighbor is not reported as removed, and nothing but the list changes. -/
structure Unaffected (s : RevocationState width capacity τ ρ) (net : Network width size ℓ π)
    (report : RevocationReport) (s' : RevocationState width capacity τ ρ)
    (net' : Network width size ℓ π) : Prop where
  removed : report.removed = none
  parent : report.parent = .notParent
  updatesSent : report.updatesSent = none
  trickleReset : report.trickleReset = false
  groupKeys : s'.groupKeys = s.groupKeys
  random : s'.random = s.random
  trickle : s'.trickle = s.trickle
  link : net'.link = net.link
  routing : net'.routing = net.routing

/-- The group key after a revocation, with the state `random` of the random source. -/
inductive Rekeyed (c : RevocationConfig) (s : RevocationState width capacity τ ρ)
    (net : Network width size ℓ π) (report : RevocationReport)
    (s' : RevocationState width capacity τ ρ) (net' : Network width size ℓ π) (random : ρ) : Prop
  | rotated {key} (hc : c.groupKeys = true) (hkey : Key.generate s.random = (some key, random))
      (hkeys : s'.groupKeys = ⟨some key, s.groupKeys.rotations + 1⟩)
      (hsent : report.updatesSent =
        some (GroupKeys.sendAll key net'.neighbors.permanentPeers net.link).1)
      (hlink : net'.link = (GroupKeys.sendAll key net'.neighbors.permanentPeers net.link).2)
  | unused (hc : c.groupKeys = false) (hrandom : random = s.random)
      (hkeys : s'.groupKeys = s.groupKeys) (hsent : report.updatesSent = none)
      (hlink : net'.link = net.link)

/-- A neighbor is reported as removed, routing has forgotten it once, the others have another group
key where one is in use, and dissemination is reset where that can be done. -/
structure Expelled (c : RevocationConfig) (now : Instant) (peer : Address width)
    (entry : Neighbor width) (s : RevocationState width capacity τ ρ)
    (net : Network width size ℓ π) (report : RevocationReport)
    (s' : RevocationState width capacity τ ρ) (net' : Network width size ℓ π) : Prop where
  removed : report.removed = some (if entry.permanent.isSome then .permanent else .tentative)
  parent : report.parent = (Routing.dropParent peer net.routing).1
  routing : net'.routing = if report.parent = .preferredRemoved then
      Routing.advertiseRoute (Routing.selectPreferredParent (Routing.dropParent peer net.routing).2)
    else (Routing.dropParent peer net.routing).2
  rekeyed : ∃ random, Rekeyed c s net report s' net' random ∧
    Trickle.ResetOutcome now s.trickle random report.trickleReset s'.trickle s'.random

/-- The slots of the peer are empty and the others as they were, and what else changed depends on
whether the peer was a neighbor. -/
structure Removed (c : RevocationConfig) (now : Instant) (peer : Address width)
    (s : RevocationState width capacity τ ρ) (net : Network width size ℓ π)
    (report : RevocationReport) (s' : RevocationState width capacity τ ρ)
    (net' : Network width size ℓ π) : Prop where
  slots : net'.neighbors.slots = vacated peer net.neighbors.slots
  ofAbsent : net.neighbors.lookup peer = none → Unaffected s net report s' net'
  ofNeighbor : ∀ entry, net.neighbors.lookup peer = some entry →
    Expelled c now peer entry s net report s' net'

variable {c : RevocationConfig} {now : Instant} {peer : Address width} {listing : Bool}
  {s s' : RevocationState width capacity τ ρ} {net net' : Network width size ℓ π}
  {report : RevocationReport}

omit [RecordStore τ] [Routing π width] in
theorem renewGroupKey_ok {sent : Option Nat} {net₁ : Network width size ℓ π}
    (hok : s.renewGroupKey c now net = (.ok sent, s', net₁)) :
    ∃ groupKeys random journal link,
      s' = { s with groupKeys, random, journal } ∧ net₁ = { net with link } ∧
      ((∃ key, c.groupKeys = true ∧ Key.generate s.random = (some key, random) ∧
          groupKeys = ⟨some key, s.groupKeys.rotations + 1⟩ ∧
          sent = some (GroupKeys.sendAll key net.neighbors.permanentPeers net.link).1 ∧
          link = (GroupKeys.sendAll key net.neighbors.permanentPeers net.link).2) ∨
        c.groupKeys = false ∧ random = s.random ∧ groupKeys = s.groupKeys ∧ sent = none ∧
          link = net.link) := by
  cases hc : c.groupKeys with
  | false =>
    rw [renewGroupKey, hc] at hok
    cases hok
    exact ⟨_, _, _, _, rfl, rfl, .inr ⟨rfl, rfl, rfl, rfl, rfl⟩⟩
  | true =>
    rcases renewGroupKey_cases hc now s net with
      ⟨key, random, journal, hkey, hrenew⟩ | ⟨random, journal, -, hrenew⟩
    · obtain ⟨hsent, hlink⟩ := GroupKeys.distribute_eq now key net s.journal
      rw [hrenew, hsent, hlink] at hok
      cases hok
      exact ⟨_, _, _, _, rfl, rfl, .inl ⟨key, rfl, hkey, rfl, rfl, rfl⟩⟩
    · rw [hrenew] at hok
      cases hok

omit [RecordStore τ] in
theorem expel_ok {entry : Neighbor width} {relation : Relation} {report₀ : RevocationReport}
    (hdistinct : net.neighbors.Distinct) (hlookup : net.neighbors.lookup peer = some entry)
    (hrelation : entry.relation = some relation)
    (hok : s.expel c now entry relation report₀ net = (.ok report, s', net')) :
    report.listed = report₀.listed ∧ report.notStored = report₀.notStored ∧
      s'.revocations = s.revocations ∧ Removed c now peer s net report s' net' := by
  have haddress := address_of_lookup hlookup
  have hslots := slots_dropNeighbor now s hdistinct hlookup hrelation
  obtain ⟨journal, neighbors, hdrop, -⟩ := s.dropNeighbor_frame now entry relation net
  rw [hdrop] at hslots
  obtain ⟨journal₁, routing, hparent, hrouting⟩ := dropParent_eq now entry.address
    { s with journal } { net with neighbors }
  unfold expel at hok
  rw [hdrop] at hok
  dsimp only at hok hrouting
  rw [hparent] at hok
  dsimp only at hok
  rw [haddress] at hok hrouting
  cases hrenewed : renewGroupKey c now { s with journal := journal₁ }
    { net with neighbors, routing } with
  | mk result rest =>
    obtain ⟨s₁, net₁⟩ := rest
    rw [hrenewed] at hok
    cases result with
    | error e => cases hok
    | ok sent =>
      obtain ⟨groupKeys, random, journal₂, link, rfl, rfl, hkeys⟩ := renewGroupKey_ok hrenewed
      obtain ⟨reset, trickle, random₁, journal₃, hreset, houtcome⟩ := resetTrickle_outcome now
        { s with groupKeys, random, journal := journal₂ }
      dsimp only at hok
      rw [hreset] at hok
      cases hok
      refine ⟨rfl, rfl, rfl, hslots, fun habsent => ?_, fun entry' hentry' => ?_⟩
      · rw [hlookup] at habsent
        cases habsent
      · rw [hlookup] at hentry'
        cases hentry'
        refine ⟨?_, rfl, hrouting, random, ?_, houtcome⟩
        · rw [← hrelation]
          exact Neighbor.relation_of_ne_none (by rw [hrelation]; exact Option.some_ne_none _)
        · rcases hkeys with ⟨key, hc, hkey, hnew, hsent, hlink⟩ | ⟨hc, hrandom, hsame, hsent, hlink⟩
          · exact .rotated hc hkey hnew hsent hlink
          · exact .unused hc hrandom hsame hsent hlink

omit [RecordStore τ] in
theorem removePeer_ok {report₀ : RevocationReport} (hdistinct : net.neighbors.Distinct)
    (hplain : report₀ = { RevocationReport.blank with
      listed := report₀.listed, notStored := report₀.notStored })
    (hok : s.removePeer c now peer report₀ net = (.ok report, s', net')) :
    report.listed = report₀.listed ∧ report.notStored = report₀.notStored ∧
      s'.revocations = s.revocations ∧ Removed c now peer s net report s' net' := by
  unfold removePeer at hok
  cases hlookup : net.neighbors.lookup peer with
  | none =>
    rw [hlookup] at hok
    cases hok
    refine ⟨rfl, rfl, rfl, (vacated_of_not_holds (lookup_eq_none_iff.mp hlookup)).symm, ?_, ?_⟩
    · intro _
      rw [hplain]
      exact ⟨rfl, rfl, rfl, rfl, rfl, rfl, rfl, rfl, rfl⟩
    · intro entry hentry
      rw [hlookup] at hentry
      cases hentry
  | some entry =>
    rw [hlookup] at hok
    cases hrelation : entry.relation with
    | none =>
      dsimp only at hok
      rw [hrelation] at hok
      cases hok
    | some relation =>
      dsimp only at hok
      rw [hrelation] at hok
      exact expel_ok hdistinct hlookup hrelation hok

omit [RandomSource ρ] in
theorem enlist_ok (hok : s.enlist now peer .blank = (.ok report, s')) :
    Enlisted peer true s.revocations s'.revocations report ∧
      report = { RevocationReport.blank with
        listed := report.listed, notStored := report.notStored } ∧
      ∃ journal, s' = { s with revocations := s'.revocations, journal } := by
  rcases s.enlist_cases now peer .blank with
    ⟨n, list, hrevoke, henlist⟩ | ⟨list, hrevoke, henlist⟩ | ⟨list, -, henlist⟩
  · rw [henlist] at hok
    cases hok
    obtain ⟨hentries, hpersistent, hstore, ⟨hlength, hstored⟩ | ⟨herror, -⟩⟩ :=
      RevocationList.revoke_of_room hrevoke (by simp)
    · refine ⟨⟨hentries, hpersistent, hstore, congrArg some (Except.ok.inj hlength), ?_⟩,
        rfl, _, rfl⟩
      exact iff_of_false Bool.false_ne_true fun h => hstored h.2
    · cases herror
  · rw [henlist] at hok
    cases hok
    obtain ⟨hentries, hpersistent, hstore, ⟨hlength, -⟩ | ⟨-, hlost⟩⟩ :=
      RevocationList.revoke_of_room hrevoke (by simp)
    · cases hlength
    · exact ⟨⟨hentries, hpersistent, hstore, rfl, iff_of_true rfl ⟨rfl, hlost⟩⟩, rfl, _, rfl⟩
  · rw [henlist] at hok
    cases hok

omit [RecordStore τ] in
theorem Removed.congr {s₁ : RevocationState width capacity τ ρ}
    (h : Removed c now peer s₁ net report s' net') (hkeys : s₁.groupKeys = s.groupKeys)
    (hrandom : s₁.random = s.random) (htrickle : s₁.trickle = s.trickle) :
    Removed c now peer s net report s' net' := by
  obtain ⟨revocations₁, groupKeys₁, trickle₁, random₁, journal₁⟩ := s₁
  dsimp only at hkeys hrandom htrickle
  subst hkeys hrandom htrickle
  refine ⟨h.slots, fun habsent => ?_, fun entry hentry => ?_⟩
  · obtain ⟨hremoved, hparent, hsent, hreset, hkeys, hrandom, htrickle, hlink, hrouting⟩ :=
      h.ofAbsent habsent
    exact ⟨hremoved, hparent, hsent, hreset, hkeys, hrandom, htrickle, hlink, hrouting⟩
  · obtain ⟨hremoved, hparent, hrouting, random, hrekeyed, houtcome⟩ := h.ofNeighbor entry hentry
    refine ⟨hremoved, hparent, hrouting, random, ?_, houtcome⟩
    cases hrekeyed with
    | rotated hc hkey hnew hsent hlink => exact .rotated hc hkey hnew hsent hlink
    | unused hc hsame hkept hsent hlink => exact .unused hc hsame hkept hsent hlink

/-- A revocation that succeeds did what it reports and nothing else. Its journal apart, this is the
whole state after it: the list took the peer if that was asked for, the peer is in the neighbor
table no more, so that no new group key is sent to it, and the rest depends on whether the peer was
a neighbor. -/
theorem revoke_ok (hdistinct : net.neighbors.Distinct)
    (hok : s.revoke c now peer listing net = (.ok report, s', net')) :
    Enlisted peer listing s.revocations s'.revocations report ∧
      Removed c now peer s net report s' net' ∧
      (report.removed = none ↔ net.neighbors.lookup peer = none) ∧
      net'.neighbors.lookup peer = none ∧ peer ∉ net'.neighbors.permanentPeers := by
  have heffects : Enlisted peer listing s.revocations s'.revocations report ∧
      Removed c now peer s net report s' net' := by
    cases listing with
    | false =>
      obtain ⟨hlisted, hstored, hrevocations, hremoved⟩ := removePeer_ok hdistinct rfl hok
      refine ⟨⟨?_, ?_, ?_, hlisted, ?_⟩, hremoved⟩
      · rw [hrevocations]
        exact (List.append_nil _).symm
      · rw [hrevocations]
      · rw [hrevocations]
        rfl
      · rw [hstored]
        exact iff_of_false Bool.false_ne_true fun h => Bool.false_ne_true h.1
    | true =>
      cases henlisted : s.enlist now peer .blank with
      | mk result s₁ =>
        unfold revoke at hok
        rw [if_pos rfl, henlisted] at hok
        cases result with
        | error e => cases hok
        | ok report₁ =>
          obtain ⟨⟨hentries, hpersistent, hstore, hlisted₁, hstored₁⟩, hplain, journal, hs₁⟩ :=
            enlist_ok henlisted
          obtain ⟨hlisted, hstored, hrevocations, hremoved⟩ := removePeer_ok hdistinct hplain hok
          rw [← hrevocations] at hentries hpersistent hstore hlisted₁
          refine ⟨⟨hentries, hpersistent, hstore, hlisted.trans hlisted₁, ?_⟩, ?_⟩
          · rw [hstored]
            exact hstored₁
          · rw [hs₁] at hremoved
            exact hremoved.congr rfl rfl rfl
  obtain ⟨henlisted, hremoved⟩ := heffects
  have habsent := lookup_of_vacated hremoved.slots
  refine ⟨henlisted, hremoved, ?_, habsent, notMem_permanentPeers_of_lookup habsent⟩
  cases hlookup : net.neighbors.lookup peer with
  | none => exact iff_of_true (hremoved.ofAbsent hlookup).removed rfl
  | some entry =>
    refine iff_of_false (fun hnone => ?_) (Option.some_ne_none entry)
    rw [(hremoved.ofNeighbor entry hlookup).removed] at hnone
    cases hnone

/-- A node with a group key in an interval four times the smallest. -/
def settled : RevocationState 8 4 (MemoryStore 64) Generator where
  revocations := .ofStore .empty true
  groupKeys := .provisioned (Vector.replicate 16 0x11)
  trickle := (Trickle.stopped Config.standard.trickle).enter ⟨0⟩
    (4 * Config.standard.trickle.minInterval) 300
  random := .constant ⟨7⟩
  journal := .empty

/-- The preferred parent is a permanent neighbor that establishes a new key. -/
def surroundings : Network 8 4 (Radio 8) (ParentSet 8) where
  neighbors := ⟨[some ⟨.repeated 2, some ⟨⟨5⟩⟩, some .fresh⟩, none,
    some ⟨.repeated 3, none, some .fresh⟩, some ⟨.repeated 4, some ⟨⟨5⟩⟩, none⟩], rfl⟩
  link := .instructed none []
  routing := .ofParents [.repeated 2, .repeated 3]

theorem revoke_ok_preferredParent :
    ∃ s' net', surroundings.neighbors.Distinct ∧
      settled.revoke .standard ⟨50⟩ (.repeated 2) true surroundings =
        (.ok ⟨some 1, false, some .permanent, .preferredRemoved, some 1, true⟩, s', net') ∧
      Enlisted (.repeated 2) true settled.revocations s'.revocations
        ⟨some 1, false, some .permanent, .preferredRemoved, some 1, true⟩ ∧
      Removed .standard ⟨50⟩ (.repeated 2) settled surroundings
        ⟨some 1, false, some .permanent, .preferredRemoved, some 1, true⟩ s' net' ∧
      net'.neighbors.lookup (.repeated 2) = none ∧
      .repeated 2 ∉ net'.neighbors.permanentPeers := by
  have hdistinct : surroundings.neighbors.Distinct := by decide
  have hok : settled.revoke .standard ⟨50⟩ (.repeated 2) true surroundings =
    (.ok ⟨some 1, false, some .permanent, .preferredRemoved, some 1, true⟩, _, _) := rfl
  obtain ⟨henlisted, hremoved, -, habsent, hsilent⟩ := revoke_ok hdistinct hok
  exact ⟨_, _, hdistinct, hok, henlisted, hremoved, habsent, hsilent⟩

end RevocationState

end MeshSecurity
