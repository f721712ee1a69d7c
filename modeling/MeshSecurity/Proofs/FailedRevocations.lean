import MeshSecurity.Proofs.RevocationReports

/-!
# Revocations that fail

There are three reasons for which a revocation fails, and each leaves its own part of the work
done. A full list stops it before anything has changed. A table entry that is neither tentative nor
permanent stops it when the peer is listed, and a group key that cannot be drawn stops it when the
peer is listed and forgotten by table and routing as well. A record that could not be stored never
stops it.
-/

namespace MeshSecurity

variable {width capacity size : Nat} {τ ρ ℓ π : Type}

namespace RevocationList

variable [RecordStore τ]

theorem revoke_of_full {l : RevocationList width capacity τ} (hfull : l.isFull = true)
    (peer : Address width) : l.revoke peer = (.error .capacityExceeded, l) := by
  have hpush : l.entries.push? peer = none := Bounded.push?_eq_none_iff.mpr (beq_iff_eq.mp hfull)
  rw [revoke, hpush]

theorem not_full_of_room {peer : Address width} {l : RevocationList width capacity τ}
    (hroom : l.isFull = false) : (l.revoke peer).1 ≠ .error .capacityExceeded := by
  have hpush : l.entries.push? peer ≠ none := fun hnone =>
    ne_of_beq_false hroom (Bounded.push?_eq_none_iff.mp hnone)
  obtain ⟨entries, hentries⟩ := Option.ne_none_iff_exists'.mp hpush
  unfold revoke
  rw [hentries]
  dsimp only
  split
  · split
    · split
      · simp
      · simp
    · simp
  · simp

end RevocationList

namespace Neighbor

theorem relation_eq_none_iff {n : Neighbor width} :
    n.relation = none ↔ n.tentative = none ∧ n.permanent = none := by
  obtain ⟨address, tentative, permanent⟩ := n
  cases permanent with
  | some sender => simp [relation]
  | none => cases tentative <;> simp [relation]

end Neighbor

namespace RevocationState

open NeighborTable

/-- The state with another random source. -/
def withRandom {ρ' : Type} (random : ρ') (s : RevocationState width capacity τ ρ) :
    RevocationState width capacity τ ρ' :=
  { s with random }

/-- What stops a revocation, with the error that is returned. -/
inductive Obstacle [RandomSource ρ] (c : RevocationConfig) (peer : Address width) (listing : Bool)
    (s : RevocationState width capacity τ ρ) (net : Network width size ℓ π) : Error → Prop
  | full (hlisting : listing = true) (hfull : s.revocations.isFull = true) :
      Obstacle c peer listing s net .capacityExceeded
  | inconsistent {entry} (hroom : listing = true → s.revocations.isFull = false)
      (hlookup : net.neighbors.lookup peer = some entry)
      (hneither : entry.tentative = none ∧ entry.permanent = none) :
      Obstacle c peer listing s net .inconsistentNeighbor
  | undrawn {entry} (hroom : listing = true → s.revocations.isFull = false)
      (hlookup : net.neighbors.lookup peer = some entry)
      (hneighbor : ¬ (entry.tentative = none ∧ entry.permanent = none))
      (hc : c.groupKeys = true) (hdraw : (Key.generate s.random).1 = none) :
      Obstacle c peer listing s net .randomFailure

theorem Obstacle.unique [RandomSource ρ] {c : RevocationConfig} {peer : Address width}
    {listing : Bool} {s : RevocationState width capacity τ ρ} {net : Network width size ℓ π}
    {e e' : Error} (h : Obstacle c peer listing s net e) (h' : Obstacle c peer listing s net e') :
    e = e' := by
  cases h with
  | full hlisting hfull =>
    cases h' with
    | full => rfl
    | inconsistent hroom => simp [hroom hlisting] at hfull
    | undrawn hroom => simp [hroom hlisting] at hfull
  | inconsistent hroom hlookup hneither =>
    cases h' with
    | full hlisting hfull => simp [hroom hlisting] at hfull
    | inconsistent => rfl
    | undrawn _ hlookup' hneighbor =>
      rw [hlookup] at hlookup'
      cases hlookup'
      exact absurd hneither hneighbor
  | undrawn hroom hlookup hneighbor =>
    cases h' with
    | full hlisting hfull => simp [hroom hlisting] at hfull
    | inconsistent _ hlookup' hneither =>
      rw [hlookup] at hlookup'
      cases hlookup'
      exact absurd hneither hneighbor
    | undrawn => rfl

section Cleaning

variable [RecordStore τ] [Routing π width]

/-- The list took the peer if that was asked for, the slots of the peer are empty, and routing has
forgotten it. `report` is what of the listing is told where the revocation goes on to succeed. -/
structure Cleaned (peer : Address width) (listing : Bool) (l l' : RevocationList width capacity τ)
    (net net' : Network width size ℓ π) : Prop where
  enlisted : ∃ report, Enlisted peer listing l l' report
  slots : net'.neighbors.slots = vacated peer net.neighbors.slots
  routing : net'.routing =
    if (Routing.dropParent peer net.routing).1 = .preferredRemoved then
      Routing.advertiseRoute (Routing.selectPreferredParent (Routing.dropParent peer net.routing).2)
    else (Routing.dropParent peer net.routing).2

theorem Enlisted.unique {peer : Address width} {listing : Bool}
    {l l₁ l₂ : RevocationList width capacity τ} {report₁ report₂ : RevocationReport}
    (h₁ : Enlisted peer listing l l₁ report₁) (h₂ : Enlisted peer listing l l₂ report₂) :
    l₁ = l₂ := by
  have hentries := Bounded.toList_inj.mp (h₁.entries.trans h₂.entries.symm)
  have hstore := h₁.store.trans h₂.store.symm
  have hpersistent := h₁.persistent.trans h₂.persistent.symm
  obtain ⟨entries₁, store₁, persistent₁⟩ := l₁
  obtain ⟨entries₂, store₂, persistent₂⟩ := l₂
  dsimp only at hentries hstore hpersistent
  rw [hentries, hstore, hpersistent]

theorem Cleaned.unique {peer : Address width} {listing : Bool}
    {l l₁ l₂ : RevocationList width capacity τ} {net net₁ net₂ : Network width size ℓ π}
    (h₁ : Cleaned peer listing l l₁ net net₁) (h₂ : Cleaned peer listing l l₂ net net₂) :
    l₁ = l₂ ∧ net₁.neighbors = net₂.neighbors ∧ net₁.routing = net₂.routing := by
  obtain ⟨report₁, henlisted₁⟩ := h₁.enlisted
  obtain ⟨report₂, henlisted₂⟩ := h₂.enlisted
  have hslots := h₁.slots.trans h₂.slots.symm
  refine ⟨henlisted₁.unique henlisted₂, ?_, h₁.routing.trans h₂.routing.symm⟩
  cases hneighbors₁ : net₁.neighbors
  cases hneighbors₂ : net₂.neighbors
  rw [hneighbors₁, hneighbors₂] at hslots
  cases hslots
  rfl

end Cleaning

variable [RecordStore τ] [RandomSource ρ] [LinkLayer ℓ width] [Routing π width]
variable (c : RevocationConfig) (now : Instant) {peer : Address width} {listing : Bool}
  {s : RevocationState width capacity τ ρ} {net : Network width size ℓ π}

/-- What a failed revocation leaves behind. The journal apart, all that is not named is as it
was. -/
inductive Residue (peer : Address width) (listing : Bool) (s : RevocationState width capacity τ ρ)
    (net : Network width size ℓ π) :
    Error → RevocationState width capacity τ ρ → Network width size ℓ π → Prop
  | full {journal} : Residue peer listing s net .capacityExceeded { s with journal } net
  | inconsistent {revocations report journal}
      (henlisted : Enlisted peer listing s.revocations revocations report) :
      Residue peer listing s net .inconsistentNeighbor { s with revocations, journal } net
  | undrawn {revocations journal neighbors routing}
      (hcleaned : Cleaned peer listing s.revocations revocations net
        { net with neighbors, routing }) :
      Residue peer listing s net .randomFailure
        { s with revocations, random := (Key.generate s.random).2, journal }
        { net with neighbors, routing }

/-! ## The steps that can fail -/

omit [RandomSource ρ] [LinkLayer ℓ width] [Routing π width] in
theorem enlist_of_full (hfull : s.revocations.isFull = true) (peer : Address width)
    (report : RevocationReport) :
    ∃ journal, s.enlist now peer report = (.error .capacityExceeded, { s with journal }) := by
  have hrevoke := RevocationList.revoke_of_full hfull peer
  rcases s.enlist_cases now peer report with
    ⟨n, list, hok, -⟩ | ⟨list, hlost, -⟩ | ⟨list, hrefused, henlist⟩
  · rw [hrevoke] at hok
    cases hok
  · rw [hrevoke] at hlost
    cases hlost
  · rw [hrevoke] at hrefused
    cases hrefused
    exact ⟨_, henlist⟩

omit [RandomSource ρ] [LinkLayer ℓ width] [Routing π width] in
theorem enlist_of_room (hroom : s.revocations.isFull = false) (peer : Address width)
    (report : RevocationReport) :
    ∃ report' s', s.enlist now peer report = (.ok report', s') := by
  rcases s.enlist_cases now peer report with
    ⟨n, list, -, henlist⟩ | ⟨list, -, henlist⟩ | ⟨list, hrefused, -⟩
  · exact ⟨_, _, henlist⟩
  · exact ⟨_, _, henlist⟩
  · exact absurd (congrArg (·.1) hrefused) (RevocationList.not_full_of_room hroom)

/-- Where the list has room or is not asked, a revocation is the listing and then the removal. -/
theorem revoke_of_room (hroom : listing = true → s.revocations.isFull = false)
    (peer : Address width) (net : Network width size ℓ π) :
    ∃ report list journal, Enlisted peer listing s.revocations list report ∧
      s.revoke c now peer listing net =
        { s with revocations := list, journal }.removePeer c now peer report net := by
  cases listing with
  | false =>
    refine ⟨.blank, s.revocations, s.journal, ⟨?_, rfl, rfl, rfl, ?_⟩, rfl⟩
    · exact (List.append_nil _).symm
    · exact iff_of_false Bool.false_ne_true fun h => Bool.false_ne_true h.1
  | true =>
    obtain ⟨report, s₁, henlist⟩ := enlist_of_room now (hroom rfl) peer .blank
    obtain ⟨henlisted, -, journal, hs₁⟩ := enlist_ok henlist
    refine ⟨report, s₁.revocations, journal, henlisted, ?_⟩
    rw [revoke, if_pos rfl, henlist, ← hs₁]

omit [RecordStore τ] in
theorem removePeer_of_neither {entry : Neighbor width}
    (hlookup : net.neighbors.lookup peer = some entry)
    (hneither : entry.tentative = none ∧ entry.permanent = none) (report : RevocationReport) :
    ∃ journal, s.removePeer c now peer report net =
      (.error .inconsistentNeighbor, { s with journal }, net) := by
  rw [← Neighbor.relation_eq_none_iff] at hneither
  simp only [removePeer, hlookup, hneither]
  exact ⟨_, rfl⟩

omit [RecordStore τ] in
/-- A removal that cannot draw a key ends after the clean-up of table and routing. -/
theorem expel_of_undrawn {entry : Neighbor width} {relation : Relation}
    (hdistinct : net.neighbors.Distinct) (hlookup : net.neighbors.lookup peer = some entry)
    (hrelation : entry.relation = some relation) (hc : c.groupKeys = true)
    (hdraw : (Key.generate s.random).1 = none) (report : RevocationReport) :
    ∃ journal neighbors routing,
      s.expel c now entry relation report net =
        (.error .randomFailure, { s with random := (Key.generate s.random).2, journal },
          { net with neighbors, routing }) ∧
      neighbors.slots = vacated peer net.neighbors.slots ∧
      routing = if (Routing.dropParent peer net.routing).1 = .preferredRemoved then
          Routing.advertiseRoute
            (Routing.selectPreferredParent (Routing.dropParent peer net.routing).2)
        else (Routing.dropParent peer net.routing).2 := by
  have hslots := slots_dropNeighbor now s hdistinct hlookup hrelation
  obtain ⟨journal, neighbors, hdrop, -⟩ := s.dropNeighbor_frame now entry relation net
  obtain ⟨journal₁, routing, hparent, hrouting⟩ := dropParent_eq now entry.address
    { s with journal } { net with neighbors }
  rw [hdrop] at hslots
  rcases renewGroupKey_cases hc now { s with journal := journal₁ }
    { net with neighbors, routing } with ⟨key, random, journal₂, hkey, -⟩ |
      ⟨random, journal₂, hkey, hrenew⟩
  · rw [hkey] at hdraw
    cases hdraw
  · rw [address_of_lookup hlookup] at hrouting
    refine ⟨journal₂, neighbors, routing, ?_, hslots, hrouting⟩
    simp only [expel, hdrop, hparent, hrenew, hkey]

omit [RecordStore τ] in
/-- A removal that has a key or needs none succeeds. -/
theorem expel_of_drawn (entry : Neighbor width) (relation : Relation)
    (hdraw : c.groupKeys = true → (Key.generate s.random).1 ≠ none) (report : RevocationReport)
    (net : Network width size ℓ π) :
    ∃ report' s' net', s.expel c now entry relation report net = (.ok report', s', net') := by
  obtain ⟨journal, neighbors, hdrop, -⟩ := s.dropNeighbor_frame now entry relation net
  obtain ⟨removal, journal₁, routing, hparent⟩ := dropParent_frame now entry.address
    { s with journal } { net with neighbors }
  have hrenewed : ∃ sent s₁ net₁, renewGroupKey c now { s with journal := journal₁ }
      { net with neighbors, routing } = (.ok sent, s₁, net₁) := by
    cases hc : c.groupKeys with
    | false => exact ⟨_, _, _, by rw [renewGroupKey, hc]; rfl⟩
    | true =>
      rcases renewGroupKey_cases hc now { s with journal := journal₁ }
        { net with neighbors, routing } with ⟨key, random, journal₂, -, hrenew⟩ |
          ⟨random, journal₂, hkey, -⟩
      · exact ⟨_, _, _, hrenew⟩
      · exact absurd (congrArg (·.1) hkey) (hdraw hc)
  obtain ⟨sent, s₁, net₁, hrenew⟩ := hrenewed
  simp only [expel, hdrop, hparent, hrenew]
  exact ⟨_, _, _, rfl⟩

/-- A revocation of a neighbor that is not stopped by the list is the listing and then the removal
of the neighbor. -/
theorem revoke_eq_expel {entry : Neighbor width}
    (hroom : listing = true → s.revocations.isFull = false)
    (hlookup : net.neighbors.lookup peer = some entry)
    (hneighbor : ¬ (entry.tentative = none ∧ entry.permanent = none)) :
    ∃ report list journal relation, Enlisted peer listing s.revocations list report ∧
      entry.relation = some relation ∧
      s.revoke c now peer listing net =
        { s with revocations := list, journal }.expel c now entry relation report net := by
  obtain ⟨report, list, journal, henlisted, hrevoke⟩ :=
    revoke_of_room c now hroom peer net
  obtain ⟨relation, hrelation⟩ :=
    Option.ne_none_iff_exists'.mp (mt Neighbor.relation_eq_none_iff.mp hneighbor)
  refine ⟨report, list, journal, relation, henlisted, hrelation, ?_⟩
  simp only [hrevoke, removePeer, hlookup, hrelation]

/-- A revocation of a neighbor with a key that can be drawn, or without need of one, succeeds. -/
theorem revoke_of_drawn {entry : Neighbor width} (hdistinct : net.neighbors.Distinct)
    (hroom : listing = true → s.revocations.isFull = false)
    (hlookup : net.neighbors.lookup peer = some entry)
    (hneighbor : ¬ (entry.tentative = none ∧ entry.permanent = none))
    (hdraw : c.groupKeys = true → (Key.generate s.random).1 ≠ none) :
    ∃ report s' net', s.revoke c now peer listing net = (.ok report, s', net') ∧
      Cleaned peer listing s.revocations s'.revocations net net' := by
  obtain ⟨report, list, journal, relation, henlisted, hrelation, hexpel⟩ :=
    revoke_eq_expel c now hroom hlookup hneighbor
  obtain ⟨report', s', net', hok⟩ := expel_of_drawn c now entry relation
    (s := { s with revocations := list, journal }) hdraw report net
  obtain ⟨-, -, hrevocations, hremoved⟩ := expel_ok hdistinct hlookup hrelation hok
  have hexpelled := hremoved.ofNeighbor entry hlookup
  refine ⟨report', s', net', hexpel.trans hok, ⟨⟨report, ?_⟩, hremoved.slots, ?_⟩⟩
  · rw [hrevocations]
    exact henlisted
  · rw [← hexpelled.parent]
    exact hexpelled.routing

/-- A revocation of a neighbor that needs a key and cannot draw it fails after the clean-up. -/
theorem revoke_of_undrawn {entry : Neighbor width} (hdistinct : net.neighbors.Distinct)
    (hroom : listing = true → s.revocations.isFull = false)
    (hlookup : net.neighbors.lookup peer = some entry)
    (hneighbor : ¬ (entry.tentative = none ∧ entry.permanent = none))
    (hc : c.groupKeys = true) (hdraw : (Key.generate s.random).1 = none) :
    ∃ s' net', s.revoke c now peer listing net = (.error .randomFailure, s', net') ∧
      Residue peer listing s net .randomFailure s' net' := by
  obtain ⟨report, list, journal, relation, henlisted, hrelation, hexpel⟩ :=
    revoke_eq_expel c now hroom hlookup hneighbor
  obtain ⟨journal₁, neighbors, routing, hundrawn, hslots, hrouting⟩ :=
    expel_of_undrawn c now (s := { s with revocations := list, journal })
      hdistinct hlookup hrelation hc hdraw report
  exact ⟨_, _, hexpel.trans hundrawn, .undrawn ⟨⟨report, henlisted⟩, hslots, hrouting⟩⟩

theorem revoke_of_neither {entry : Neighbor width}
    (hroom : listing = true → s.revocations.isFull = false)
    (hlookup : net.neighbors.lookup peer = some entry)
    (hneither : entry.tentative = none ∧ entry.permanent = none) :
    ∃ s' net', s.revoke c now peer listing net = (.error .inconsistentNeighbor, s', net') ∧
      Residue peer listing s net .inconsistentNeighbor s' net' := by
  obtain ⟨report, list, journal, henlisted, hrevoke⟩ :=
    revoke_of_room c now hroom peer net
  obtain ⟨journal₁, hremove⟩ := removePeer_of_neither c now
    (s := { s with revocations := list, journal }) hlookup hneither report
  exact ⟨_, _, hrevoke.trans hremove, .inconsistent henlisted⟩

theorem revoke_of_absent (hroom : listing = true → s.revocations.isFull = false)
    (hlookup : net.neighbors.lookup peer = none) :
    ∃ report, (s.revoke c now peer listing net).1 = .ok report := by
  obtain ⟨report, list, journal, -, hrevoke⟩ :=
    revoke_of_room c now hroom peer net
  refine ⟨report, ?_⟩
  simp only [hrevoke, removePeer, hlookup]

theorem revoke_of_full (hlisting : listing = true) (hfull : s.revocations.isFull = true) :
    ∃ s' net', s.revoke c now peer listing net = (.error .capacityExceeded, s', net') ∧
      Residue peer listing s net .capacityExceeded s' net' := by
  obtain ⟨journal, henlist⟩ := enlist_of_full now hfull peer .blank
  have hrevoke : s.revoke c now peer listing net =
      (.error .capacityExceeded, { s with journal }, net) := by
    rw [revoke, if_pos hlisting, henlist]
  exact ⟨_, _, hrevoke, .full⟩

/-! ## The three reasons -/

/-- A revocation meets an obstacle and leaves the residue of that, or it meets none and succeeds. -/
theorem revoke_outcome (peer : Address width) (listing : Bool)
    (s : RevocationState width capacity τ ρ) (hdistinct : net.neighbors.Distinct) :
    (∃ e, Obstacle c peer listing s net e ∧ ∃ s' net',
      s.revoke c now peer listing net = (.error e, s', net') ∧
      Residue peer listing s net e s' net') ∨
    (∀ e, ¬ Obstacle c peer listing s net e) ∧
      ∃ report, (s.revoke c now peer listing net).1 = .ok report := by
  by_cases hroom : listing = true → s.revocations.isFull = false
  · cases hlookup : net.neighbors.lookup peer with
    | none =>
      refine .inr ⟨fun e hobstacle => ?_, revoke_of_absent c now hroom hlookup⟩
      cases hobstacle with
      | full hlisting hfull => simp [hroom hlisting] at hfull
      | inconsistent _ hentry => simp [hlookup] at hentry
      | undrawn _ hentry => simp [hlookup] at hentry
    | some entry =>
      by_cases hneither : entry.tentative = none ∧ entry.permanent = none
      · exact .inl ⟨_, .inconsistent hroom hlookup hneither,
          revoke_of_neither c now hroom hlookup hneither⟩
      · by_cases hdraw : c.groupKeys = true → (Key.generate s.random).1 ≠ none
        · obtain ⟨report, s', net', hok, -⟩ :=
            revoke_of_drawn c now hdistinct hroom hlookup hneither hdraw
          refine .inr ⟨fun e hobstacle => ?_, report, by rw [hok]⟩
          cases hobstacle with
          | full hlisting hfull => simp [hroom hlisting] at hfull
          | inconsistent _ hentry hneither' =>
            rw [hlookup] at hentry
            cases hentry
            exact hneither hneither'
          | undrawn _ _ _ hc hnone => exact hdraw hc hnone
        · rw [Classical.not_imp, Classical.not_not] at hdraw
          exact .inl ⟨_, .undrawn hroom hlookup hneither hdraw.1 hdraw.2,
            revoke_of_undrawn c now hdistinct hroom hlookup hneither hdraw.1 hdraw.2⟩
  · rw [Classical.not_imp, Bool.not_eq_false] at hroom
    exact .inl ⟨_, .full hroom.1 hroom.2, revoke_of_full c now hroom.1 hroom.2⟩

/-- A revocation fails exactly where it meets an obstacle, so never for a record that was not
stored, and what it leaves behind depends on the obstacle. Where no key could be drawn, the same
revocation with a random source that delivers one succeeds, and leaves the same list, the same
neighbor table and the same routing. -/
theorem failed_revocation (peer : Address width) (listing : Bool)
    (s : RevocationState width capacity τ ρ) (hdistinct : net.neighbors.Distinct) :
    (∀ e, (s.revoke c now peer listing net).1 = .error e ↔ Obstacle c peer listing s net e) ∧
    (s.revoke c now peer listing net).1 ≠ .error .recordNotStored ∧
    ∀ e s' net', s.revoke c now peer listing net = (.error e, s', net') →
      Residue peer listing s net e s' net' ∧
      (e = .randomFailure →
        ∀ {ρ' : Type} [RandomSource ρ'] (random : ρ'), (Key.generate random).1 ≠ none →
          ∃ report s'' net'',
            (s.withRandom random).revoke c now peer listing net = (.ok report, s'', net'') ∧
            s''.revocations = s'.revocations ∧ net''.neighbors = net'.neighbors ∧
            net''.routing = net'.routing) := by
  have hexact : ∀ e, (s.revoke c now peer listing net).1 = .error e ↔
      Obstacle c peer listing s net e := by
    intro e
    rcases revoke_outcome c now peer listing s hdistinct with
      ⟨e', hobstacle, s', net', hrevoke, -⟩ | ⟨hnone, report, hok⟩
    · rw [hrevoke]
      constructor
      · rintro herror
        cases herror
        exact hobstacle
      · intro h
        rw [h.unique hobstacle]
    · rw [hok]
      exact iff_of_false (fun h => by cases h) (hnone e)
  refine ⟨hexact, ?_, ?_⟩
  · rw [Ne, hexact]
    intro hobstacle
    cases hobstacle
  · intro e s' net' hfailed
    have hobstacle := (hexact e).mp (by rw [hfailed])
    rcases revoke_outcome c now peer listing s hdistinct with
      ⟨e', -, t, u, hrevoke, hresidue⟩ | ⟨hnone, -⟩
    · rw [hrevoke] at hfailed
      cases hfailed
      refine ⟨hresidue, ?_⟩
      rintro rfl ρ' _ random hdraw
      cases hobstacle with
      | undrawn hroom hlookup hneighbor hc hnone =>
        obtain ⟨report, s'', net'', hok, hcleaned⟩ := revoke_of_drawn c now
          (s := s.withRandom random) hdistinct hroom hlookup hneighbor fun _ => hdraw
        cases hresidue with
        | undrawn hcleaned' => exact ⟨report, s'', net'', hok, hcleaned.unique hcleaned'⟩
    · exact absurd hobstacle (hnone e)

/-- The preferred parent of `surroundings` is to be revoked, with a random source that fails. -/
theorem failed_revocation_deadSource :
    surroundings.neighbors.Distinct ∧
    ∃ s' net',
      (settled.withRandom Generator.dead).revoke .standard ⟨50⟩ (.repeated 2) true surroundings =
        (.error .randomFailure, s', net') ∧
      Obstacle .standard (.repeated 2) true (settled.withRandom Generator.dead) surroundings
        .randomFailure ∧
      Residue (.repeated 2) true (settled.withRandom Generator.dead) surroundings .randomFailure
        s' net' ∧
      s'.revocations.entries.toList = [.repeated 2] ∧
      net'.neighbors.lookup (.repeated 2) = none ∧ net'.link.updates = [] ∧
      (Key.generate (Generator.constant ⟨7⟩)).1 ≠ none ∧
      ∃ report s'' net'',
        ((settled.withRandom Generator.dead).withRandom (Generator.constant ⟨7⟩)).revoke .standard
          ⟨50⟩ (.repeated 2) true surroundings = (.ok report, s'', net'') ∧
        s''.revocations = s'.revocations ∧ net''.neighbors = net'.neighbors ∧
        net''.routing = net'.routing := by
  have hdistinct : surroundings.neighbors.Distinct := by decide
  have hdraw : (Key.generate (Generator.constant ⟨7⟩)).1 ≠ none := Option.some_ne_none _
  have hfailed : (settled.withRandom Generator.dead).revoke .standard ⟨50⟩ (.repeated 2) true
    surroundings = (.error .randomFailure, _, _) := rfl
  obtain ⟨hexact, -, hleft⟩ := failed_revocation .standard ⟨50⟩ (.repeated 2) true
    (settled.withRandom Generator.dead) hdistinct
  obtain ⟨hresidue, hsame⟩ := hleft _ _ _ hfailed
  exact ⟨hdistinct, _, _, hfailed, (hexact _).mp (by rw [hfailed]), hresidue, rfl, rfl, rfl, hdraw,
    hsame rfl _ hdraw⟩

end RevocationState

end MeshSecurity
