import MeshSecurity.Proofs.NeighborLookup
import MeshSecurity.Revocation

/-!
# The steps of a revocation

For each step: the ways in which it can end, with all it leaves behind, or the parts of the state
that it does not reach. Laws of whole revocations are drawn from these and open no step again.
-/

namespace MeshSecurity

variable {width capacity size : Nat} {τ ρ ℓ π : Type}

namespace RevocationList

variable [RecordStore τ]

theorem error_of_revoke {peer : Address width} {l : RevocationList width capacity τ} {e : Error}
    (h : (l.revoke peer).1 = .error e) : e = .capacityExceeded ∨ e = .recordNotStored := by
  unfold revoke at h
  split at h
  · cases h
    exact .inl rfl
  · split at h
    · split at h
      · split at h <;> cases h
        exact .inr rfl
      · cases h
        exact .inr rfl
    · cases h

theorem revoke_eq_of_full {peer : Address width} {l : RevocationList width capacity τ}
    (h : (l.revoke peer).1 = .error .capacityExceeded) : (l.revoke peer).2 = l := by
  unfold revoke at h ⊢
  cases hpush : l.entries.push? peer with
  | none => rfl
  | some entries =>
    rw [hpush] at h
    dsimp only at h
    split at h
    · split at h
      · split at h <;> cases h
      · cases h
    · cases h

end RevocationList

namespace RevocationState

/-- Entering a peer: the list takes it, or its record is not stored, or the list is full. -/
theorem enlist_cases [RecordStore τ] (now : Instant) (peer : Address width)
    (report : RevocationReport) (s : RevocationState width capacity τ ρ) :
    (∃ n list, s.revocations.revoke peer = (.ok n, list) ∧
      s.enlist now peer report = (.ok { report with listed := some n },
        { s with revocations := list })) ∨
    (∃ list, s.revocations.revoke peer = (.error .recordNotStored, list) ∧
      s.enlist now peer report =
        (.ok { report with listed := some list.length, notStored := true },
          { s with revocations := list }.note .error now
            ["failed to persist revocation of ", peer.text])) ∨
    (∃ list, s.revocations.revoke peer = (.error .capacityExceeded, list) ∧
      s.enlist now peer report = (.error .capacityExceeded,
        { s with revocations := list }.note .warn now
          ["cannot revoke ", peer.text, ": ", Error.capacityExceeded.message])) := by
  cases hrevoke : s.revocations.revoke peer with
  | mk result list =>
    cases result with
    | ok n => exact .inl ⟨n, list, rfl, by simp only [enlist, hrevoke]⟩
    | error e =>
      rcases RevocationList.error_of_revoke (by rw [hrevoke]) with rfl | rfl
      · exact .inr (.inr ⟨list, rfl, by simp only [enlist, hrevoke]⟩)
      · exact .inr (.inl ⟨list, rfl, by simp only [enlist, hrevoke]⟩)

/-- Deleting a neighbor reaches only the journal and the table, and there no other neighbor. -/
theorem dropNeighbor_frame (now : Instant) (entry : Neighbor width) (relation : Relation)
    (s : RevocationState width capacity τ ρ) (net : Network width size ℓ π) :
    ∃ journal neighbors,
      s.dropNeighbor now entry relation net = ({ s with journal }, { net with neighbors }) ∧
      ∀ p, p ≠ entry.address → neighbors.lookup p = net.neighbors.lookup p := by
  unfold dropNeighbor
  split
  · refine ⟨_, _, rfl, fun p hp => ?_⟩
    rw [NeighborTable.lookup_remove_of_ne hp, NeighborTable.lookup_remove_of_ne hp]
  · exact ⟨_, _, rfl, fun p hp => NeighborTable.lookup_remove_of_ne hp _ _⟩

theorem dropParent_frame [Routing π width] (now : Instant) (peer : Address width)
    (s : RevocationState width capacity τ ρ) (net : Network width size ℓ π) :
    ∃ removal journal routing,
      s.dropParent now peer net = (removal, { s with journal }, { net with routing }) := by
  unfold dropParent
  split
  · exact ⟨_, _, _, rfl⟩
  · exact ⟨_, _, _, rfl⟩

variable [RandomSource ρ]

/-- Renewing the group key: the one that is drawn is distributed and replaces the current one, or
no key can be drawn. -/
theorem renewGroupKey_cases [LinkLayer ℓ width] {c : RevocationConfig} (hc : c.groupKeys = true)
    (now : Instant) (s : RevocationState width capacity τ ρ) (net : Network width size ℓ π) :
    (∃ key random journal, Key.generate s.random = (some key, random) ∧
      s.renewGroupKey c now net = (.ok (some (GroupKeys.distribute now key net s.journal).sent),
        { s with groupKeys := ⟨some key, s.groupKeys.rotations + 1⟩, random, journal },
        { net with link := (GroupKeys.distribute now key net s.journal).link })) ∨
    (∃ random journal, Key.generate s.random = (none, random) ∧
      s.renewGroupKey c now net = (.error .randomFailure, { s with random, journal }, net)) := by
  cases hkey : Key.generate s.random with
  | mk drawn random =>
    cases drawn with
    | some key =>
      left
      simp only [renewGroupKey, if_pos hc, GroupKeys.rotate, hkey]
      exact ⟨key, random, _, rfl, rfl⟩
    | none =>
      right
      simp only [renewGroupKey, if_pos hc, GroupKeys.rotate, hkey]
      exact ⟨random, _, rfl, rfl⟩

theorem renewGroupKey_frame [LinkLayer ℓ width] (c : RevocationConfig) (now : Instant)
    (s : RevocationState width capacity τ ρ) (net : Network width size ℓ π) :
    ∃ result groupKeys random journal link,
      s.renewGroupKey c now net =
        (result, { s with groupKeys, random, journal }, { net with link }) := by
  cases hc : c.groupKeys with
  | false => exact ⟨_, _, _, _, _, by rw [renewGroupKey, hc]; rfl⟩
  | true =>
    rcases renewGroupKey_cases hc now s net with
      ⟨key, random, journal, -, hrenew⟩ | ⟨random, journal, -, hrenew⟩
    · exact ⟨_, _, _, _, _, hrenew⟩
    · exact ⟨_, _, _, _, _, hrenew⟩

theorem resetTrickle_frame (now : Instant) (s : RevocationState width capacity τ ρ) :
    ∃ effective trickle random journal,
      s.resetTrickle now = (effective, { s with trickle, random, journal }) := by
  unfold resetTrickle
  dsimp only
  split
  · exact ⟨_, _, _, _, rfl⟩
  · exact ⟨_, _, _, _, rfl⟩

variable [LinkLayer ℓ width] [Routing π width]

theorem expel_frame (c : RevocationConfig) (now : Instant) (entry : Neighbor width)
    (relation : Relation) (report : RevocationReport) (s : RevocationState width capacity τ ρ)
    (net : Network width size ℓ π) :
    ∃ groupKeys trickle random journal,
      (s.expel c now entry relation report net).2.1 =
        { s with groupKeys, trickle, random, journal } := by
  obtain ⟨journal, neighbors, hdrop, -⟩ := s.dropNeighbor_frame now entry relation net
  obtain ⟨removal, journal₁, routing, hparent⟩ := dropParent_frame now entry.address
    { s with journal } { net with neighbors }
  obtain ⟨result, groupKeys, random, journal₂, link, hrenew⟩ := renewGroupKey_frame c now
    { s with journal := journal₁ } { net with neighbors, routing }
  unfold expel
  rw [hdrop]
  dsimp only
  rw [hparent]
  dsimp only
  rw [hrenew]
  cases result with
  | error e => exact ⟨_, _, _, _, rfl⟩
  | ok sent =>
    obtain ⟨effective, trickle, random₁, journal₃, hreset⟩ := resetTrickle_frame now
      { s with groupKeys, random, journal := journal₂ }
    dsimp only
    rw [hreset]
    exact ⟨_, _, _, _, rfl⟩

theorem removePeer_frame (c : RevocationConfig) (now : Instant) (peer : Address width)
    (report : RevocationReport) (s : RevocationState width capacity τ ρ)
    (net : Network width size ℓ π) :
    ∃ groupKeys trickle random journal,
      (s.removePeer c now peer report net).2.1 =
        { s with groupKeys, trickle, random, journal } := by
  unfold removePeer
  split
  · exact ⟨_, _, _, _, rfl⟩
  · split
    · exact ⟨_, _, _, _, rfl⟩
    · exact expel_frame c now _ _ report s net

end RevocationState

end MeshSecurity
