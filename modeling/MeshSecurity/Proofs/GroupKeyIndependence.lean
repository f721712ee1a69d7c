import MeshSecurity.Revocation

/-!
# The group key is replaced and never read

Whatever the current group key is, a revocation yields the same and leaves the same behind, the
group key apart. A rotation draws a new key and does not ask for the old one.
-/

namespace MeshSecurity

variable {width capacity size : Nat} {τ ρ ℓ π : Type}

namespace GroupKeys

/-- The state of the rotations with another current key. -/
def withCurrent (current : Option Key) (g : GroupKeys) : GroupKeys := { g with current }

theorem rotate_withCurrent [RandomSource ρ] [LinkLayer ℓ width] (current : Option Key)
    (now : Instant) (g : GroupKeys) (random : ρ) (net : Network width size ℓ π)
    (journal : Journal) :
    ∃ current', (g.withCurrent current).rotate now random net journal =
      ((g.rotate now random net journal).1,
        (g.rotate now random net journal).2.1.withCurrent current',
        (g.rotate now random net journal).2.2) := by
  unfold rotate
  split
  · exact ⟨current, rfl⟩
  · rename_i key random' hkey
    exact ⟨some key, rfl⟩

end GroupKeys

namespace RevocationState

/-- The state with another group key. -/
def withGroupKey (current : Option Key) (s : RevocationState width capacity τ ρ) :
    RevocationState width capacity τ ρ :=
  { s with groupKeys := s.groupKeys.withCurrent current }

variable (current : Option Key) (now : Instant) (s : RevocationState width capacity τ ρ)
  (net : Network width size ℓ π)

theorem enlist_withGroupKey [RecordStore τ] (peer : Address width) (report : RevocationReport) :
    (s.withGroupKey current).enlist now peer report =
      ((s.enlist now peer report).1, (s.enlist now peer report).2.withGroupKey current) := by
  unfold enlist
  dsimp only [withGroupKey]
  split
  · rfl
  · rfl
  · rfl

theorem dropNeighbor_withGroupKey (entry : Neighbor width) (relation : Relation) :
    (s.withGroupKey current).dropNeighbor now entry relation net =
      ((s.dropNeighbor now entry relation net).1.withGroupKey current,
        (s.dropNeighbor now entry relation net).2) := by
  unfold dropNeighbor
  dsimp only
  split
  · rfl
  · rfl

theorem dropParent_withGroupKey [Routing π width] (peer : Address width) :
    (s.withGroupKey current).dropParent now peer net =
      ((s.dropParent now peer net).1, (s.dropParent now peer net).2.1.withGroupKey current,
        (s.dropParent now peer net).2.2) := by
  unfold dropParent
  split
  · rfl
  · rfl

section Renewal

variable [RandomSource ρ]

theorem renewGroupKey_withGroupKey [LinkLayer ℓ width] (c : RevocationConfig) :
    ∃ current', (s.withGroupKey current).renewGroupKey c now net =
      ((s.renewGroupKey c now net).1, (s.renewGroupKey c now net).2.1.withGroupKey current',
        (s.renewGroupKey c now net).2.2) := by
  obtain ⟨current', hrotate⟩ := s.groupKeys.rotate_withCurrent current now s.random net s.journal
  unfold renewGroupKey
  dsimp only [withGroupKey]
  rw [hrotate]
  generalize s.groupKeys.rotate now s.random net s.journal = rotated
  obtain ⟨result, groupKeys, random, net', journal⟩ := rotated
  split
  · cases result with
    | ok sent => exact ⟨_, rfl⟩
    | error e => exact ⟨_, rfl⟩
  · exact ⟨_, rfl⟩

theorem resetTrickle_withGroupKey :
    (s.withGroupKey current).resetTrickle now =
      ((s.resetTrickle now).1, (s.resetTrickle now).2.withGroupKey current) := by
  unfold resetTrickle
  dsimp only [withGroupKey]
  split
  · rfl
  · rfl

end Renewal

variable [RandomSource ρ] [LinkLayer ℓ width] [Routing π width]

theorem expel_withGroupKey (c : RevocationConfig) (entry : Neighbor width) (relation : Relation)
    (report : RevocationReport) :
    ∃ current', (s.withGroupKey current).expel c now entry relation report net =
      ((s.expel c now entry relation report net).1,
        (s.expel c now entry relation report net).2.1.withGroupKey current',
        (s.expel c now entry relation report net).2.2) := by
  unfold expel
  rw [dropNeighbor_withGroupKey]
  generalize s.dropNeighbor now entry relation net = dropped
  obtain ⟨s, net⟩ := dropped
  dsimp only
  rw [dropParent_withGroupKey]
  generalize s.dropParent now entry.address net = dropped
  obtain ⟨parent, s, net⟩ := dropped
  obtain ⟨current', hkey⟩ := renewGroupKey_withGroupKey current now s net c
  dsimp only
  rw [hkey]
  generalize s.renewGroupKey c now net = renewed
  obtain ⟨result, s, net⟩ := renewed
  cases result with
  | error e => exact ⟨current', rfl⟩
  | ok updatesSent =>
    dsimp only
    rw [resetTrickle_withGroupKey]
    exact ⟨current', rfl⟩

theorem removePeer_withGroupKey (c : RevocationConfig) (peer : Address width)
    (report : RevocationReport) :
    ∃ current', (s.withGroupKey current).removePeer c now peer report net =
      ((s.removePeer c now peer report net).1,
        (s.removePeer c now peer report net).2.1.withGroupKey current',
        (s.removePeer c now peer report net).2.2) := by
  unfold removePeer
  split
  · exact ⟨current, rfl⟩
  · split
    · exact ⟨current, rfl⟩
    · exact expel_withGroupKey current now s net c _ _ report

theorem revoke_withGroupKey [RecordStore τ] (c : RevocationConfig) (peer : Address width)
    (listing : Bool) :
    ∃ current', (s.withGroupKey current).revoke c now peer listing net =
      ((s.revoke c now peer listing net).1,
        (s.revoke c now peer listing net).2.1.withGroupKey current',
        (s.revoke c now peer listing net).2.2) := by
  unfold revoke
  cases listing with
  | false => exact removePeer_withGroupKey current now s net c peer .blank
  | true =>
    rw [if_pos rfl, if_pos rfl, enlist_withGroupKey]
    generalize s.enlist now peer .blank = enlisted
    obtain ⟨result, s⟩ := enlisted
    cases result with
    | error e => exact ⟨current, rfl⟩
    | ok report => exact removePeer_withGroupKey current now s net c peer report

end RevocationState

end MeshSecurity
