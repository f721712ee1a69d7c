import MeshSecurity.GroupKey
import MeshSecurity.RevocationList
import MeshSecurity.Trickle

/-!
# Revoking a node

A revocation enters the node in the revocation list, if that is asked for, and removes it as a
neighbor: from the neighbor table, from the parents of routing, and from those who know the group
key. At last HELLO dissemination is reset, so that the neighbors establish keys anew. A node that
is no neighbor is only listed. A full list stops the revocation at once; a record that could not
be stored does not.
-/

namespace MeshSecurity

/-- What a revocation changed. -/
structure RevocationReport where
  /-- The number of entries of the revocation list, if the node was entered. -/
  listed : Option Nat
  /-- Whether the record of the entry could not be stored. -/
  notStored : Bool
  removed : Option Relation
  parent : ParentRemoval
  /-- The number of neighbors to which a new group key was sent, if there was a rotation. -/
  updatesSent : Option Nat
  trickleReset : Bool
deriving DecidableEq

namespace RevocationReport

/-- The report of a revocation that has changed nothing yet. -/
def blank : RevocationReport := ⟨none, false, none, .notParent, none, false⟩

end RevocationReport

/-- The state of a node that revocations change. -/
structure RevocationState (width capacity : Nat) (τ ρ : Type) where
  revocations : RevocationList width capacity τ
  groupKeys : GroupKeys
  trickle : Trickle
  random : ρ
  journal : Journal

namespace RevocationState

variable {width capacity size : Nat} {τ ρ ℓ π : Type}

def component : String := "revocation"

def note (level : Level) (now : Instant) (parts : List String)
    (s : RevocationState width capacity τ ρ) : RevocationState width capacity τ ρ :=
  { s with journal := s.journal.write level now component parts }

section Listing

variable [RecordStore τ]

/-- Enters a peer in the list and notes that in the report. Only a full list is an error. -/
def enlist (now : Instant) (peer : Address width) (report : RevocationReport)
    (s : RevocationState width capacity τ ρ) :
    Except Error RevocationReport × RevocationState width capacity τ ρ :=
  let (result, revocations) := s.revocations.revoke peer
  let s := { s with revocations }
  match result with
  | .ok length => (.ok { report with listed := some length }, s)
  | .error .recordNotStored =>
    (.ok { report with listed := some revocations.length, notStored := true },
      s.note .error now ["failed to persist revocation of ", peer.text])
  | .error e => (.error e, s.note .warn now ["cannot revoke ", peer.text, ": ", e.message])

end Listing

section Removal

variable [Routing π width]

/-- Deletes all parts of a neighbor, where `relation` is the one to act on. -/
def dropNeighbor (now : Instant) (entry : Neighbor width) (relation : Relation)
    (s : RevocationState width capacity τ ρ) (net : Network width size ℓ π) :
    RevocationState width capacity τ ρ × Network width size ℓ π :=
  let neighbors := (net.neighbors.remove entry.address relation).2
  if relation = .permanent ∧ entry.has .tentative then
    (s.note .info now ["pending re-key of ", entry.address.text, " dropped"],
      { net with neighbors := (neighbors.remove entry.address .tentative).2 })
  else (s, { net with neighbors })

/-- Has routing forget a parent. In place of a preferred one another is chosen and advertised. -/
def dropParent (now : Instant) (peer : Address width) (s : RevocationState width capacity τ ρ)
    (net : Network width size ℓ π) :
    ParentRemoval × RevocationState width capacity τ ρ × Network width size ℓ π :=
  match Routing.dropParent peer net.routing with
  | (.preferredRemoved, routing) =>
    (.preferredRemoved, s.note .info now ["preferred parent ", peer.text, " dropped"],
      { net with routing := Routing.advertiseRoute (Routing.selectPreferredParent routing) })
  | (removal, routing) => (removal, s, { net with routing })

end Removal

section Renewal

variable [RandomSource ρ] [LinkLayer ℓ width]

/-- Rotates the group key, if group keys are in use. -/
def renewGroupKey (c : RevocationConfig) (now : Instant)
    (s : RevocationState width capacity τ ρ) (net : Network width size ℓ π) :
    Except Error (Option Nat) × RevocationState width capacity τ ρ × Network width size ℓ π :=
  if c.groupKeys then
    let (result, groupKeys, random, net, journal) :=
      s.groupKeys.rotate now s.random net s.journal
    let s := { s with groupKeys, random, journal }
    match result with
    | .ok sent => (.ok (some sent), s, net)
    | .error e =>
      (.error e, s.note .error now ["group key rotation failed: ", e.message], net)
  else (.ok none, s, net)

/-- Resets HELLO dissemination and tells whether that had an effect. A failure is only noted. -/
def resetTrickle (now : Instant) (s : RevocationState width capacity τ ρ) :
    Bool × RevocationState width capacity τ ρ :=
  let (result, trickle, random) := s.trickle.reset now s.random
  let s := { s with trickle, random }
  match result with
  | .ok event => (event.isSome, s)
  | .error e => (false, s.note .warn now ["trickle reset failed: ", e.message])

end Renewal

variable [RecordStore τ] [RandomSource ρ] [LinkLayer ℓ width] [Routing π width]

/-- Removes a neighbor from table, routing and group key, and resets dissemination. -/
def expel (c : RevocationConfig) (now : Instant) (entry : Neighbor width) (relation : Relation)
    (report : RevocationReport) (s : RevocationState width capacity τ ρ)
    (net : Network width size ℓ π) :
    Except Error RevocationReport × RevocationState width capacity τ ρ ×
      Network width size ℓ π :=
  let (s, net) := s.dropNeighbor now entry relation net
  let (parent, s, net) := s.dropParent now entry.address net
  match s.renewGroupKey c now net with
  | (.error e, s, net) => (.error e, s, net)
  | (.ok updatesSent, s, net) =>
    let (trickleReset, s) := s.resetTrickle now
    (.ok { report with removed := some relation, parent, updatesSent, trickleReset },
      s.note .info now ["revoked ", entry.address.text], net)

/-- Removes a peer, if it is a neighbor. -/
def removePeer (c : RevocationConfig) (now : Instant) (peer : Address width)
    (report : RevocationReport) (s : RevocationState width capacity τ ρ)
    (net : Network width size ℓ π) :
    Except Error RevocationReport × RevocationState width capacity τ ρ ×
      Network width size ℓ π :=
  match net.neighbors.lookup peer with
  | none => (.ok report, s.note .info now [peer.text, " is not a neighbor"], net)
  | some entry =>
    match entry.relation with
    | none =>
      (.error .inconsistentNeighbor,
        s.note .error now [peer.text, " is neither tentative nor permanent"], net)
    | some relation => s.expel c now entry relation report net

/-- Revokes a peer, and enters it in the revocation list if `listing` is set. -/
def revoke (c : RevocationConfig) (now : Instant) (peer : Address width) (listing : Bool)
    (s : RevocationState width capacity τ ρ) (net : Network width size ℓ π) :
    Except Error RevocationReport × RevocationState width capacity τ ρ ×
      Network width size ℓ π :=
  if listing then
    match s.enlist now peer .blank with
    | (.error e, s) => (.error e, s, net)
    | (.ok report, s) => s.removePeer c now peer report net
  else s.removePeer c now peer .blank net

end RevocationState

end MeshSecurity
