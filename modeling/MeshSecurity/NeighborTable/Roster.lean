import Mathlib.Data.Finmap
import MeshSecurity.NeighborTable.Run

/-!
# The roster of neighbors

What a neighbor table is meant to be: a finite map from addresses to the two parts of an entry,
without slots. The operations of a table are given as operations on such a map.
-/

namespace MeshSecurity

/-- What is held of one neighbor. -/
structure Parts where
  tentative : Option Tentative
  permanent : Option Permanent
deriving DecidableEq

namespace Parts

def blank : Parts := ⟨none, none⟩

def has (p : Parts) : Relation → Bool
  | .tentative => p.tentative.isSome
  | .permanent => p.permanent.isSome

def without (p : Parts) : Relation → Parts
  | .tentative => { p with tentative := none }
  | .permanent => { p with permanent := none }

/-- The entry of a peer with these parts. -/
def entry {width : Nat} (p : Parts) (peer : Address width) : Neighbor width :=
  ⟨peer, p.tentative, p.permanent⟩

end Parts

def Neighbor.parts {width : Nat} (n : Neighbor width) : Parts := ⟨n.tentative, n.permanent⟩

/-- A finite map from the addresses of neighbors to what is held of them. -/
abbrev Roster (width : Nat) := Finmap fun _ : Address width => Parts

namespace Roster

variable {width : Nat} {σ : Type}

/-- Whether a peer has the part for a relation. -/
def has (r : Roster width) (relation : Relation) (peer : Address width) : Bool :=
  (r.lookup peer).any (·.has relation)

/-- Gives a peer its parts. There is no room for a new one when `size` are held. -/
def put (size : Nat) (peer : Address width) (parts : Parts) (r : Roster width) :
    Except Error Unit × Roster width :=
  if peer ∉ r ∧ r.keys.card = size then (.error .capacityExceeded, r)
  else (.ok (), r.insert peer parts)

/-- Sets the tentative part of a peer and leaves a permanent one as it is. -/
def addTentative (size : Nat) (peer : Address width) (now : Instant) (r : Roster width) :
    Except Error Unit × Roster width :=
  r.put size peer { (r.lookup peer).getD .blank with tentative := some ⟨now⟩ }

/-- Turns a tentative part into a fresh permanent one. -/
def promote (peer : Address width) (r : Roster width) : Except Error Unit × Roster width :=
  if r.has .tentative peer then (.ok (), r.insert peer ⟨none, some .fresh⟩)
  else (.error .peerNotFound, r)

/-- Deletes one part of a peer, and the peer once it has none left. -/
def remove (peer : Address width) (relation : Relation) (r : Roster width) :
    Bool × Roster width :=
  match r.lookup peer with
  | none => (false, r)
  | some parts =>
    (parts.has relation,
      if parts.without relation = .blank then r.erase peer
      else r.insert peer (parts.without relation))

/-- Replaces the permanent part of a peer that has one. -/
def visitPeer (f : Address width → Permanent → σ → Permanent × σ) (peer : Address width)
    (r : Roster width) (s : σ) : Roster width × σ :=
  match r.lookup peer with
  | some ⟨tentative, some sender⟩ =>
    let (sender, s) := f peer sender s
    (r.insert peer ⟨tentative, some sender⟩, s)
  | _ => (r, s)

/-- Visits peers in the given order with a state that is passed along. -/
def visit (f : Address width → Permanent → σ → Permanent × σ) :
    List (Address width) → Roster width → σ → Roster width × σ
  | [], r, s => (r, s)
  | peer :: order, r, s =>
    let (r, s) := r.visitPeer f peer s
    visit f order r s

/-- An order in which all that have a permanent part can be visited. -/
structure IsVisitingOrder (order : List (Address width)) (r : Roster width) : Prop where
  nodup : order.Nodup
  mem_iff : ∀ peer, peer ∈ order ↔ r.has .permanent peer = true

open NeighborTable

/-- An operation on a map with room for `size` peers, where a visit takes them in `order`. -/
def perform (size : Nat) (order : List (Address width)) (r : Roster width) :
    Operation width σ → Answer σ × Roster width
  | .insert entry =>
    let (result, r) := r.put size entry.address entry.parts
    (.done result, r)
  | .addTentative peer now =>
    let (result, r) := r.addTentative size peer now
    (.done result, r)
  | .promote peer =>
    let (result, r) := r.promote peer
    (.done result, r)
  | .remove peer relation =>
    let (present, r) := r.remove peer relation
    (.removed present, r)
  | .visit f s =>
    let (r, s) := r.visit f order s
    (.visited s, r)

/-- Why an operation is refused: there is no room for a new peer, or no tentative part to
promote. -/
inductive Refuses (size : Nat) (r : Roster width) : Operation width σ → Error → Prop
  | full {op peer} (hentered : op.entered? = some peer) (hnew : peer ∉ r)
      (hheld : r.keys.card = size) : Refuses size r op .capacityExceeded
  | notFound {peer} (habsent : ¬ r.has .tentative peer = true) :
      Refuses size r (.promote peer) .peerNotFound

/-- The runs of a map, with the answers. Visits may take the peers in any order. -/
inductive Runs (size : Nat) :
    Roster width → List (Operation width σ) → List (Answer σ) → Roster width → Prop
  | nil {r} : Runs size r [] [] r
  | cons {r r' order op ops answers} (horder : IsVisitingOrder order r)
      (hrest : Runs size (r.perform size order op).2 ops answers r') :
      Runs size r (op :: ops) ((r.perform size order op).1 :: answers) r'

end Roster

end MeshSecurity
