import MeshSecurity.NeighborTable

/-!
# Runs of a neighbor table

The operations that change a table as data, and what a sequence of them does to it.
-/

namespace MeshSecurity.NeighborTable

/-- A call of a table. A visit passes a state of type `σ` along. -/
inductive Operation (width : Nat) (σ : Type)
  | insert (entry : Neighbor width)
  | addTentative (peer : Address width) (now : Instant)
  | promote (peer : Address width)
  | remove (peer : Address width) (r : Relation)
  | visit (f : Address width → Permanent → σ → Permanent × σ) (s : σ)

/-- Whether an operation is about the entry of a peer. A visit is about the permanent neighbors. -/
def Operation.Concerns {width size : Nat} {σ : Type} (t : NeighborTable width size)
    (peer : Address width) : Operation width σ → Prop
  | insert entry => entry.address = peer
  | addTentative other _ | promote other | remove other _ => other = peer
  | visit _ _ => peer ∈ t.permanentPeers

/-- The peer of an operation that gives it an entry. -/
def Operation.entered? {width : Nat} {σ : Type} : Operation width σ → Option (Address width)
  | insert entry => some entry.address
  | addTentative peer _ => some peer
  | _ => none

inductive Answer (σ : Type)
  | done (result : Except Error Unit)
  | removed (present : Bool)
  | visited (s : σ)

variable {width size : Nat} {σ : Type}

def perform (t : NeighborTable width size) :
    Operation width σ → Answer σ × NeighborTable width size
  | .insert entry =>
    let (result, t) := t.insert entry
    (.done result, t)
  | .addTentative peer now =>
    let (result, t) := t.addTentative peer now
    (.done result, t)
  | .promote peer =>
    let (result, t) := t.promote peer
    (.done result, t)
  | .remove peer r =>
    let (present, t) := t.remove peer r
    (.removed present, t)
  | .visit f s =>
    let (t, s) := t.visitPermanent f s
    (.visited s, t)

/-- Carries out calls one after the other and collects what they yield. -/
def run : List (Operation width σ) → NeighborTable width size →
    List (Answer σ) × NeighborTable width size
  | [], t => ([], t)
  | op :: ops, t =>
    let (answer, t) := t.perform op
    let (answers, t) := run ops t
    (answer :: answers, t)

end MeshSecurity.NeighborTable
