import MeshSecurity.Node

/-!
# Runs of a node

The operations of a node as data, and what a sequence of them does to the node and the network.
-/

namespace MeshSecurity.Node

/-- A call of a node. -/
inductive Operation (width : Nat)
  | init (now : Instant)
  | start (now : Instant)
  | stop (now : Instant)
  | poll (now : Instant)
  | reset (now : Instant)
  | newNeighbor (now : Instant)
  | hearFrom (peer : Address width)
  | acceptsHello (sender : Address width)
  | helloSecret (sender : Address width)
  | ackSecret (sender : Address width)
  | revoke (now : Instant) (peer : Address width) (listing : Bool)
  | request (now : Instant) (header : Header) (message response : List UInt8)
  | clear (now : Instant)
  | rotate (now : Instant)
deriving DecidableEq

inductive Answer
  | done (result : Except Error Unit)
  | heard (counted : Option Bool)
  | accepts (accepted : Bool)
  | secret (result : Except Error (List UInt8))
  | report (result : Except Error RevocationReport)
  | responded (result : Except Error (Option Nat)) (response : List UInt8)
  | sent (result : Except Error Nat)

/-- A node with the network. -/
structure Scene (width capacity size : Nat) (σ τ ρ ℓ π : Type) where
  node : Node width capacity σ τ ρ
  net : Network width size ℓ π

namespace Scene

variable {width capacity size : Nat} {σ τ ρ ℓ π : Type}
variable [PairwiseScheme σ width] [RecordStore τ] [RandomSource ρ] [LinkLayer ℓ width]
  [Routing π width]

def perform (s : Scene width capacity size σ τ ρ ℓ π) :
    Operation width → Answer × Scene width capacity size σ τ ρ ℓ π
  | .init now =>
    let (result, node) := s.node.init now
    (.done result, { s with node })
  | .start now =>
    let (result, node, net) := s.node.startTrickle now s.net
    (.done result, ⟨node, net⟩)
  | .stop now => (.done (.ok ()), { s with node := s.node.stopTrickle now })
  | .poll now =>
    let (result, node, net) := s.node.poll now s.net
    (.done result, ⟨node, net⟩)
  | .reset now =>
    let (result, node) := s.node.resetTrickle now
    (.done result, { s with node })
  | .newNeighbor now =>
    let (result, node) := s.node.newNeighbor now s.net
    (.done result, { s with node })
  | .hearFrom peer =>
    let (counted, node, net) := s.node.hearFrom peer s.net
    (.heard counted, ⟨node, net⟩)
  | .acceptsHello sender => (.accepts (s.node.acceptsHelloFrom sender), s)
  | .helloSecret sender =>
    let (result, node) := s.node.helloSecret sender
    (.secret result, { s with node })
  | .ackSecret sender =>
    let (result, node) := s.node.ackSecret sender
    (.secret result, { s with node })
  | .revoke now peer listing =>
    let (result, node, net) := s.node.revoke now peer listing s.net
    (.report result, ⟨node, net⟩)
  | .request now header message response =>
    let (result, response, node, net) := s.node.handleRequest now header message response s.net
    (.responded result response, ⟨node, net⟩)
  | .clear now =>
    let (result, node) := s.node.clearRevocations now
    (.done result, { s with node })
  | .rotate now =>
    let (result, node, net) := s.node.rotateGroupKey now s.net
    (.sent result, ⟨node, net⟩)

/-- Carries out calls one after the other and collects what they yield. -/
def run : List (Operation width) → Scene width capacity size σ τ ρ ℓ π →
    List Answer × Scene width capacity size σ τ ρ ℓ π
  | [], s => ([], s)
  | op :: ops, s =>
    let (answer, s) := s.perform op
    let (answers, s) := run ops s
    (answer :: answers, s)

/-- Polls at the next deadline, up to `times` times and while there is one. -/
def pollDeadlines : (times : Nat) → Scene width capacity size σ τ ρ ℓ π →
    List (Instant × Answer) × Scene width capacity size σ τ ρ ℓ π
  | 0, s => ([], s)
  | times + 1, s =>
    match s.node.trickle.nextDeadline with
    | none => ([], s)
    | some now =>
      let (answer, s) := s.perform (.poll now)
      let (answers, s) := pollDeadlines times s
      ((now, answer) :: answers, s)

end Scene

end MeshSecurity.Node
