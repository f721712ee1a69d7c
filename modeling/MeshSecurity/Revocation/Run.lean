import MeshSecurity.Revocation
import MeshSecurity.Trickle.Traffic

/-!
# Runs of dissemination and revocations

The calls of HELLO dissemination and the revocations of a node as data, and what a sequence of them
does to the node and the network. Between them anything else may happen to the node.
-/

namespace MeshSecurity.RevocationState

/-- A call of HELLO dissemination, or a revocation. -/
inductive Operation (width capacity size : Nat) (τ ρ ℓ π : Type)
  | trickle (op : Trickle.Operation width)
  | revoke (c : RevocationConfig) (now : Instant) (peer : Address width) (listing : Bool)
  /-- The node and the network are given another state, all but HELLO dissemination. -/
  | meanwhile (state : RevocationState width capacity τ ρ) (net : Network width size ℓ π)

inductive Answer
  | trickle (answer : Trickle.Answer)
  | report (result : Except Error RevocationReport)
  | done

/-- What revocations change of a node, with the network. -/
structure Scene (width capacity size : Nat) (τ ρ ℓ π : Type) where
  state : RevocationState width capacity τ ρ
  net : Network width size ℓ π

variable {width capacity size : Nat} {τ ρ ℓ π : Type}

/-- The time that is given with a call. -/
def Operation.time? : Operation width capacity size τ ρ ℓ π → Option Instant
  | .trickle op => op.time?
  | .revoke _ now _ _ => some now
  | .meanwhile _ _ => none

def times (ops : List (Operation width capacity size τ ρ ℓ π)) : List Instant :=
  ops.filterMap Operation.time?

theorem times_cons (op : Operation width capacity size τ ρ ℓ π)
    (ops : List (Operation width capacity size τ ρ ℓ π)) :
    times (op :: ops) = op.time?.toList ++ times ops := by
  cases htime : op.time? <;> simp [times, htime]

namespace Scene

/-- HELLO dissemination with what it uses. -/
def engine (s : Scene width capacity size τ ρ ℓ π) : Trickle.Scene width size ρ ℓ π :=
  ⟨s.state.trickle, s.state.random, s.net⟩

variable [RecordStore τ] [RandomSource ρ] [LinkLayer ℓ width] [Routing π width]

def perform (s : Scene width capacity size τ ρ ℓ π) :
    Operation width capacity size τ ρ ℓ π → Answer × Scene width capacity size τ ρ ℓ π
  | .trickle op =>
    let (answer, engine) := s.engine.perform op
    (.trickle answer,
      ⟨{ s.state with trickle := engine.trickle, random := engine.random }, engine.net⟩)
  | .revoke c now peer listing =>
    let (result, state, net) := s.state.revoke c now peer listing s.net
    (.report result, ⟨state, net⟩)
  | .meanwhile state net => (.done, ⟨{ state with trickle := s.state.trickle }, net⟩)

/-- Carries out calls one after the other and collects what they yield. -/
def run : List (Operation width capacity size τ ρ ℓ π) → Scene width capacity size τ ρ ℓ π →
    List Answer × Scene width capacity size τ ρ ℓ π
  | [], s => ([], s)
  | op :: ops, s =>
    let (answer, s) := s.perform op
    let (answers, s) := run ops s
    (answer :: answers, s)

end Scene

end MeshSecurity.RevocationState
