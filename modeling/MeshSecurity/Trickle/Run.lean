import MeshSecurity.Trickle

/-!
# Runs of HELLO dissemination

The operations of the engine as data, and what a sequence of them does to the engine, its random
source and the network.
-/

namespace MeshSecurity.Trickle

/-- A call of the engine. -/
inductive Operation (width : Nat)
  | start (now : Instant)
  | stop
  | poll (now : Instant)
  | reset (now : Instant)
  | newNeighbor (now : Instant) (permanentNeighbors : Nat)
  | hearFrom (peer : Address width)
deriving DecidableEq

inductive Answer
  | done
  | events (result : Except Error (List TrickleEvent))
  | event (result : Except Error (Option TrickleEvent))
  | heard (counted : Option Bool)

/-- The engine with its random source and the network. -/
structure Scene (width size : Nat) (ρ ℓ π : Type) where
  trickle : Trickle
  random : ρ
  net : Network width size ℓ π

namespace Scene

variable {width size : Nat} {ρ ℓ π : Type} [RandomSource ρ] [LinkLayer ℓ width]

def perform (s : Scene width size ρ ℓ π) : Operation width → Answer × Scene width size ρ ℓ π
  | .start now =>
    let (result, trickle, random, net) := s.trickle.start now s.random s.net
    (.events result, ⟨trickle, random, net⟩)
  | .stop => (.done, { s with trickle := s.trickle.stop })
  | .poll now =>
    let (result, trickle, random, net) := s.trickle.poll now s.random s.net
    (.events result, ⟨trickle, random, net⟩)
  | .reset now =>
    let (result, trickle, random) := s.trickle.reset now s.random
    (.event result, { s with trickle, random })
  | .newNeighbor now permanentNeighbors =>
    let (result, trickle, random) := s.trickle.newNeighbor now permanentNeighbors s.random
    (.event result, { s with trickle, random })
  | .hearFrom peer =>
    let (counted, trickle, neighbors) := s.trickle.hearFrom peer s.net.neighbors
    (.heard counted, { s with trickle, net := { s.net with neighbors } })

/-- Carries out calls one after the other and collects what they yield. -/
def run : List (Operation width) → Scene width size ρ ℓ π → List Answer × Scene width size ρ ℓ π
  | [], s => ([], s)
  | op :: ops, s =>
    let (answer, s) := s.perform op
    let (answers, s) := run ops s
    (answer :: answers, s)

/-- Polls at the next deadline, up to `times` times and while there is one. -/
def pollDeadlines : (times : Nat) → Scene width size ρ ℓ π →
    List (Instant × Answer) × Scene width size ρ ℓ π
  | 0, s => ([], s)
  | times + 1, s =>
    match s.trickle.nextDeadline with
    | none => ([], s)
    | some now =>
      let (answer, s) := s.perform (.poll now)
      let (answers, s) := pollDeadlines times s
      ((now, answer) :: answers, s)

end Scene

end MeshSecurity.Trickle
