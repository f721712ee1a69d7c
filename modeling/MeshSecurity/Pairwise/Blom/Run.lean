import MeshSecurity.Pairwise.Blom

/-!
# Runs of Blom's scheme

The calls of a node's part of the scheme as data, and what a sequence of them yields.
-/

namespace MeshSecurity.Blom

/-- A call of a node's part of the scheme. -/
inductive Call (width : Nat)
  | secretFor (peer : UInt16)
  | helloSecret (sender : Address width)
  | ackSecret (sender : Address width)
  | update (peer : Address width) (secret : List UInt8)
deriving DecidableEq

inductive Answer
  | secret (result : Except Error (List UInt8))
  | updated (result : Except Error Unit)

/-- The number of the node whose secret a call asks for. -/
def Call.number? {width : Nat} (numbering : PeerNumbering width) (lambda : Nat) :
    Call width → Option UInt16
  | .secretFor peer => some peer
  | .helloSecret sender => some (numbering sender lambda)
  | .ackSecret sender => some (numbering sender lambda)
  | .update _ _ => none

variable {width lambda : Nat}

def perform (b : Blom width lambda) : Call width → Answer × Blom width lambda
  | .secretFor peer =>
    let (result, b) := b.secretFor peer
    (.secret (result.map Vector.toList), b)
  | .helloSecret sender =>
    let (result, b) := PairwiseScheme.helloSecret sender b
    (.secret result, b)
  | .ackSecret sender =>
    let (result, b) := PairwiseScheme.ackSecret sender b
    (.secret result, b)
  | .update peer secret =>
    let (result, b) := PairwiseScheme.update peer secret b
    (.updated result, b)

/-- Carries out calls one after the other and collects what they yield. -/
def run : List (Call width) → Blom width lambda → List Answer × Blom width lambda
  | [], b => ([], b)
  | call :: calls, b =>
    let (answer, b) := b.perform call
    let (answers, b) := run calls b
    (answer :: answers, b)

end MeshSecurity.Blom
