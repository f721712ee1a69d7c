import MeshSecurity.Node.Run
import MeshSecurity.Random.Generator
import MeshSecurity.Simulation.ParentSet
import MeshSecurity.Simulation.Radio
import MeshSecurity.Storage.Memory

/-!
# A node without a key scheme

A scheme that refuses everything, and a node that has it and only serves requests to revoke. Such a
node shows what becomes of a request without a part of the scheme in it.
-/

namespace MeshSecurity

/-- A scheme whose operations all fail with one error. -/
structure RefusingScheme (width : Nat) where
  error : Error
deriving DecidableEq

instance {width : Nat} : PairwiseScheme (RefusingScheme width) width where
  name := "broken"
  init s := (.error s.error, s)
  helloSecret _ s := (.error s.error, s)
  ackSecret _ s := (.error s.error, s)
  update _ _ s := (.error s.error, s)

/-- A node with a provisioned group key and one permanent neighbor. -/
def Node.Scene.serving :
    Scene 8 4 4 (RefusingScheme 8) (MemoryStore 64) Generator (Radio 8) (ParentSet 8) where
  node := .assemble .standard false ⟨.notSupported⟩ .empty (Vector.replicate 16 0x5A)
    (.constant ⟨7⟩) (.provisioned (Vector.replicate 16 0x11))
  net :=
    ⟨(NeighborTable.empty.insert ⟨.repeated 8, none, some .fresh⟩).2, .instructed none [],
      .ofParents []⟩

end MeshSecurity
