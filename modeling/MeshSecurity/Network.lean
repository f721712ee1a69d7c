import MeshSecurity.Cipher.Parameters
import MeshSecurity.NeighborTable

/-!
# What a node works with

Frames are built and sent by the link layer, routes are kept by the routing layer. The security
layer only calls on them; what they do with a call is up to their own state.
-/

namespace MeshSecurity

/-- A link layer with state `ℓ`. -/
class LinkLayer (ℓ : Type) (width : outParam Nat) where
  broadcastHello (link : ℓ) : Except Error Unit × ℓ
  /-- Replaces the challenge, so that answers to earlier HELLOs count no more. -/
  changeChallenge (link : ℓ) : ℓ
  sendUpdate (peer : Address width) (key : Key) (link : ℓ) : Except Error Unit × ℓ

/-- What became of a request to forget a parent. -/
inductive ParentRemoval
  | notParent
  /-- A parent other than the preferred one was dropped. -/
  | removed
  /-- The preferred parent was dropped. -/
  | preferredRemoved
deriving DecidableEq, Repr

/-- A routing layer with state `π`. -/
class Routing (π : Type) (width : outParam Nat) where
  dropParent (peer : Address width) (routing : π) : ParentRemoval × π
  /-- Chooses a preferred parent among those left. -/
  selectPreferredParent (routing : π) : π
  advertiseRoute (routing : π) : π

/-- The neighbor table, the link layer and the routing layer of a node. -/
structure Network (width size : Nat) (ℓ π : Type) where
  neighbors : NeighborTable width size
  link : ℓ
  routing : π

end MeshSecurity
