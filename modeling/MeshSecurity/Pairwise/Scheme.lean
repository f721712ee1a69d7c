import MeshSecurity.Address
import MeshSecurity.Cipher.Parameters

/-!
# Pairwise key schemes

A scheme supplies the secret that a node shares with a peer. Key establishment uses it to
authenticate HELLOs and their answers.
-/

namespace MeshSecurity

/-- A scheme with state `σ`. -/
class PairwiseScheme (σ : Type) (width : outParam Nat) where
  name : String
  init (scheme : σ) : Except Error Unit × σ
  /-- The secret shared with the sender of a HELLO. -/
  helloSecret (sender : Address width) (scheme : σ) : Except Error (List UInt8) × σ
  /-- The secret shared with the sender of an answer to a HELLO. -/
  ackSecret (sender : Address width) (scheme : σ) : Except Error (List UInt8) × σ
  /-- Installs a new secret that came with the revocation of `peer`. -/
  update (peer : Address width) (secret : List UInt8) (scheme : σ) : Except Error Unit × σ

/-- One key that the whole network shares. -/
structure SharedKey (width : Nat) where
  key : Key
deriving DecidableEq

namespace SharedKey

variable {width : Nat}

/-- Replaces the key. Only a secret of key length is one. -/
def install (secret : List UInt8) (s : SharedKey width) : Except Error Unit × SharedKey width :=
  match Bytes.ofList? 16 secret with
  | some key => (.ok (), ⟨key⟩)
  | none => (.error .malformedRequest, s)

instance : PairwiseScheme (SharedKey width) width where
  name := "single"
  init s := (.ok (), s)
  helloSecret _ s := (.ok s.key.toList, s)
  ackSecret _ s := (.ok s.key.toList, s)
  update _ secret s := s.install secret

end SharedKey

end MeshSecurity
