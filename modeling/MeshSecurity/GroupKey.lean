import MeshSecurity.Journal
import MeshSecurity.Network

/-!
# The group key

Broadcasts are protected by one key that all permanent neighbors share. A rotation replaces it
and sends the new one to every permanent neighbor; a delivery that the link layer refuses is
noted, and the others go on.
-/

namespace MeshSecurity

/-- The current group key and the number of rotations so far, modulo `2 ^ 32`. -/
structure GroupKeys where
  current : Option Key
  rotations : UInt32
deriving DecidableEq

namespace GroupKeys

def unset : GroupKeys := ⟨none, 0⟩

def provisioned (key : Key) : GroupKeys := ⟨some key, 0⟩

def component : String := "group-key"

/-- A distribution under way: updates sent and refused so far, link layer and journal. -/
structure Distribution (ℓ : Type) where
  sent : Nat
  refused : Nat
  link : ℓ
  journal : Journal

variable {width size : Nat} {ρ ℓ π : Type} [LinkLayer ℓ width]

def sendTo (now : Instant) (key : Key) (d : Distribution ℓ) (peer : Address width) :
    Distribution ℓ :=
  match LinkLayer.sendUpdate peer key d.link with
  | (.ok (), link) =>
    { d with
      link
      sent := d.sent + 1
      journal := d.journal.write .debug now component ["UPDATE queued for ", peer.text] }
  | (.error e, link) =>
    { d with
      link
      refused := d.refused + 1
      journal := d.journal.write .warn now component
        ["UPDATE to ", peer.text, " failed: ", e.message] }

/-- Sends the key to all permanent neighbors in slot order. -/
def distribute (now : Instant) (key : Key) (net : Network width size ℓ π) (journal : Journal) :
    Distribution ℓ :=
  net.neighbors.permanentPeers.foldl (sendTo now key) ⟨0, 0, net.link, journal⟩

variable [RandomSource ρ]

/-- Replaces the key by a fresh one and reports how many neighbors it was sent to. Without a fresh
key nothing happens. -/
def rotate (now : Instant) (g : GroupKeys) (random : ρ) (net : Network width size ℓ π)
    (journal : Journal) :
    Except Error Nat × GroupKeys × ρ × Network width size ℓ π × Journal :=
  match Key.generate random with
  | (none, random) => (.error .randomFailure, g, random, net, journal)
  | (some key, random) =>
    let d := distribute now key net journal
    (.ok d.sent, ⟨some key, g.rotations + 1⟩, random, { net with link := d.link },
      d.journal.write .info now component
        ["group key rotated, ", toString d.sent, " UPDATEs sent, ", toString d.refused, " failed"])

end GroupKeys

end MeshSecurity
