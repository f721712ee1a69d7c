import MeshSecurity.Network

/-!
# A recording radio

A link layer that does as it is told, counts broadcasts and challenges, and keeps the updates it
accepted.
-/

namespace MeshSecurity

/-- The radio with its instructions and its record. -/
structure Radio (width : Nat) where
  helloError : Option Error
  /-- The neighbors to which no update can be sent. -/
  refused : List (Address width)
  hellos : Nat
  /-- The number of challenges replaced so far. -/
  challenges : Nat
  /-- The updates sent, oldest first. -/
  updates : List (Address width × Key)
deriving DecidableEq

namespace Radio

variable {width : Nat}

/-- A radio with instructions and an empty record. -/
def instructed (helloError : Option Error) (refused : List (Address width)) : Radio width :=
  ⟨helloError, refused, 0, 0, []⟩

def instruct (helloError : Option Error) (refused : List (Address width)) (r : Radio width) :
    Radio width :=
  { r with helloError, refused }

def forgetUpdates (r : Radio width) : Radio width := { r with updates := [] }

instance : LinkLayer (Radio width) width where
  broadcastHello r :=
    match r.helloError with
    | some e => (.error e, r)
    | none => (.ok (), { r with hellos := r.hellos + 1 })
  changeChallenge r := { r with challenges := r.challenges + 1 }
  sendUpdate peer key r :=
    if r.refused.contains peer then (.error .sendFailed, r)
    else (.ok (), { r with updates := r.updates ++ [(peer, key)] })

end Radio

end MeshSecurity
