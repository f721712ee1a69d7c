import MeshSecurity.Network

/-!
# Link layers on record

Link layers that do what the one inside does and keep a record of what they were asked for. One
keeps every request with its updates; the other is a tap on the calls about HELLOs and challenges.
-/

namespace MeshSecurity

variable {width size : Nat} {ℓ π : Type}

/-! ## All requests -/

/-- An update that a link layer was asked to send, with its answer. -/
structure Update (width : Nat) where
  peer : Address width
  key : Key
  result : Except Error Unit

def Update.accepted {width : Nat} (u : Update width) : Bool := u.result.isOk

/-- What was asked of a link layer. -/
inductive LinkRequest (width : Nat)
  | hello
  | challenge
  | update (u : Update width)

/-- A link layer with all requests that it has had, oldest first. -/
structure Recorded (ℓ : Type) (width : Nat) where
  link : ℓ
  requests : List (LinkRequest width)

instance [LinkLayer ℓ width] : LinkLayer (Recorded ℓ width) width where
  broadcastHello r :=
    let (result, link) := LinkLayer.broadcastHello r.link
    (result, ⟨link, r.requests ++ [.hello]⟩)
  changeChallenge r := ⟨LinkLayer.changeChallenge r.link, r.requests ++ [.challenge]⟩
  sendUpdate peer key r :=
    let (result, link) := LinkLayer.sendUpdate peer key r.link
    (result, ⟨link, r.requests ++ [.update ⟨peer, key, result⟩]⟩)

/-- The network with a link layer that has recorded `requests`. -/
def Network.recorded (requests : List (LinkRequest width)) (net : Network width size ℓ π) :
    Network width size (Recorded ℓ width) π :=
  ⟨net.neighbors, ⟨net.link, requests⟩, net.routing⟩

/-! ## HELLOs and challenges -/

/-- What was asked of a link layer, with its answer. -/
inductive LinkCall
  | challengeChanged
  | helloSent
  | helloRefused (error : Error)
deriving DecidableEq

/-- A link layer with the calls about HELLOs and challenges that it has had, oldest first. -/
structure Tapped (ℓ : Type) where
  link : ℓ
  calls : List LinkCall

instance [LinkLayer ℓ width] : LinkLayer (Tapped ℓ) width where
  broadcastHello t :=
    match LinkLayer.broadcastHello t.link with
    | (.ok (), link) => (.ok (), ⟨link, t.calls ++ [.helloSent]⟩)
    | (.error e, link) => (.error e, ⟨link, t.calls ++ [.helloRefused e]⟩)
  changeChallenge t := ⟨LinkLayer.changeChallenge t.link, t.calls ++ [.challengeChanged]⟩
  sendUpdate peer key t :=
    let (result, link) := LinkLayer.sendUpdate peer key t.link
    (result, { t with link })

/-- The network with a tap on its link layer that has recorded `calls`. -/
def Network.tapped (calls : List LinkCall) (net : Network width size ℓ π) :
    Network width size (Tapped ℓ) π :=
  ⟨net.neighbors, ⟨net.link, calls⟩, net.routing⟩

end MeshSecurity
