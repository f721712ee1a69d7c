import MeshSecurity.Pairwise.Scheme
import MeshSecurity.Request
import MeshSecurity.Revocation

/-!
# The security layer of a node

A node owns its key scheme, revocation list, group key, HELLO dissemination, request receiver,
cipher engine, random source and journal. Neighbor table, link layer and routing are lent to it
for the time of an operation. Each operation records what it did.
-/

namespace MeshSecurity

/-- The state of a node with scheme `σ`, store `τ` and random source `ρ`. -/
structure Node (width capacity : Nat) (σ τ ρ : Type) extends
    RevocationState width capacity τ ρ where
  config : Config
  /-- Whether requests that fail authentication are answered; a diagnostic aid. -/
  answersForgeries : Bool
  scheme : σ
  endpoint : Endpoint
  engine : Engine

namespace Node

variable {width capacity size : Nat} {σ τ ρ ℓ π : Type}

def component : String := "akes"

def trickleComponent : String := "trickle"

/-- A node that has done nothing yet. -/
def assemble (config : Config) (answersForgeries : Bool) (scheme : σ) (store : τ)
    (managementKey : Key) (random : ρ) (groupKeys : GroupKeys) : Node width capacity σ τ ρ where
  config := config
  answersForgeries := answersForgeries
  scheme := scheme
  revocations := .ofStore store config.revocation.persistent
  trickle := .stopped config.trickle
  groupKeys := groupKeys
  endpoint := .ofKey managementKey
  engine := .idle
  random := random
  journal := .empty

def note (level : Level) (now : Instant) (parts : List String) (n : Node width capacity σ τ ρ) :
    Node width capacity σ τ ρ :=
  { n with journal := n.journal.write level now component parts }

def noteTrickle (level : Level) (now : Instant) (parts : List String)
    (n : Node width capacity σ τ ρ) : Node width capacity σ τ ρ :=
  { n with journal := n.journal.write level now trickleComponent parts }

/-- How an event of HELLO dissemination is recorded. -/
def describe : TrickleEvent → Level × List String
  | .started interval => (.info, ["started, I = ", toString interval.toNat, " ticks"])
  | .helloBroadcast => (.debug, ["broadcasting HELLO"])
  | .helloFailed e => (.warn, ["HELLO not sent: ", e.message])
  | .suppressed counter => (.debug, ["suppressed HELLO, c = ", toString counter.toNat])
  | .awaitingAcks => (.debug, ["still waiting for HELLOACKs"])
  | .challengeChanged => (.debug, ["HELLO challenge changed"])
  | .intervalStarted interval point =>
    (.debug, ["I = ", toString interval.toNat, " t = ", toString point.toNat])
  | .reset point => (.info, ["reset, t = ", toString point.toNat])
  | .resetRateLimited => (.info, ["reset rate limit reached"])

def noteEvent (now : Instant) (n : Node width capacity σ τ ρ) (event : TrickleEvent) :
    Node width capacity σ τ ρ :=
  n.noteTrickle (describe event).1 now (describe event).2

/-! ## HELLO dissemination -/

def stopTrickle (now : Instant) (n : Node width capacity σ τ ρ) : Node width capacity σ τ ρ :=
  { n with trickle := n.trickle.stop }.noteTrickle .info now ["stopped"]

/-- A fresh authentic HELLO of the peer, if it is a permanent neighbor. -/
def hearFrom (peer : Address width) (n : Node width capacity σ τ ρ)
    (net : Network width size ℓ π) :
    Option Bool × Node width capacity σ τ ρ × Network width size ℓ π :=
  let (counted, trickle, neighbors) := n.trickle.hearFrom peer net.neighbors
  (counted, { n with trickle }, { net with neighbors })

section Random

variable [RandomSource ρ]

/-- Resets HELLO dissemination on request. -/
def resetTrickle (now : Instant) (n : Node width capacity σ τ ρ) :
    Except Error Unit × Node width capacity σ τ ρ :=
  let (result, trickle, random) := n.trickle.reset now n.random
  let n := { n with trickle, random }
  match result with
  | .ok (some event) => (.ok (), n.noteEvent now event)
  | .ok none => (.ok (), n.noteTrickle .debug now ["not resetting, I = Imin"])
  | .error e => (.error e, n)

/-- A neighbor became permanent. -/
def newNeighbor (now : Instant) (n : Node width capacity σ τ ρ) (net : Network width size ℓ π) :
    Except Error Unit × Node width capacity σ τ ρ :=
  let permanent := net.neighbors.count .permanent
  let n := n.noteTrickle .debug now ["new neighbor, ", toString permanent, " permanent"]
  let (result, trickle, random) := n.trickle.newNeighbor now permanent n.random
  let n := { n with trickle, random }
  match result with
  | .ok (some event) => (.ok (), n.noteEvent now event)
  | .ok none => (.ok (), n)
  | .error e => (.error e, n)

variable [LinkLayer ℓ width]

def startTrickle (now : Instant) (n : Node width capacity σ τ ρ) (net : Network width size ℓ π) :
    Except Error Unit × Node width capacity σ τ ρ × Network width size ℓ π :=
  let (result, trickle, random, net) := n.trickle.start now n.random net
  let n := { n with trickle, random }
  match result with
  | .ok events => (.ok (), events.foldl (noteEvent now) n, net)
  | .error e => (.error e, n, net)

/-- Lets the timers of HELLO dissemination run out that are due. -/
def poll (now : Instant) (n : Node width capacity σ τ ρ) (net : Network width size ℓ π) :
    Except Error Unit × Node width capacity σ τ ρ × Network width size ℓ π :=
  let (result, trickle, random, net) := n.trickle.poll now n.random net
  let n := { n with trickle, random }
  match result with
  | .ok events => (.ok (), events.foldl (noteEvent now) n, net)
  | .error e => (.error e, n.noteTrickle .error now ["scheduling failed: ", e.message], net)

def rotateGroupKey (now : Instant) (n : Node width capacity σ τ ρ)
    (net : Network width size ℓ π) :
    Except Error Nat × Node width capacity σ τ ρ × Network width size ℓ π :=
  let (result, groupKeys, random, net, journal) := n.groupKeys.rotate now n.random net n.journal
  (result, { n with groupKeys, random, journal }, net)

end Random

/-! ## Pairwise secrets -/

/-- Whether key establishment may begin with HELLOs of this sender. -/
def acceptsHelloFrom (sender : Address width) (n : Node width capacity σ τ ρ) : Bool :=
  !n.revocations.isRevoked sender

section Scheme

variable [PairwiseScheme σ width]

/-- The secret shared with the sender of a HELLO. Revoked peers share none. -/
def helloSecret (sender : Address width) (n : Node width capacity σ τ ρ) :
    Except Error (List UInt8) × Node width capacity σ τ ρ :=
  if n.revocations.isRevoked sender then (.error .peerNotFound, n)
  else
    let (result, scheme) := PairwiseScheme.helloSecret sender n.scheme
    (result, { n with scheme })

/-- The secret shared with the sender of an answer to a HELLO. Revoked peers share none. -/
def ackSecret (sender : Address width) (n : Node width capacity σ τ ρ) :
    Except Error (List UInt8) × Node width capacity σ τ ρ :=
  if n.revocations.isRevoked sender then (.error .peerNotFound, n)
  else
    let (result, scheme) := PairwiseScheme.ackSecret sender n.scheme
    (result, { n with scheme })

end Scheme

/-! ## Revocation -/

section Stored

variable [RecordStore τ]

/-- Prepares the key scheme and loads the revocation list. -/
def init [PairwiseScheme σ width] (now : Instant) (n : Node width capacity σ τ ρ) :
    Except Error Unit × Node width capacity σ τ ρ :=
  let name := PairwiseScheme.name σ
  let (prepared, scheme) := PairwiseScheme.init n.scheme
  let n := { n with scheme }
  match prepared with
  | .error e => (.error e, n.note .error now [name, " scheme init failed: ", e.message])
  | .ok () =>
    let (loaded, revocations) := n.revocations.load
    let n := { n with revocations }
    match loaded with
    | .ok count =>
      (.ok (), n.note .info now [name, " scheme ready, ", toString count, " revoked nodes loaded"])
    | .error e => (.error e, n.note .error now ["revocation list load failed: ", e.message])

/-- Empties the revocation list and its store. -/
def clearRevocations (now : Instant) (n : Node width capacity σ τ ρ) :
    Except Error Unit × Node width capacity σ τ ρ :=
  let (result, revocations) := n.revocations.clear
  let n := { n with revocations }
  match result with
  | .ok () => (.ok (), n.note .info now ["revocation list cleared"])
  | .error e => (.error e, n.note .error now ["revocation list clear failed: ", e.message])

variable [RandomSource ρ] [LinkLayer ℓ width] [Routing π width]

/-- Revokes a peer, unless revocation is switched off. -/
def revoke (now : Instant) (peer : Address width) (listing : Bool)
    (n : Node width capacity σ τ ρ) (net : Network width size ℓ π) :
    Except Error RevocationReport × Node width capacity σ τ ρ × Network width size ℓ π :=
  if n.config.revocation.enabled then
    let (result, state, net) :=
      n.toRevocationState.revoke n.config.revocation now peer listing net
    (result, { n with toRevocationState := state }, net)
  else
    (.error .revocationDisabled,
      n.note .warn now ["revocation of ", peer.text, " refused: disabled"], net)

/-- Seals a status code as the answer to the message with header `h`. -/
def respond (h : Header) (status : StatusCode) (n : Node width capacity σ τ ρ)
    (response : List UInt8) :
    Except Error (Option Nat) × List UInt8 × Node width capacity σ τ ρ :=
  let outcome := n.endpoint.answer h.ack status response n.engine
  (match outcome.result with
    | .ok length => .ok (some length)
    | .error e => .error e.toError,
    outcome.buffer, { n with engine := outcome.engine })

variable [PairwiseScheme σ width]

/-- Installs the secret of a request, if there is one. A scheme may keep its own. -/
def installSecret (now : Instant) (request : Request width) (n : Node width capacity σ τ ρ) :
    Node width capacity σ τ ρ :=
  if request.secret.isEmpty then n
  else
    let (result, scheme) := PairwiseScheme.update request.peer request.secret n.scheme
    let n := { n with scheme }
    match result with
    | .ok () => n
    | .error e =>
      n.note .warn now [PairwiseScheme.name σ, " scheme kept its secret: ", e.message]

/-- Carries out an accepted request and tells the status to report. -/
def carryOut (now : Instant) (request : Request width) (n : Node width capacity σ τ ρ)
    (net : Network width size ℓ π) :
    StatusCode × Node width capacity σ τ ρ × Network width size ℓ π :=
  match n.revoke now request.peer true net with
  | (.ok _, n, net) => (.success, n.installSecret now request, net)
  | (.error e, n, net) => (e.statusCode, n, net)

/-- Handles a sealed revocation request. The answer is written to `response` and its length is
reported, or nothing where no answer is given: a forged request is dropped in silence. -/
def handleRequest (now : Instant) (h : Header) (message response : List UInt8)
    (n : Node width capacity σ τ ρ) (net : Network width size ℓ π) :
    Except Error (Option Nat) × List UInt8 × Node width capacity σ τ ρ ×
      Network width size ℓ π :=
  let (received, endpoint, engine) := n.endpoint.receive width h message n.engine
  let n := { n with endpoint, engine }
  match received with
  | .ok request =>
    let (status, n, net) := n.carryOut now request net
    let n := n.note .info now
      ["request ", toString h.id.toNat, " answered with status ", toString status.code.toNat]
    let (result, response, n) := n.respond h status response
    (result, response, n, net)
  | .error .authenticationFailed =>
    let n := n.note .warn now ["request ", toString h.id.toNat, " failed authentication"]
    if n.answersForgeries then
      let (result, response, n) := n.respond h .failure response
      (result, response, n, net)
    else (.ok none, response, n, net)
  | .error .engineBusy => (.error .engineBusy, response, n, net)
  | .error e =>
    let n := n.note .warn now ["request ", toString h.id.toNat, " rejected: ", e.message]
    let (result, response, n) := n.respond h e.statusCode response
    (result, response, n, net)

end Stored

end Node

end MeshSecurity
