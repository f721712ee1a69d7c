import MeshSecurity.Address
import MeshSecurity.Cipher.Envelope

/-!
# Revocation requests

A request is a sealed message of the management: the address of the node to revoke, followed by
an optional new secret. The nonce is made of message id and message type. The receiver checks
integrity first, then freshness (ids have to rise), then the form. The answer is the digit of a
status code, sealed under the nonce of the acknowledgement.
-/

namespace MeshSecurity

/-- The part of a message header from which the nonce is made. -/
structure Header where
  id : UInt16
  type : UInt8
deriving DecidableEq

namespace Header

/-- The type of a message that asks for an acknowledgement. -/
def confirmable : UInt8 := 0

def acknowledgement : UInt8 := 2

/-- The header of the acknowledgement of a message. -/
def ack (h : Header) : Header := { h with type := acknowledgement }

def nonce (h : Header) : Nonce := .ofMessage h.id h.type

end Header

/-- An accepted revocation request. -/
structure Request (width : Nat) where
  peer : Address width
  /-- The secret to install, if not empty. -/
  secret : List UInt8
deriving DecidableEq

namespace Request

def maxPayload : Nat := 64

def maxSealed : Nat := maxPayload + Ccm.tagLength

/-- The length of a sealed answer. -/
def answerLength : Nat := 1 + Ccm.tagLength

/-- Reads a request: an address and what follows it. -/
def ofPayload? (width : Nat) (payload : List UInt8) : Option (Request width) :=
  (Address.ofBytes? width (payload.take width)).map fun peer => ⟨peer, payload.drop width⟩

def payload {width : Nat} (r : Request width) : List UInt8 := r.peer.toList ++ r.secret

end Request

/-- The receiver of requests, with the id of the last message it accepted. -/
structure Endpoint where
  key : Key
  lastId : Option UInt16
deriving DecidableEq

namespace Endpoint

/-- The receiver that has accepted no message yet. -/
def ofKey (key : Key) : Endpoint := ⟨key, none⟩

/-- Whether an id is above the last accepted one. -/
def isFresh (id : UInt16) (e : Endpoint) : Bool := e.lastId.all fun last => last < id

/-- Checks freshness and form of an authentic payload. A fresh id is used up even if the form is
wrong. -/
def accept (width : Nat) (h : Header) (payload : List UInt8) (e : Endpoint) :
    Except Error (Request width) × Endpoint :=
  if e.isFresh h.id then
    match Request.ofPayload? width payload with
    | some request => (.ok request, { e with lastId := some h.id })
    | none => (.error .malformedRequest, { e with lastId := some h.id })
  else (.error .staleMessage, e)

/-- Authenticates, decrypts and checks a request. Whatever is wrong with the seal, a busy engine
apart, counts as a failed authentication. -/
def receive (width : Nat) (h : Header) (message : List UInt8) (e : Endpoint) (engine : Engine) :
    Except Error (Request width) × Endpoint × Engine :=
  if message.length > Request.maxSealed then (.error .authenticationFailed, e, engine)
  else
    let buffer := List.replicate Request.maxPayload 0
    match Envelope.unwrap e.key h.nonce [] message buffer engine with
    | ⟨.ok length, payload, engine⟩ =>
      let (result, e) := e.accept width h (payload.take length)
      (result, e, engine)
    | ⟨.error .busy, _, engine⟩ => (.error .engineBusy, e, engine)
    | ⟨.error _, _, engine⟩ => (.error .authenticationFailed, e, engine)

/-- Seals a status code for the message with header `h` into `out`. -/
def answer (h : Header) (status : StatusCode) (e : Endpoint) (out : List UInt8)
    (engine : Engine) : Envelope.Outcome :=
  Envelope.wrap e.key h.nonce [] [status.digit] out engine

end Endpoint

end MeshSecurity
