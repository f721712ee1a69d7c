import MeshSecurity.Cipher.Ccm

/-!
# Sealing into buffers

AES-128 in CCM mode on the engine that radio and security layer share. Whoever uses the engine
holds it for the time of one operation and then gives it back. A result is written to the front of
a buffer that the caller provides; each operation says what it leaves there when it fails.
-/

namespace MeshSecurity

/-- The state of the shared engine. -/
structure Engine where
  busy : Bool
deriving DecidableEq

namespace Engine

def idle : Engine := ⟨false⟩

/-- Takes the engine, unless it is held already. -/
def acquire (e : Engine) : Except CipherError Unit × Engine :=
  (if e.busy then .error .busy else .ok (), ⟨true⟩)

def release (_ : Engine) : Engine := ⟨false⟩

end Engine

namespace Envelope

/-- What an operation yields: a length or an error, the buffer, and the engine. -/
structure Outcome where
  result : Except CipherError Nat
  buffer : List UInt8
  engine : Engine

/-- CCM over AES-128 under a key. -/
def wrapped (key : Key) (nonce : Nonce) (associated payload : List UInt8) : Option (List UInt8) :=
  Ccm.wrap (Aes.encrypt (Aes.schedule key)) nonce associated payload

/-- The inverse of `wrapped`. -/
def unwrapped (key : Key) (nonce : Nonce) (associated message : List UInt8) :
    Option (List UInt8) :=
  Ccm.unwrap (Aes.encrypt (Aes.schedule key)) nonce associated message

def overwrite (buffer bytes : List UInt8) : List UInt8 := bytes ++ buffer.drop bytes.length

/-- Seals `payload` into `out` as encrypted payload and tag. A payload that the cipher refuses as
too long has already been copied to `out` by then. -/
def wrap (key : Key) (nonce : Nonce) (associated payload out : List UInt8) (engine : Engine) :
    Outcome :=
  let total := payload.length + Ccm.tagLength
  if out.length < total then ⟨.error .bufferTooSmall, out, engine⟩
  else
    match engine.acquire with
    | (.error e, engine) => ⟨.error e, out, engine⟩
    | (.ok (), engine) =>
      match wrapped key nonce associated payload with
      | some message => ⟨.ok total, overwrite out message, engine.release⟩
      | none => ⟨.error .internal, overwrite out payload, engine.release⟩

/-- Opens `message` into `out`. Where the tag does not verify, zeros replace the payload. -/
def unwrap (key : Key) (nonce : Nonce) (associated message out : List UInt8) (engine : Engine) :
    Outcome :=
  let length := message.length - Ccm.tagLength
  if message.length < Ccm.tagLength then ⟨.error .authenticationFailed, out, engine⟩
  else if out.length < length then ⟨.error .bufferTooSmall, out, engine⟩
  else
    match engine.acquire with
    | (.error e, engine) => ⟨.error e, out, engine⟩
    | (.ok (), engine) =>
      match unwrapped key nonce associated message with
      | some payload => ⟨.ok length, overwrite out payload, engine.release⟩
      | none =>
        ⟨.error .authenticationFailed, overwrite out (List.replicate length 0), engine.release⟩

end Envelope

end MeshSecurity
