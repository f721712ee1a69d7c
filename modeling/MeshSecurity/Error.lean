import MeshSecurity.Bytes
import MeshSecurity.Status

/-!
# Errors

`Error` is what the security layer reports, `CipherError` what the cryptographic part reports.
Each has a code whose high byte names the area, and a fixed description.
-/

namespace MeshSecurity

/-- Codes are shown as four upper-case hexadecimal digits in brackets, then the description. -/
def codedText (code : UInt16) (description : String) : String :=
  "[0x" ++ (hexNumeral 4 code.toNat).toUpper ++ "] " ++ description

/-- Why an operation of the security layer failed. -/
inductive Error
  /-- A bounded list or table has no room left. -/
  | capacityExceeded
  /-- A revocation record was not stored completely. -/
  | recordNotStored
  | recordsUnreadable
  | authenticationFailed
  /-- The message id is not above the last accepted one. -/
  | staleMessage
  /-- The payload does not have the expected form. -/
  | malformedRequest
  | revocationDisabled
  /-- A neighbor entry is neither tentative nor permanent. -/
  | inconsistentNeighbor
  /-- The peer has no fitting neighbor entry. -/
  | peerNotFound
  | sendFailed
  | randomFailure
  | cryptoFailure
  | engineBusy
  | notSupported
  | invalidParameter
  | bufferTooSmall
  | internal
deriving DecidableEq, Repr

namespace Error

/-- The number of an error; the high byte names its area. -/
def code : Error → UInt16
  | capacityExceeded => 0x0101
  | recordNotStored => 0x0102
  | recordsUnreadable => 0x0103
  | authenticationFailed => 0x0201
  | staleMessage => 0x0202
  | malformedRequest => 0x0203
  | revocationDisabled => 0x0204
  | inconsistentNeighbor => 0x0301
  | peerNotFound => 0x0302
  | sendFailed => 0x0303
  | randomFailure => 0x0401
  | cryptoFailure => 0x0402
  | engineBusy => 0x0403
  | notSupported => 0xFF01
  | invalidParameter => 0xFF02
  | bufferTooSmall => 0xFF03
  | internal => 0xFFFF

def description : Error → String
  | capacityExceeded => "revocation list full"
  | recordNotStored => "revocation list write incomplete"
  | recordsUnreadable => "revocation list read failed"
  | authenticationFailed => "authentication failed"
  | staleMessage => "stale or replayed message"
  | malformedRequest => "incorrect message format"
  | revocationDisabled => "key revocation disabled"
  | inconsistentNeighbor => "neighbor neither tentative nor permanent"
  | peerNotFound => "peer not found"
  | sendFailed => "frame not sent"
  | randomFailure => "RNG failure"
  | cryptoFailure => "crypto error"
  | engineBusy => "crypto engine busy"
  | notSupported => "not supported by key scheme"
  | invalidParameter => "invalid parameter"
  | bufferTooSmall => "buffer too small"
  | internal => "internal error"

def message (e : Error) : String := codedText e.code e.description

/-- Forged and replayed messages are the rejections that matter for security. -/
def isSecurityRejection (e : Error) : Bool := e == authenticationFailed || e == staleMessage

/-- The status code with which a failed request is answered. -/
def statusCode : Error → StatusCode
  | capacityExceeded => .listFull
  | malformedRequest => .malformed
  | _ => .failure

end Error

/-- Why a cryptographic operation failed. -/
inductive CipherError
  | invalidKey
  | randomFailure
  | bufferTooSmall
  | authenticationFailed
  | invalidNonce
  | busy
  | internal
deriving DecidableEq, Repr

namespace CipherError

def code : CipherError → UInt16
  | invalidKey => 0x0411
  | randomFailure => 0x0412
  | bufferTooSmall => 0x0413
  | authenticationFailed => 0x0414
  | invalidNonce => 0x0415
  | busy => 0x0416
  | internal => 0x04FF

def description : CipherError → String
  | invalidKey => "invalid key"
  | randomFailure => "RNG failure"
  | bufferTooSmall => "buffer too small"
  | authenticationFailed => "authentication failed"
  | invalidNonce => "invalid nonce"
  | busy => "AES engine busy"
  | internal => "internal error"

def message (e : CipherError) : String := codedText e.code e.description

/-- The error of the security layer that a cryptographic error becomes. -/
def toError : CipherError → Error
  | authenticationFailed => .authenticationFailed
  | randomFailure => .randomFailure
  | bufferTooSmall => .bufferTooSmall
  | busy => .engineBusy
  | invalidKey | invalidNonce | internal => .cryptoFailure

end CipherError

end MeshSecurity
