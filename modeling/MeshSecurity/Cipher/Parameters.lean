import MeshSecurity.Error
import MeshSecurity.Random.Source

/-!
# Keys and nonces

What the cipher is given besides the data. The nonce of a management message is made of the numbers
in its header. When its bytes are written, the digits of a number come off by division, the last
one first, and are turned round as they go to the front of what is left of the nonce.
-/

namespace MeshSecurity

abbrev Key := Bytes 16

namespace Key

def size : Nat := 16

/-- Reads a key; only 16 bytes are one. -/
def ofBytes (l : List UInt8) : Except CipherError Key :=
  match Bytes.ofList? 16 l with
  | some key => .ok key
  | none => .error .invalidKey

def generate {ρ : Type} [RandomSource ρ] (source : ρ) : Option Key × ρ :=
  RandomSource.fill 16 source

/-- What is shown of a key: nothing of its bytes. -/
def shown (_ : Key) : String := "[REDACTED]"

end Key

/-! ## Nonces of management messages -/

abbrev Nonce := Bytes 13

/-- The decimal digits of a number in ASCII. -/
def decimalDigits (n : Nat) : List UInt8 := (Nat.toDigits 10 n).map fun c => c.toNat.toUInt8

def Nonce.size : Nat := 13

/-- The nonce of a management message: the decimal digits of its id, then those of its type, then
zeros. There is no separator between the two numbers. -/
def Nonce.ofMessage (id : UInt16) (type : UInt8) : Nonce :=
  Bytes.padded 13 (decimalDigits id.toNat ++ decimalDigits type.toNat)

/-! ## Writing numbers into a nonce -/

/-- The decimal digits of a number in ASCII, the last one first. -/
def reversedDigits (n : Nat) : List UInt8 :=
  (48 + (n % 10).toUInt8) :: if h : n / 10 = 0 then [] else reversedDigits (n / 10)
termination_by n
decreasing_by omega

/-- Writes a number to the front of a buffer, and tells how many bytes that took. A buffer that is
too short has room for the last digits only. -/
def writeDecimal (n : Nat) (buffer : List UInt8) : List UInt8 × Nat :=
  let count := min (reversedDigits n).length buffer.length
  (((reversedDigits n).take count).reverse ++ buffer.drop count, count)

/-- The bytes of a nonce: zeros, over which the id of the message is written and behind it the
type. -/
def Nonce.written (id : UInt16) (type : UInt8) : List UInt8 :=
  let (bytes, count) := writeDecimal id.toNat (List.replicate Nonce.size 0)
  bytes.take count ++ (writeDecimal type.toNat (bytes.drop count)).1

end MeshSecurity
