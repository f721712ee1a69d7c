import MeshSecurity.Cipher.Aes

/-!
# CCM: counter mode with CBC-MAC

Authenticated encryption with a 13-byte nonce, an 8-byte tag and a payload length field of two
bytes, for any block cipher. The tag authenticates the nonce, the associated data and the
payload; the sealed form is the encrypted payload followed by the encrypted tag.
-/

namespace MeshSecurity.Ccm

def tagLength : Nat := 8

/-- The longest payload whose length fits its field. -/
def maxPayload : Nat := 65535

/-- The first `n` blocks of `l`, the last one filled up with zeros. -/
def blocks : Nat → List UInt8 → List Block
  | 0, _ => []
  | n + 1, l => Bytes.padded 16 (l.take 16) :: blocks n (l.drop 16)

/-- The blocks of `l`, the last one filled up with zeros. -/
def allBlocks (l : List UInt8) : List Block := blocks ((l.length + 15) / 16) l

/-- The block that opens the authenticated data: flags, nonce, payload length. -/
def firstBlock (nonce : Nonce) (hasAssociated : Bool) (payloadLength : Nat) : Block :=
  let flags : UInt8 := (if hasAssociated then 64 else 0) + 8 * 3 + 1
  Bytes.padded 16 (flags :: nonce.toList ++ bigEndian 2 payloadLength)

/-- The length of the associated data in front of it: two bytes, or a mark and four or eight. -/
def lengthHeader (n : Nat) : List UInt8 :=
  if n < 0xFF00 then bigEndian 2 n
  else if n ≤ 0xFFFFFFFF then 0xFF :: 0xFE :: bigEndian 4 n
  else 0xFF :: 0xFF :: bigEndian 8 n

/-- The blocks of the associated data; none when there is no such data. -/
def associatedBlocks (associated : List UInt8) : List Block :=
  if associated.isEmpty then [] else allBlocks (lengthHeader associated.length ++ associated)

def cbcMac (cipher : Block → Block) (l : List Block) : Block :=
  l.foldl (fun x b => cipher (x.xor b)) (Vector.replicate 16 0)

def counterBlock (nonce : Nonce) (n : Nat) : Block :=
  Bytes.padded 16 (1 :: nonce.toList ++ bigEndian 2 n)

/-- Encrypts or decrypts a payload with the stream of counter blocks from number one on. -/
def crypt (cipher : Block → Block) (nonce : Nonce) (payload : List UInt8) : List UInt8 :=
  let stream := (List.range ((payload.length + 15) / 16)).flatMap fun i =>
    (cipher (counterBlock nonce (i + 1))).toList
  List.zipWith (· ^^^ ·) payload stream

/-- The encrypted tag of a payload in clear. -/
def tag (cipher : Block → Block) (nonce : Nonce) (associated payload : List UInt8) : List UInt8 :=
  let mac := cbcMac cipher (firstBlock nonce (!associated.isEmpty) payload.length ::
    associatedBlocks associated ++ allBlocks payload)
  (mac.xor (cipher (counterBlock nonce 0))).toList.take tagLength

/-- The sealed form of a payload, unless it is too long. -/
def wrap (cipher : Block → Block) (nonce : Nonce) (associated payload : List UInt8) :
    Option (List UInt8) :=
  if payload.length ≤ maxPayload then
    some (crypt cipher nonce payload ++ tag cipher nonce associated payload)
  else none

/-- The payload of a sealed form. Refuses what is too short or too long, and any tag that is not
the one of the payload. -/
def unwrap (cipher : Block → Block) (nonce : Nonce) (associated message : List UInt8) :
    Option (List UInt8) :=
  let length := message.length - tagLength
  if tagLength ≤ message.length ∧ length ≤ maxPayload then
    let payload := crypt cipher nonce (message.take length)
    if sameBytes (tag cipher nonce associated payload) (message.drop length) then some payload
    else none
  else none

end MeshSecurity.Ccm
