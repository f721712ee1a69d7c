import MeshSecurity.Fermat
import MeshSecurity.Pairwise.Scheme
import MeshSecurity.Random.SeedStream

/-!
# Blom's key predistribution

A secret symmetric matrix of `lambda` rows gives every node a row polynomial: its coefficients are
the products of the matrix with the powers of the node's own number. Two nodes obtain the same
secret by evaluating their polynomials at each other's number. Coefficients are accumulated in
16-bit words that wrap around, values are taken modulo the Fermat prime 65537.

A secret consists of the two low bytes of a value, the lower one first, and is kept once it was
computed.
-/

namespace MeshSecurity

/-- Assigns every address the number under which its node takes part, given `lambda`. -/
abbrev PeerNumbering (width : Nat) := Address width → (lambda : Nat) → UInt16

namespace PeerNumbering

variable {width : Nat}

def demonstrationIds : List UInt8 := [0x3B, 0x1A, 0xC6, 0x5D, 0x00]

/-- The number of all other nodes there. -/
def demonstrationDefault : UInt16 := 3

/-- The numbering of the demonstration network: the position of the last address byte in the
table, of which no more than `lambda` entries are used. -/
def demonstration : PeerNumbering width := fun peer lambda =>
  match (demonstrationIds.take lambda).findIdx? (· == peer.lastByte) with
  | some i => i.toUInt16
  | none => demonstrationDefault

/-- The numbering by the last address byte itself. -/
def byLastByte : PeerNumbering width := fun peer _ => peer.lastByte.toUInt16

end PeerNumbering

abbrev ByteMatrix (lambda : Nat) := Vector (Vector UInt8 lambda) lambda

namespace ByteMatrix

variable {lambda : Nat}

/-- Whether the matrix equals its transpose. -/
def IsSymmetric (d : ByteMatrix lambda) : Prop := ∀ i j : Fin lambda, d[i][j] = d[j][i]

instance (d : ByteMatrix lambda) : Decidable d.IsSymmetric :=
  inferInstanceAs (Decidable (∀ i j : Fin lambda, d[i][j] = d[j][i]))

theorem IsSymmetric.get_comm {d : ByteMatrix lambda} (hd : d.IsSymmetric) (i j : Fin lambda) :
    (d.get i).get j = (d.get j).get i :=
  hd i j

def zero : ByteMatrix lambda := Vector.replicate lambda (Vector.replicate lambda 0)

/-- Writes a byte at row `i` and column `j` and at the mirrored place. -/
def setMirrored (d : ByteMatrix lambda) (i j : Fin lambda) (byte : UInt8) : ByteMatrix lambda :=
  let d := d.set i (d[i].set j byte)
  d.set j (d[j].set i byte)

/-- The places up to the diagonal, row by row. -/
def triangle (lambda : Nat) : List (Fin lambda × Fin lambda) :=
  (List.finRange lambda).flatMap fun i : Fin lambda =>
    (List.finRange (i + 1)).map fun j => (i, j.castLE i.isLt)

/-- Draws a byte for each of the places, one request after the other, and writes it there and at
the mirrored place. -/
def drawEntries {ρ : Type} [RandomSource ρ] : List (Fin lambda × Fin lambda) →
    ByteMatrix lambda → ρ → Option (ByteMatrix lambda) × ρ
  | [], d, random => (some d, random)
  | (i, j) :: places, d, random =>
    match RandomSource.fill 1 random with
    | (none, random) => (none, random)
    | (some byte, random) => drawEntries places (d.setMirrored i j byte[0]) random

/-- The matrix that all nodes with the same seed compute. -/
def ofSeed (seed : Bytes 32) : Option (ByteMatrix lambda) :=
  (drawEntries (triangle lambda) zero (SeedStream.ofSeed seed)).1

end ByteMatrix

/-- A node's part in the scheme: its row polynomial and the secrets computed so far. -/
structure Blom (width lambda : Nat) where
  row : Vector UInt16 lambda
  cache : Vector (Option (Bytes 2)) lambda
  numbering : PeerNumbering width

namespace Blom

variable {width lambda : Nat}

def secretLength : Nat := 2

def defaultLambda : Nat := 5

def ofRow (row : Vector UInt16 lambda) (numbering : PeerNumbering width) : Blom width lambda :=
  ⟨row, Vector.replicate lambda none, numbering⟩

/-- Adds the terms of further entries to `sum`, where `power` belongs to the first of them. All
of it is computed in 16-bit words. -/
def addEntries (own : UInt16) : List UInt8 → UInt16 → UInt16 → UInt16
  | [], sum, _ => sum
  | d :: ds, sum, power => addEntries own ds (sum + d.toUInt16 * power) (power * own)

/-- The coefficient that node `own` obtains from a row of the matrix. -/
def coefficient (own : UInt16) (entries : Vector UInt8 lambda) : UInt16 :=
  addEntries own entries.toList 0 1

/-- The part of node `own`, given the matrix; an asymmetric one is refused. -/
def ofMatrix (d : ByteMatrix lambda) (own : UInt16) (numbering : PeerNumbering width) :
    Except Error (Blom width lambda) :=
  if d.IsSymmetric then .ok (ofRow (d.map (coefficient own)) numbering)
  else .error .invalidParameter

/-- The part of node `own`, given the seed that all nodes share. -/
def ofSeed (seed : Bytes 32) (own : UInt16) (numbering : PeerNumbering width) :
    Except Error (Blom width lambda) :=
  match ByteMatrix.ofSeed seed with
  | some d => ofMatrix d own numbering
  | none => .error .randomFailure

def evaluate (peer : UInt16) (b : Blom width lambda) : UInt32 :=
  Fermat.evaluate b.row.toList peer

/-- The secret that a value stands for. -/
def secretOfValue (value : UInt32) : Bytes 2 := #v[value.toUInt8, (value >>> 8).toUInt8]

/-- The secret shared with the node of a given number, which has to be below `lambda`. -/
def secretFor (peer : UInt16) (b : Blom width lambda) :
    Except Error (Bytes 2) × Blom width lambda :=
  if h : peer.toNat < lambda then
    match b.cache.get ⟨peer.toNat, h⟩ with
    | some secret => (.ok secret, b)
    | none =>
      let secret := secretOfValue (b.evaluate peer)
      (.ok secret, { b with cache := b.cache.set peer.toNat (some secret) h })
  else (.error .invalidParameter, b)

def secretForPeer (peer : Address width) (b : Blom width lambda) :
    Except Error (List UInt8) × Blom width lambda :=
  let (result, b) := b.secretFor (b.numbering peer lambda)
  (result.map Vector.toList, b)

def cached (b : Blom width lambda) : Nat := b.cache.toList.countP Option.isSome

instance : PairwiseScheme (Blom width lambda) width where
  name := "bloms"
  init b := (.ok (), b)
  helloSecret := secretForPeer
  ackSecret := secretForPeer
  update _ _ b := (.error .notSupported, b)

end Blom

end MeshSecurity
