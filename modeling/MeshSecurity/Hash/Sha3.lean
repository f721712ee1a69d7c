import MeshSecurity.Bytes

/-!
# SHA3-256

The Keccak sponge of 25 lanes with a rate of 136 bytes. A state is a vector of lanes, lane
`(x, y)` at position `x + 5 y`.
-/

namespace MeshSecurity.Sha3

/-- The 1600-bit state as 25 lanes of 64 bits. -/
abbrev State := Vector UInt64 25

/-- The lane at column `x` and row `y`, both counted around. -/
def lane (s : State) (x y : Nat) : UInt64 :=
  s.get ⟨x % 5 + 5 * (y % 5), by omega⟩

/-- The state whose lane at `(x, y)` is `f x y`. -/
def tabulate (f : Nat → Nat → UInt64) : State := Vector.ofFn fun i => f (i % 5) (i / 5)

/-- Rotation to the left by `k` bits, where `k < 64`. -/
def rotate (x : UInt64) (k : Nat) : UInt64 :=
  if k = 0 then x else x <<< k.toUInt64 ||| x >>> (64 - k).toUInt64

def offsets : List Nat :=
  [0, 1, 62, 28, 27, 36, 44, 6, 55, 20, 3, 10, 43, 25, 39, 41, 45, 15, 21, 8, 18, 2, 61, 56, 14]

def roundConstants : List UInt64 :=
  [0x0000000000000001, 0x0000000000008082, 0x800000000000808A, 0x8000000080008000,
   0x000000000000808B, 0x0000000080000001, 0x8000000080008081, 0x8000000000008009,
   0x000000000000008A, 0x0000000000000088, 0x0000000080008009, 0x000000008000000A,
   0x000000008000808B, 0x800000000000008B, 0x8000000000008089, 0x8000000000008003,
   0x8000000000008002, 0x8000000000000080, 0x000000000000800A, 0x800000008000000A,
   0x8000000080008081, 0x8000000000008080, 0x0000000080000001, 0x8000000080008008]

/-- Adds to each lane the parities of the columns on both sides. -/
def theta (s : State) : State :=
  let parity : Vector UInt64 5 := Vector.ofFn fun x =>
    lane s x 0 ^^^ lane s x 1 ^^^ lane s x 2 ^^^ lane s x 3 ^^^ lane s x 4
  let column (x : Nat) : UInt64 := parity.get ⟨x % 5, by omega⟩
  tabulate fun x y => lane s x y ^^^ column (x + 4) ^^^ rotate (column (x + 1)) 1

/-- Rotates the lanes and moves them to their new positions. -/
def rhoPi (s : State) : State :=
  tabulate fun x y => rotate (lane s (x + 3 * y) x) (offsets.getD ((x + 3 * y) % 5 + 5 * x) 0)

/-- Combines each lane with the two to its right. -/
def chi (s : State) : State :=
  tabulate fun x y => lane s x y ^^^ (~~~ lane s (x + 1) y &&& lane s (x + 2) y)

def iota (c : UInt64) (s : State) : State := s.set 0 (s.get 0 ^^^ c)

/-- The Keccak permutation. -/
def permute (s : State) : State :=
  roundConstants.foldl (fun s c => iota c (chi (rhoPi (theta s)))) s

/-- The number of message bytes per block. -/
def rate : Nat := 136

/-- Eight bytes as a lane, and the lanes of a block. -/
def laneOf (block : List UInt8) (i : Nat) : UInt64 :=
  (ofLittleEndian ((block.drop (8 * i)).take 8)).toUInt64

def absorb (s : State) (block : List UInt8) : State :=
  permute (Vector.ofFn fun i => s.get i ^^^ laneOf block i)

/-- The message followed by the domain bits, zeros and the last bit of the block. -/
def pad (message : List UInt8) : List UInt8 :=
  let free := rate - message.length % rate
  message ++ if free = 1 then [0x86] else 0x06 :: List.replicate (free - 2) 0 ++ [0x80]

/-- The first `n` blocks of a padded message. -/
def blocks : Nat → List UInt8 → List (List UInt8)
  | 0, _ => []
  | n + 1, l => l.take rate :: blocks n (l.drop rate)

/-- The 32-byte digest of a message. -/
def digest (message : List UInt8) : Bytes 32 :=
  let padded := pad message
  let final := (blocks (padded.length / rate) padded).foldl absorb (Vector.replicate 25 0)
  Bytes.padded 32 (final.toList.flatMap fun l => littleEndian 8 l.toNat)

end MeshSecurity.Sha3
