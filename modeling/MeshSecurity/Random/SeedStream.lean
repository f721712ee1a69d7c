import MeshSecurity.Hash.Sha3
import MeshSecurity.Random.Source

/-!
# The stream of a shared seed

A seed is expanded into numbered blocks, the SHA3-256 digests of the seed followed by the block
number. Every request begins with a fresh block, so no block serves two requests. Nodes with the
same seed see the same stream.
-/

namespace MeshSecurity

/-- The stream of `seed` after `blocks` blocks. -/
structure SeedStream where
  seed : Bytes 32
  blocks : UInt64
deriving DecidableEq

namespace SeedStream

def ofSeed (seed : Bytes 32) : SeedStream := ⟨seed, 0⟩

/-- The stream whose seed is the digest of a word. -/
def ofWord (word : UInt64) : SeedStream := ofSeed (Sha3.digest (littleEndian 8 word.toNat))

def block (seed : Bytes 32) (number : UInt64) : Bytes 32 :=
  Sha3.digest (seed.toList ++ littleEndian 8 number.toNat)

/-- The bytes of `count` consecutive blocks after block `last`. -/
def blocksAfter (seed : Bytes 32) (last : UInt64) (count : Nat) : List UInt8 :=
  (List.range count).flatMap fun i => (block seed (last + (i + 1).toUInt64)).toList

/-- How many blocks a request of `n` bytes takes. -/
def blocksFor (n : Nat) : Nat := (n + 31) / 32

instance : RandomSource SeedStream where
  fill n s :=
    (some (Bytes.padded n (blocksAfter s.seed s.blocks (blocksFor n))),
      { s with blocks := s.blocks + (blocksFor n).toUInt64 })

theorem add_toUInt64_add (last : UInt64) (m k : Nat) :
    last + (m + k).toUInt64 = last + m.toUInt64 + k.toUInt64 := by
  rw [Nat.toUInt64_eq, Nat.toUInt64_eq, Nat.toUInt64_eq, UInt64.ofNat_add, UInt64.add_assoc]

theorem add_toUInt64_succ (last : UInt64) (count : Nat) :
    last + (count + 1).toUInt64 = last + 1 + count.toUInt64 := by
  rw [Nat.add_comm, add_toUInt64_add]
  rfl

theorem blocksFor_of_pos {n : Nat} (h : 0 < n) : blocksFor n = blocksFor (n - 32) + 1 := by
  unfold blocksFor
  omega

theorem blocksFor_add (m r : Nat) : blocksFor (32 * m + r) = m + blocksFor r := by
  unfold blocksFor
  omega

end SeedStream

end MeshSecurity
