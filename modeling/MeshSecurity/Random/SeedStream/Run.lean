import MeshSecurity.Random.SeedStream

/-!
# Requests of a seeded stream, block by block

How the bytes of a request come about: as long as bytes are missing, the next block is hashed, and
what there is room for is copied from it into the buffer, behind the bytes that are there. A
sequence of requests leaves with each delivery the numbers of the blocks it took its bytes from.
-/

namespace MeshSecurity.SeedStream

/-- A request of `n` bytes under way. -/
structure Copying (n : Nat) where
  buffer : Bytes n
  /-- How many bytes of the buffer are delivered. -/
  offset : Nat
  offset_le : offset ≤ n
  /-- The blocks produced so far. -/
  blocks : UInt64
  /-- The numbers of the blocks that bytes were copied from. -/
  numbers : List UInt64

namespace Copying

variable {n : Nat}

/-- A request before its first block. -/
def start (buffer : Bytes n) (blocks : UInt64) : Copying n :=
  ⟨buffer, 0, Nat.zero_le n, blocks, []⟩

/-- The buffer with bytes copied to an offset, where there is room for them. -/
def write (buffer : Bytes n) (offset : Nat) (bytes : List UInt8) (h : offset + bytes.length ≤ n) :
    Bytes n :=
  ⟨(buffer.toList.take offset ++ bytes ++ buffer.toList.drop (offset + bytes.length)).toArray, by
    simp; omega⟩

theorem take_write (buffer : Bytes n) (offset : Nat) (bytes : List UInt8)
    (h : offset + bytes.length ≤ n) :
    (write buffer offset bytes h).toList.take (offset + bytes.length) =
      buffer.toList.take offset ++ bytes := by
  apply List.take_left'
  rw [List.length_append, List.length_take, Vector.length_toList]
  omega

/-- Hashes the next block and copies from it. -/
def copyBlock (seed : Bytes 32) (c : Copying n) : Copying n :=
  let number := c.blocks + 1
  let count := min (n - c.offset) 32
  have hroom := c.offset_le
  { buffer := write c.buffer c.offset ((block seed number).toList.take count) (by simp; omega)
    offset := c.offset + count
    offset_le := by omega
    blocks := number
    numbers := c.numbers ++ [number] }

/-- Takes blocks until the buffer is full. -/
def copyAll (seed : Bytes 32) (c : Copying n) : Copying n :=
  if c.offset < n then copyAll seed (c.copyBlock seed) else c
termination_by n - c.offset
decreasing_by
  dsimp only [copyBlock]
  omega

end Copying

/-- What became of a request. -/
structure Delivery where
  bytes : List UInt8
  /-- The numbers of the blocks that the bytes were copied from. -/
  numbers : List UInt64
  /-- The blocks that the stream has produced. -/
  blocks : UInt64

/-- Fills a buffer, whatever it held. -/
def deliver {n : Nat} (buffer : Bytes n) (s : SeedStream) : Delivery × SeedStream :=
  let done := (Copying.start buffer s.blocks).copyAll s.seed
  (⟨done.buffer.toList, done.numbers, done.blocks⟩, { s with blocks := done.blocks })

/-- Fills buffers one after the other. -/
def deliverAll : List (Σ n, Bytes n) → SeedStream → List Delivery × SeedStream
  | [], s => ([], s)
  | ⟨_, buffer⟩ :: buffers, s =>
    let (delivery, s) := deliver buffer s
    let (deliveries, s) := deliverAll buffers s
    (delivery :: deliveries, s)

/-- Makes requests of the given lengths one after the other. -/
def fillAll : List Nat → SeedStream → List (Option (List UInt8)) × SeedStream
  | [], s => ([], s)
  | n :: lengths, s =>
    let (bytes, s) := RandomSource.fill n s
    let (answers, s) := fillAll lengths s
    (bytes.map (·.toList) :: answers, s)

/-- How many blocks requests of the given lengths take. -/
def blocksForAll : List Nat → Nat
  | [] => 0
  | n :: lengths => blocksFor n + blocksForAll lengths

end MeshSecurity.SeedStream
