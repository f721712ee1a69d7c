import MeshSecurity.Bounded
import MeshSecurity.Error

/-!
# Record stores

The revocation list is kept as a stream of bytes to which records are appended. A store never
reorders or changes what it holds. There are a store that keeps nothing and one that holds a bounded
number of bytes in memory. The latter stores of an append what it has room for, and fails where it
has room for nothing of it.
-/

namespace MeshSecurity

/-- A store of appended bytes with state `τ`. -/
class RecordStore (τ : Type) where
  /-- Appends bytes and reports how many of them were stored. -/
  append (data : List UInt8) (store : τ) : Except Error Nat × τ
  /-- Reads up to `n` bytes at `offset`; nothing at the end of the data. -/
  read (offset n : Nat) (store : τ) : Except Error (List UInt8) × τ
  remove (store : τ) : Except Error Unit × τ

/-- The store that accepts everything and keeps nothing. -/
structure NullStore where
deriving DecidableEq

instance : RecordStore NullStore where
  append data s := (.ok data.length, s)
  read _ _ s := (.ok [], s)
  remove s := (.ok (), s)

/-- A store of at most `size` bytes. -/
structure MemoryStore (size : Nat) where
  bytes : Bounded UInt8 size

namespace MemoryStore

variable {size : Nat}

def empty : MemoryStore size := ⟨∅⟩

/-- The store with given contents, if they fit. -/
def ofContents (contents : List UInt8) : Except Error (MemoryStore size) :=
  match Bounded.ofList? contents with
  | some bytes => .ok ⟨bytes⟩
  | none => .error .bufferTooSmall

def contents (s : MemoryStore size) : List UInt8 := s.bytes.toList

/-- Stores the part of `data` that fits. -/
def append (data : List UInt8) (s : MemoryStore size) : Except Error Nat × MemoryStore size :=
  if s.bytes.isFull && !data.isEmpty then (.error .recordNotStored, s)
  else (.ok (min data.length s.bytes.room), ⟨s.bytes.extend data⟩)

/-- The stored bytes from `offset` on, at most `n` of them. -/
def read (offset n : Nat) (s : MemoryStore size) : List UInt8 := (s.contents.drop offset).take n

instance : RecordStore (MemoryStore size) where
  append := append
  read offset n s := (.ok (s.read offset n), s)
  remove _ := (.ok (), empty)

end MemoryStore

end MeshSecurity
