import MeshSecurity.Address
import MeshSecurity.Bounded
import MeshSecurity.Storage.Memory

/-!
# The revocation list

A bounded list of revoked addresses, oldest first. Entries are only added; nothing but clearing
takes them away, and an address may be listed more than once.

A persistent list appends a record of every entry to its store and can be loaded from there. A
record is the address followed by a delimiter, and the records follow one another without any
other mark, so a record is found by its number.
-/

namespace MeshSecurity

/-- A list of at most `capacity` revoked addresses over a store. -/
structure RevocationList (width capacity : Nat) (τ : Type) where
  entries : Bounded (Address width) capacity
  store : τ
  /-- Whether the store is used at all. -/
  persistent : Bool

namespace RevocationList

variable {width capacity : Nat} {τ : Type}

def defaultCapacity : Nat := 50

/-- The byte that ends a record. -/
def delimiter : UInt8 := 10

def recordSize (width : Nat) : Nat := width + 1

def record (peer : Address width) : List UInt8 := peer.toList ++ [delimiter]

/-- The list without entries over a store. -/
def ofStore (store : τ) (persistent : Bool) : RevocationList width capacity τ :=
  ⟨∅, store, persistent⟩

def isRevoked (peer : Address width) (l : RevocationList width capacity τ) : Bool :=
  l.entries.toList.contains peer

def length (l : RevocationList width capacity τ) : Nat := l.entries.length

def isFull (l : RevocationList width capacity τ) : Bool := l.entries.isFull

variable [RecordStore τ]

/-- Reads up to `n` records from number `i` on. It ends before a record whose address is not
complete, and with an error where the store cannot be read. -/
def readRecords (width : Nat) : (n i : Nat) → τ → List (Address width) × Except Error Unit × τ
  | 0, _, store => ([], .ok (), store)
  | n + 1, i, store =>
    match RecordStore.read (i * recordSize width) (recordSize width) store with
    | (.error e, store) => ([], .error e, store)
    | (.ok bytes, store) =>
      match Address.ofBytes? width (bytes.take width) with
      | none => ([], .ok (), store)
      | some peer =>
        let (peers, result, store) := readRecords width n (i + 1) store
        (peer :: peers, result, store)

theorem length_readRecords_le (n i : Nat) (store : τ) :
    (readRecords width n i store).1.length ≤ n := by
  induction n generalizing i store with
  | zero => simp [readRecords]
  | succ n ih =>
    unfold readRecords
    split
    · simp
    · split
      · simp
      · simpa using ih _ _

/-- Replaces the entries by the stored ones, as many as there is room for, and reports their
number. Entries read before a failure are kept. A list that is not persistent becomes empty. -/
def load (l : RevocationList width capacity τ) :
    Except Error Nat × RevocationList width capacity τ :=
  if l.persistent then
    let stored := readRecords width capacity 0 l.store
    (stored.2.1.map fun _ => stored.1.length,
      { l with entries := ⟨stored.1, length_readRecords_le _ _ _⟩, store := stored.2.2 })
  else (.ok 0, { l with entries := ∅ })

/-- Adds a peer and reports the new number of entries. The entry stays also where its record
could not be stored completely. -/
def revoke (peer : Address width) (l : RevocationList width capacity τ) :
    Except Error Nat × RevocationList width capacity τ :=
  match l.entries.push? peer with
  | none => (.error .capacityExceeded, l)
  | some entries =>
    if l.persistent then
      match RecordStore.append (record peer) l.store with
      | (.ok stored, store) =>
        (if stored = recordSize width then .ok entries.length else .error .recordNotStored,
          { l with entries, store })
      | (.error _, store) => (.error .recordNotStored, { l with entries, store })
    else (.ok entries.length, { l with entries })

def clear (l : RevocationList width capacity τ) :
    Except Error Unit × RevocationList width capacity τ :=
  if l.persistent then
    let (result, store) := RecordStore.remove l.store
    (result, { l with entries := ∅, store })
  else (.ok (), { l with entries := ∅ })

end RevocationList

end MeshSecurity
