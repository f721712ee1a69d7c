import MeshSecurity.RevocationList

/-!
# Runs of a revocation list

The operations of a list as data, restarts of the node included, and the history of a sequence of
them. The history tells of each revocation how many bytes of its record were stored.
-/

namespace MeshSecurity.RevocationList

/-- A call of a list. After a restart there is a new list over the same store. -/
inductive Call (width : Nat)
  | revoke (peer : Address width)
  | clear
  | load
  | restart
deriving DecidableEq

/-- What a call did. -/
inductive Event (width : Nat)
  | revoked (peer : Address width) (result : Except Error Nat) (stored : Nat)
  | cleared (result : Except Error Unit)
  | loaded (result : Except Error Nat)

namespace Event

variable {width : Nat}

def isClear : Event width → Bool
  | cleared _ => true
  | _ => false

/-- The peer of a revocation. -/
def peer? : Event width → Option (Address width)
  | revoked peer _ _ => some peer
  | _ => none

/-- The peer of a revocation that succeeded. -/
def acknowledged? : Event width → Option (Address width)
  | revoked peer (.ok _) _ => some peer
  | _ => none

/-- The peer of a revocation that failed when all of its record but the delimiter was stored. -/
def undelimited? : Event width → Option (Address width)
  | revoked peer (.error .recordNotStored) stored => if stored = width then some peer else none
  | _ => none

end Event

section History

variable {width : Nat} (history : List (Event width))

/-- The events after the last time the list was cleared. -/
def sinceClear : List (Event width) := (history.reverse.takeWhile fun e => !e.isClear).reverse

/-- The peers whose revocation has succeeded since the list was cleared, in order. -/
def acknowledged : List (Address width) := (sinceClear history).filterMap Event.acknowledged?

def undelimited : List (Address width) := (sinceClear history).filterMap Event.undelimited?

/-- All peers that a revocation was asked for. -/
def requested : List (Address width) := history.filterMap Event.peer?

end History

variable {width capacity : Nat} {τ : Type} [RecordStore τ]

/-- A new persistent list over a store, loaded from there. -/
def opened (store : τ) : Except Error Nat × RevocationList width capacity τ :=
  (ofStore store true).load

/-- How many bytes of the record of a peer a revocation stores. -/
def storedBy (peer : Address width) (l : RevocationList width capacity τ) : Nat :=
  if (l.entries.push? peer).isSome && l.persistent then
    match (RecordStore.append (record peer) l.store).1 with
    | .ok n => n
    | .error _ => 0
  else 0

def perform (l : RevocationList width capacity τ) :
    Call width → Event width × RevocationList width capacity τ
  | .revoke peer => (.revoked peer (l.revoke peer).1 (l.storedBy peer), (l.revoke peer).2)
  | .clear => (.cleared l.clear.1, l.clear.2)
  | .load => (.loaded l.load.1, l.load.2)
  | .restart =>
    let (result, l) := opened l.store
    (.loaded result, l)

/-- Carries out calls one after the other and collects what they did. -/
def run : List (Call width) → RevocationList width capacity τ →
    List (Event width) × RevocationList width capacity τ
  | [], l => ([], l)
  | call :: calls, l =>
    let (event, l) := l.perform call
    let (events, l) := run calls l
    (event :: events, l)

end MeshSecurity.RevocationList
