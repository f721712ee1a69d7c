import MeshSecurity.Bytes
import MeshSecurity.Saturating
import MeshSecurity.Time

/-!
# The journal

A ring of the most recent records. A record above the threshold of verbosity is not kept, a
message longer than the limit is cut at a character boundary, and the oldest record makes room
for the newest. Keys and secrets are never recorded, only addresses, counts and lengths.
-/

namespace MeshSecurity

/-- The severity of a record, the most severe first. -/
inductive Level
  | error
  | warn
  | info
  | debug
  | trace
deriving DecidableEq, Repr

namespace Level

/-- Verbosity: the more severe a level, the smaller its rank. -/
def rank : Level → UInt8
  | error => 0
  | warn => 1
  | info => 2
  | debug => 3
  | trace => 4

def name : Level → String
  | error => "ERROR"
  | warn => "WARN"
  | info => "INFO"
  | debug => "DEBUG"
  | trace => "TRACE"

def all : List Level := [error, warn, info, debug, trace]

/-- Whether `l` is at least as severe as `bound`. -/
def atLeast (bound l : Level) : Bool := l.rank ≤ bound.rank

end Level

structure Entry where
  level : Level
  time : Instant
  /-- The part of the node that wrote the record. -/
  component : String
  message : String
deriving DecidableEq

/-- The displayed form of a record, the time aligned to the right. -/
def Entry.text (e : Entry) : String :=
  "[" ++ padLeft 10 ' ' (toString e.time.ticks.toNat) ++ "] " ++ e.level.name ++
    " [" ++ e.component ++ "] " ++ e.message

namespace Message

/-- The longest message, in bytes of UTF-8. -/
def maxSize : Nat := 96

/-- The bytes that characters take in UTF-8. -/
def size (cs : List Char) : Nat := cs.foldr (fun c n => c.utf8Size + n) 0

/-- The characters of `cs` before the first one that does not fit into `room` bytes. -/
def fitting (room : Nat) : List Char → List Char
  | [] => []
  | c :: cs => if c.utf8Size ≤ room then c :: fitting (room - c.utf8Size) cs else []

/-- Adds a part to a message, as far as it fits. -/
def append (message part : List Char) : List Char :=
  message ++ fitting (maxSize - size message) part

/-- The message written part by part. A character that does not fit ends its own part only. -/
def ofParts (parts : List String) : String :=
  String.ofList ((parts.map String.toList).foldl append [])

end Message

/-- A ring of records with the position that is written next. -/
structure Journal where
  slots : Vector (Option Entry) 32
  next : Nat
  held : Nat
  overwritten : UInt32
  threshold : Level

namespace Journal

def capacity : Nat := 32

/-- The empty journal, which records `info` and above. -/
def empty : Journal := ⟨Vector.replicate 32 none, 0, 0, 0, .info⟩

/-- The slot at a position, counted around the ring. -/
def slot (j : Journal) (i : Nat) : Option Entry :=
  j.slots.get ⟨i % 32, Nat.mod_lt _ (by decide)⟩

/-- Whether records of this level are kept. -/
def records (j : Journal) (l : Level) : Bool := j.threshold.atLeast l

/-- Sets the most verbose level that is kept. -/
def setThreshold (l : Level) (j : Journal) : Journal := { j with threshold := l }

/-- Puts a record into the ring, over the oldest one when the ring is full. -/
def push (e : Entry) (j : Journal) : Journal where
  slots := j.slots.set (j.next % 32) (some e) (Nat.mod_lt _ (by decide))
  next := (j.next + 1) % capacity
  held := if j.held = capacity then j.held else j.held + 1
  overwritten := if j.held = capacity then Saturating.succ32 j.overwritten else j.overwritten
  threshold := j.threshold

/-- Writes a message made of parts, if its level is kept. -/
def write (level : Level) (now : Instant) (component : String) (parts : List String)
    (j : Journal) : Journal :=
  if j.records level then j.push ⟨level, now, component, Message.ofParts parts⟩ else j

/-- Drops all records and the count of lost ones. The threshold stays. -/
def clear (j : Journal) : Journal := { empty with threshold := j.threshold }

def isEmpty (j : Journal) : Bool := j.held == 0

/-- The records, oldest first. -/
def entries (j : Journal) : List Entry :=
  (List.range j.held).filterMap fun i =>
    j.slot ((if j.held < capacity then 0 else j.next) + i)

def last (j : Journal) : Option Entry :=
  if j.held = 0 then none else j.slot (j.next + capacity - 1)

/-- The records at least as severe as `bound`, oldest first. -/
def atLeast (bound : Level) (j : Journal) : List Entry :=
  j.entries.filter fun e => bound.atLeast e.level

theorem slot_push (e : Entry) (j : Journal) (i : Nat) :
    (j.push e).slot i = if j.next % 32 = i % 32 then some e else j.slot i := by
  have hnext : j.next % 32 < 32 := Nat.mod_lt _ (by decide)
  exact Vector.getElem_set hnext (Nat.mod_lt i (by decide))

theorem last_push (e : Entry) (j : Journal) : (j.push e).last = some e := by
  have hheld : (j.push e).held ≠ 0 := by
    change (if j.held = capacity then j.held else j.held + 1) ≠ 0
    by_cases hfull : j.held = capacity
    · rw [if_pos hfull, hfull]
      decide
    · rw [if_neg hfull]
      exact Nat.succ_ne_zero _
  have hplace : j.next % 32 = ((j.push e).next + capacity - 1) % 32 := by
    dsimp only [push, capacity]
    omega
  rw [last, if_neg hheld, slot_push, if_pos hplace]

end Journal

end MeshSecurity
