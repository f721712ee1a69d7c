import MeshSecurity.Journal

/-!
# Runs of a journal

The operations that change a journal as data, and the records that a sequence of them has asked to
keep. These are told from the calls alone: a record is kept if its level was enabled when it was
written, and the journal has not been cleared since.
-/

namespace MeshSecurity.Journal

/-- A call of a journal. -/
inductive Call
  | write (level : Level) (now : Instant) (component : String) (parts : List String)
  | clear
  | setThreshold (level : Level)
deriving DecidableEq

namespace Call

/-- The record that a call writes. -/
def record? : Call → Option Entry
  | write level now component parts => some ⟨level, now, component, Message.ofParts parts⟩
  | _ => none

def threshold? : Call → Option Level
  | setThreshold level => some level
  | _ => none

end Call

def perform (j : Journal) : Call → Journal
  | .write level now component parts => j.write level now component parts
  | .clear => j.clear
  | .setThreshold level => j.setThreshold level

/-- Carries out calls one after the other. -/
def run (calls : List Call) (j : Journal) : Journal := calls.foldl perform j

section History

variable (calls : List Call)

/-- The threshold that was set last, or that of a new journal. -/
def thresholdAfter : Level := ((calls.filterMap Call.threshold?).getLast?).getD .info

/-- The record of the `i`-th call, if its level was enabled at the time and no later call has
cleared the journal. -/
def kept? (i : Nat) : Option Entry :=
  (calls[i]?.bind Call.record?).filter fun entry =>
    (thresholdAfter (calls.take i)).atLeast entry.level && !(calls.drop (i + 1)).contains .clear

/-- The records written at an enabled level since the journal was cleared, oldest first. -/
def recorded : List Entry := (List.range calls.length).filterMap (kept? calls)

end History

end MeshSecurity.Journal
