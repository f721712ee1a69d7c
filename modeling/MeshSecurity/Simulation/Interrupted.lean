import MeshSecurity.Random.Source
import MeshSecurity.Storage.Memory

/-!
# Sources and stores with faults

Calls are numbered from zero. The listed ones fail without reaching what is inside, so a run can
be repeated with a fault at any of its calls. Another store takes of an append as many bytes as a
script says, and all of its data once the script has ended.
-/

namespace MeshSecurity

/-- A numbered sequence of calls of which the listed ones fail. -/
structure CallCounter where
  failing : List Nat
  calls : Nat
deriving DecidableEq

namespace CallCounter

/-- The counter before the first call. -/
def ofFailing (failing : List Nat) : CallCounter := ⟨failing, 0⟩

def nextFails (c : CallCounter) : Bool := c.failing.contains c.calls

def advance (c : CallCounter) : CallCounter := { c with calls := c.calls + 1 }

end CallCounter

/-- A random source with the requests that fail. -/
structure InterruptedSource (ρ : Type) where
  source : ρ
  requests : CallCounter

instance {ρ : Type} [RandomSource ρ] : RandomSource (InterruptedSource ρ) where
  fill n s :=
    let counted := { s with requests := s.requests.advance }
    if s.requests.nextFails then (none, counted)
    else
      let (bytes, source) := RandomSource.fill n s.source
      (bytes, { counted with source })

/-- A store with the calls of its operations that fail. -/
structure InterruptedStore (τ : Type) where
  store : τ
  appends : CallCounter
  reads : CallCounter
  removals : CallCounter

instance {τ : Type} [RecordStore τ] : RecordStore (InterruptedStore τ) where
  append data s :=
    let counted := { s with appends := s.appends.advance }
    if s.appends.nextFails then (.error .internal, counted)
    else
      let (result, store) := RecordStore.append data s.store
      (result, { counted with store })
  read offset n s :=
    let counted := { s with reads := s.reads.advance }
    if s.reads.nextFails then (.error .recordsUnreadable, counted)
    else
      let (result, store) := RecordStore.read offset n s.store
      (result, { counted with store })
  remove s :=
    let counted := { s with removals := s.removals.advance }
    if s.removals.nextFails then (.error .recordNotStored, counted)
    else
      let (result, store) := RecordStore.remove s.store
      (result, { counted with store })

/-- A store with the number of bytes that each of the next appends takes. -/
structure ScriptedStore where
  bytes : List UInt8
  lengths : List Nat
deriving DecidableEq

namespace ScriptedStore

/-- The empty store with a script. -/
def ofLengths (lengths : List Nat) : ScriptedStore := ⟨[], lengths⟩

instance : RecordStore ScriptedStore where
  append data s :=
    match s.lengths with
    | [] => (.ok data.length, { s with bytes := s.bytes ++ data })
    | n :: lengths => (.ok (min n data.length), ⟨s.bytes ++ data.take n, lengths⟩)
  read offset n s := (.ok ((s.bytes.drop offset).take n), s)
  remove s := (.ok (), { s with bytes := [] })

end ScriptedStore

end MeshSecurity
