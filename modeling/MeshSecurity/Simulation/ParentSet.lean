import MeshSecurity.Network

/-!
# A set of parents

A routing layer that keeps parents in slots, the preferred one in the first slot, and counts what
it is asked to do.
-/

namespace MeshSecurity

/-- The parents in their slots, with the number of selections and advertisements so far. -/
structure ParentSet (width : Nat) where
  slots : List (Option (Address width))
  selections : Nat
  advertisements : Nat
deriving DecidableEq

namespace ParentSet

variable {width : Nat}

/-- Parents in the given order, the preferred one first. -/
def ofParents (parents : List (Address width)) : ParentSet width := ⟨parents.map some, 0, 0⟩

/-- Puts other parents in place of all. The counts stay. -/
def replace (parents : List (Address width)) (p : ParentSet width) : ParentSet width :=
  { p with slots := parents.map some }

/-- Exchanges the first slot with the first one that holds a parent. -/
def preferFirst (slots : List (Option (Address width))) : List (Option (Address width)) :=
  match slots.findIdx? Option.isSome with
  | none => slots
  | some i => (slots.set i (slots.getD 0 none)).set 0 (slots.getD i none)

instance : Routing (ParentSet width) width where
  dropParent peer p :=
    match p.slots.findIdx? (· == some peer) with
    | none => (.notParent, p)
    | some i =>
      (if i = 0 then .preferredRemoved else .removed, { p with slots := p.slots.set i none })
  selectPreferredParent p :=
    { p with slots := preferFirst p.slots, selections := p.selections + 1 }
  advertiseRoute p := { p with advertisements := p.advertisements + 1 }

end ParentSet

end MeshSecurity
