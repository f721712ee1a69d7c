import MeshSecurity.Address
import MeshSecurity.Error
import MeshSecurity.Time

/-!
# The neighbor table

A fixed number of slots. An entry has a tentative part while key establishment runs and a
permanent part once a pairwise key is in place; both while a permanent neighbor establishes a new
key. No operation moves an entry to another slot.
-/

namespace MeshSecurity

/-- The state of a neighbor whose key establishment is in progress. -/
structure Tentative where
  /-- When its HELLO was accepted. -/
  since : Instant
deriving DecidableEq

/-- The state of a neighbor with an established key. -/
structure Permanent where
  /-- Whether it sent a fresh authentic HELLO that was counted. -/
  heard : Bool
deriving DecidableEq

/-- The state in which a neighbor becomes permanent. -/
def Permanent.fresh : Permanent := ⟨false⟩

structure Neighbor (width : Nat) where
  address : Address width
  tentative : Option Tentative
  permanent : Option Permanent
deriving DecidableEq

namespace Neighbor

variable {width : Nat}

/-- The relation to act on; the permanent part takes precedence. -/
def relation (n : Neighbor width) : Option Relation :=
  if n.permanent.isSome then some .permanent
  else if n.tentative.isSome then some .tentative
  else none

/-- Whether the entry has the part for a relation. -/
def has (n : Neighbor width) : Relation → Bool
  | .tentative => n.tentative.isSome
  | .permanent => n.permanent.isSome

/-- The entry without the part for a relation. -/
def without (n : Neighbor width) : Relation → Neighbor width
  | .tentative => { n with tentative := none }
  | .permanent => { n with permanent := none }

end Neighbor

/-- Changes the first element that satisfies `p`. -/
def adjustFirst {α : Type} (p : α → Bool) (f : α → α) : List α → List α
  | [] => []
  | a :: l => if p a then f a :: l else a :: adjustFirst p f l

@[simp] theorem length_adjustFirst {α : Type} (p : α → Bool) (f : α → α) (l : List α) :
    (adjustFirst p f l).length = l.length := by
  induction l with
  | nil => rfl
  | cons a l ih => unfold adjustFirst; split <;> simp [ih]

/-- Visits the permanent parts of a list of slots in order, with a state that is passed along. -/
def visitSlots {width : Nat} {σ : Type} (f : Address width → Permanent → σ → Permanent × σ) :
    List (Option (Neighbor width)) → σ → List (Option (Neighbor width)) × σ
  | [], s => ([], s)
  | none :: l, s =>
    let (l, s) := visitSlots f l s
    (none :: l, s)
  | some n :: l, s =>
    match n.permanent with
    | none =>
      let (l, s) := visitSlots f l s
      (some n :: l, s)
    | some p =>
      let (p, s) := f n.address p s
      let (l, s) := visitSlots f l s
      (some { n with permanent := some p } :: l, s)

@[simp] theorem length_visitSlots {width : Nat} {σ : Type}
    (f : Address width → Permanent → σ → Permanent × σ) (l : List (Option (Neighbor width)))
    (s : σ) : (visitSlots f l s).1.length = l.length := by
  induction l generalizing s with
  | nil => rfl
  | cons slot l ih =>
    cases slot with
    | none => simp [visitSlots, ih]
    | some n => cases hn : n.permanent <;> simp [visitSlots, hn, ih]

/-- A table with `size` slots. -/
structure NeighborTable (width size : Nat) where
  slots : List (Option (Neighbor width))
  length_slots : slots.length = size

namespace NeighborTable

variable {width size : Nat}

def defaultSize : Nat := 14

def empty : NeighborTable width size := ⟨List.replicate size none, List.length_replicate⟩

def adjustSlot (p : Option (Neighbor width) → Bool)
    (f : Option (Neighbor width) → Option (Neighbor width)) (t : NeighborTable width size) :
    NeighborTable width size :=
  ⟨adjustFirst p f t.slots, by rw [length_adjustFirst, t.length_slots]⟩

/-- Whether a slot holds the entry of a peer. -/
def holds (peer : Address width) (slot : Option (Neighbor width)) : Bool :=
  slot.any fun n => n.address == peer

/-- Changes the entry of a peer, if there is one. Its slot becomes empty where `f` yields none. -/
def adjust (peer : Address width) (f : Neighbor width → Option (Neighbor width))
    (t : NeighborTable width size) : NeighborTable width size :=
  t.adjustSlot (holds peer) (·.bind f)

def entries (t : NeighborTable width size) : List (Neighbor width) := t.slots.filterMap id

def lookup (peer : Address width) (t : NeighborTable width size) : Option (Neighbor width) :=
  t.entries.find? fun n => n.address == peer

def length (t : NeighborTable width size) : Nat := t.entries.length

/-- The number of entries that have the part for a relation. -/
def count (r : Relation) (t : NeighborTable width size) : Nat := t.entries.countP (·.has r)

def isFull (t : NeighborTable width size) : Bool := t.slots.all Option.isSome

/-- Puts an entry in place of the one with its address, or else into the first empty slot. -/
def insert (entry : Neighbor width) (t : NeighborTable width size) :
    Except Error Unit × NeighborTable width size :=
  if (t.lookup entry.address).isSome then (.ok (), t.adjust entry.address fun _ => some entry)
  else if t.isFull then (.error .capacityExceeded, t)
  else (.ok (), t.adjustSlot Option.isNone fun _ => some entry)

def insertAll : List (Neighbor width) → NeighborTable width size →
    Except Error Unit × NeighborTable width size
  | [], t => (.ok (), t)
  | entry :: rest, t =>
    match t.insert entry with
    | (.ok (), t) => insertAll rest t
    | (.error e, t) => (.error e, t)

/-- Notes that key establishment with a peer begins. -/
def addTentative (peer : Address width) (now : Instant) (t : NeighborTable width size) :
    Except Error Unit × NeighborTable width size :=
  if (t.lookup peer).isSome then
    (.ok (), t.adjust peer fun n => some { n with tentative := some ⟨now⟩ })
  else t.insert ⟨peer, some ⟨now⟩, none⟩

/-- Turns the tentative part of a peer into a fresh permanent one. -/
def promote (peer : Address width) (t : NeighborTable width size) :
    Except Error Unit × NeighborTable width size :=
  if (t.lookup peer).any (·.has .tentative) then
    (.ok (), t.adjust peer fun n => some { n with tentative := none, permanent := some .fresh })
  else (.error .peerNotFound, t)

/-- Deletes the part of a peer for a relation, and the entry once it has no part left. Reports
whether there was such a part. -/
def remove (peer : Address width) (r : Relation) (t : NeighborTable width size) :
    Bool × NeighborTable width size :=
  ((t.lookup peer).any (·.has r),
    t.adjust peer fun n =>
      let rest := n.without r
      if rest.relation.isSome then some rest else none)

/-- Visits every permanent neighbor in slot order with a state that is passed along, and replaces
its permanent part. -/
def visitPermanent {σ : Type} (f : Address width → Permanent → σ → Permanent × σ)
    (t : NeighborTable width size) (s : σ) : NeighborTable width size × σ :=
  (⟨(visitSlots f t.slots s).1, by rw [length_visitSlots, t.length_slots]⟩,
    (visitSlots f t.slots s).2)

/-- The permanent neighbors in slot order. -/
def permanentPeers (t : NeighborTable width size) : List (Address width) :=
  (t.entries.filter (·.has .permanent)).map (·.address)

/-- Forgets of all neighbors whether they were heard. -/
def clearHeard (t : NeighborTable width size) : NeighborTable width size :=
  (t.visitPermanent (fun _ _ s => (⟨false⟩, s)) ()).1

end NeighborTable

end MeshSecurity
