/-!
# Lists of bounded length

Tables of a mote have a fixed capacity. A `Bounded α capacity` carries the proof that it is kept.
-/

namespace MeshSecurity

/-- A list of at most `capacity` elements. -/
structure Bounded (α : Type) (capacity : Nat) where
  toList : List α
  length_le : toList.length ≤ capacity

namespace Bounded

variable {α : Type} {capacity : Nat}

def empty : Bounded α capacity := ⟨[], Nat.zero_le _⟩

instance : EmptyCollection (Bounded α capacity) := ⟨empty⟩

/-- Takes a list that is short enough. -/
def ofList? (l : List α) : Option (Bounded α capacity) :=
  if h : l.length ≤ capacity then some ⟨l, h⟩ else none

def length (b : Bounded α capacity) : Nat := b.toList.length

def room (b : Bounded α capacity) : Nat := capacity - b.length

def isFull (b : Bounded α capacity) : Bool := b.length == capacity

def push? (b : Bounded α capacity) (a : α) : Option (Bounded α capacity) :=
  ofList? (b.toList ++ [a])

/-- Adds as many of the elements as there is room for, in order. -/
def extend (b : Bounded α capacity) (l : List α) : Bounded α capacity :=
  ⟨b.toList ++ l.take b.room, by
    have := b.length_le
    simp only [List.length_append, List.length_take, room, length]; omega⟩

theorem toList_inj {a b : Bounded α capacity} : a.toList = b.toList ↔ a = b := by
  cases a; cases b; simp

theorem ofList?_eq_some_iff {l : List α} {b : Bounded α capacity} :
    ofList? l = some b ↔ b.toList = l := by
  unfold ofList?
  split
  · constructor
    · intro h; cases h; rfl
    · intro h; subst h; rfl
  · rename_i hlong
    constructor
    · intro h; cases h
    · intro h; subst h; exact absurd b.length_le hlong

theorem push?_eq_some_iff {a : α} {b b' : Bounded α capacity} :
    b.push? a = some b' ↔ b'.toList = b.toList ++ [a] := ofList?_eq_some_iff

theorem push?_eq_none_iff {a : α} {b : Bounded α capacity} :
    b.push? a = none ↔ b.length = capacity := by
  have := b.length_le
  unfold push? ofList?
  split <;> rename_i h <;> simp only [List.length_append, List.length_singleton] at h <;>
    simp [length] <;> omega

end Bounded

end MeshSecurity
