import MeshSecurity.Bytes

/-!
# Link-layer addresses

An address is a byte string of the network's address width. It names a peer in every table and
is compared byte by byte.
-/

namespace MeshSecurity

/-- A link-layer address of `width` bytes. -/
structure Address (width : Nat) where
  bytes : Bytes width
deriving DecidableEq

namespace Address

variable {width : Nat}

/-- Reads an address; only a byte string of the address width is one. -/
def ofBytes? (width : Nat) (l : List UInt8) : Option (Address width) :=
  (Bytes.ofList? width l).map Address.mk

def toList (a : Address width) : List UInt8 := a.bytes.toList

/-- The address that repeats a byte. -/
def repeated (b : UInt8) : Address width := ⟨Vector.replicate width b⟩

/-- The last byte; zero for an address without bytes. -/
def lastByte (a : Address width) : UInt8 := a.toList.getLastD 0

def isNull (a : Address width) : Bool := a.toList.all (· == 0)

/-- Hexadecimal bytes separated by colons. -/
def text (a : Address width) : String :=
  String.intercalate ":" (a.toList.map fun b => hexNumeral 2 b.toNat)

/-- Addresses are ordered lexicographically by their bytes. -/
instance : Ord (Address width) := ⟨fun a b => compare a.bytes b.bytes⟩

@[simp] theorem length_toList (a : Address width) : a.toList.length = width := by
  simp [toList]

@[simp] theorem toList_repeated (b : UInt8) :
    (repeated b : Address width).toList = List.replicate width b := by
  simp [repeated, toList]

theorem toList_inj {a b : Address width} : a.toList = b.toList ↔ a = b := by
  cases a; cases b; simp [toList, Vector.toList_inj]

theorem ofBytes?_toList (a : Address width) : ofBytes? width a.toList = some a := by
  simp [ofBytes?, toList, Bytes.ofList?_toList]

theorem ofBytes?_eq_some_iff {l : List UInt8} {a : Address width} :
    ofBytes? width l = some a ↔ a.toList = l := by
  cases a with
  | mk bytes => simp [ofBytes?, toList, Bytes.ofList?_eq_some_iff]

end Address

end MeshSecurity
