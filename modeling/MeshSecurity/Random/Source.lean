import MeshSecurity.Bytes

/-!
# Random sources

A source delivers a requested number of bytes or fails. Words, draws from an interval and keys
are made from such requests, one request each.
-/

namespace MeshSecurity

/-- A source of random bytes with state `ρ`. A request either yields all its bytes or fails. -/
class RandomSource (ρ : Type) where
  fill (n : Nat) (source : ρ) : Option (Bytes n) × ρ

namespace RandomSource

variable {ρ : Type} [RandomSource ρ]

/-- A word, from four bytes with the least significant first. -/
def word (source : ρ) : Option UInt32 × ρ :=
  match fill 4 source with
  | (some bytes, source) => (some (ofLittleEndian bytes.toList).toUInt32, source)
  | (none, source) => (none, source)

/-- The number of `[low, high)` at the relative position `w / 2 ^ 32`. -/
def scale (low high : UInt64) (w : UInt32) : UInt64 :=
  low + (((high.toNat - low.toNat) * w.toNat) >>> 32).toUInt64

/-- Draws a number from `[low, high)`. An empty interval yields `low` without a request. -/
def between (low high : UInt64) (source : ρ) : Option UInt64 × ρ :=
  if high ≤ low then (some low, source)
  else
    match word source with
    | (some w, source) => (some (scale low high w), source)
    | (none, source) => (none, source)

/-! ## The place of a draw, with every step refused that leaves its word

The width of the interval is a difference of 64-bit words, it is multiplied in 128 bits, and what is
left of the product is narrowed to 64 bits and added to the lower end.
-/

namespace Strict

def sub (a b : UInt64) : Option UInt64 := if b ≤ a then some (a - b) else none

def add (a b : UInt64) : Option UInt64 :=
  if a.toNat + b.toNat < 18446744073709551616 then some (a + b) else none

def times (a b : BitVec 128) : Option (BitVec 128) :=
  if a.toNat * b.toNat < 340282366920938463463374607431768211456 then some (a * b) else none

def narrow (a : BitVec 128) : Option UInt64 :=
  if a.toNat < 18446744073709551616 then some (UInt64.ofBitVec (a.setWidth 64)) else none

/-- The number of `[low, high)` at the relative position `w / 2 ^ 32`. -/
def scale (low high : UInt64) (w : UInt32) : Option UInt64 := do
  let span ← sub high low
  let product ← times (span.toBitVec.setWidth 128) (w.toBitVec.setWidth 128)
  let share ← narrow (product >>> 32)
  add low share

end Strict

end RandomSource

end MeshSecurity
