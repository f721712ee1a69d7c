/-!
# Arithmetic modulo the Fermat prime 65537

Elements are 32-bit words. Because `2 ^ 16 = -1` modulo the prime, reduction is a subtraction
of half words. One product of reduced elements does not fit a word, `65536 * 65536 = 1`, and is
treated apart.
-/

namespace MeshSecurity.Fermat

/-- The Fermat prime `2 ^ 16 + 1`. -/
def prime : UInt32 := 65537

/-- The residue of a word: its low half minus its high half, plus the prime if that is negative. -/
def reduce (x : UInt32) : UInt32 :=
  let low := x &&& 0xFFFF
  let high := x >>> 16
  if low ≥ high then low - high else low + prime - high

/-- The product of two elements. Where both factors exceed `65535`, the product is `1` if both
are `65536`, and `2` otherwise. -/
def mul (a b : UInt32) : UInt32 :=
  if a ≤ prime - 2 || b ≤ prime - 2 then reduce (a * b)
  else if a == prime - 1 && b == prime - 1 then 1
  else 2

/-- Adds the terms of further coefficients to `sum`, where `power` belongs to the first of them. -/
def addTerms (x : UInt32) : List UInt16 → UInt32 → UInt32 → UInt32
  | [], sum, _ => sum
  | c :: cs, sum, power => addTerms x cs (reduce (sum + mul c.toUInt32 power)) (mul power x)

/-- The value at `x` of the polynomial with the given coefficients, the constant one first. -/
def evaluate (coefficients : List UInt16) (x : UInt16) : UInt32 :=
  match coefficients with
  | [] => 0
  | c :: cs => addTerms x.toUInt32 cs c.toUInt32 x.toUInt32

/-! ## The same arithmetic, with every step refused that leaves its word

Sums, differences and products are refused where the exact result is not a word. A product whose
factors both exceed `65535` is refused as well: it is one of those that are treated apart.
-/

namespace Strict

/-- The number of values of a word. -/
def wordCount : Nat := 4294967296

def add (a b : UInt32) : Option UInt32 :=
  if a.toNat + b.toNat < wordCount then some (a + b) else none

def sub (a b : UInt32) : Option UInt32 := if b ≤ a then some (a - b) else none

def times (a b : UInt32) : Option UInt32 :=
  if a.toNat * b.toNat < wordCount then some (a * b) else none

def reduce (x : UInt32) : Option UInt32 :=
  let low := x &&& 0xFFFF
  let high := x >>> 16
  if low ≥ high then sub low high else (add low prime).bind fun sum => sub sum high

def mul (a b : UInt32) : Option UInt32 :=
  if a ≤ prime - 2 || b ≤ prime - 2 then (times a b).bind reduce else none

def addTerms (x : UInt32) : List UInt16 → UInt32 → UInt32 → Option UInt32
  | [], sum, _ => some sum
  | c :: cs, sum, power => do
    let term ← mul c.toUInt32 power
    let unreduced ← add sum term
    let sum ← reduce unreduced
    let power ← mul power x
    addTerms x cs sum power

def evaluate (coefficients : List UInt16) (x : UInt16) : Option UInt32 :=
  match coefficients with
  | [] => some 0
  | c :: cs => addTerms x.toUInt32 cs c.toUInt32 x.toUInt32

end Strict

end MeshSecurity.Fermat
