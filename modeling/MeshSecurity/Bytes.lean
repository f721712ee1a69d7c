/-!
# Byte strings and displayed text

Addresses, keys, nonces, cipher blocks and seeds are byte strings whose length is part of
their type. Payloads of any length are lists of bytes. In displayed text bytes are hexadecimal
numerals.
-/

namespace MeshSecurity

/-- A string of exactly `n` bytes. -/
abbrev Bytes (n : Nat) := Vector UInt8 n

namespace Bytes

/-- Takes a list of bytes of the expected length; any other length is refused. -/
def ofList? (n : Nat) (l : List UInt8) : Option (Bytes n) :=
  if h : l.length = n then some ⟨l.toArray, by simp [h]⟩ else none

/-- The first `n` bytes of `l`, filled up with zeros. -/
def padded (n : Nat) (l : List UInt8) : Bytes n :=
  ⟨(l.take n ++ List.replicate (n - l.length) 0).toArray, by simp; omega⟩

def xor {n : Nat} (a b : Bytes n) : Bytes n := Vector.zipWith (· ^^^ ·) a b

theorem toList_padded (n : Nat) (l : List UInt8) :
    (padded n l).toList = l.take n ++ List.replicate (n - l.length) 0 := by
  simp [padded]

theorem ofList?_toList {n : Nat} (b : Bytes n) : ofList? n b.toList = some b := by
  unfold ofList?
  rw [dif_pos (by simp)]
  exact congrArg some (Vector.toList_inj.mp rfl)

theorem ofList?_eq_some_iff {n : Nat} {l : List UInt8} {b : Bytes n} :
    ofList? n l = some b ↔ b.toList = l := by
  constructor
  · intro h
    unfold ofList? at h
    split at h
    · cases h; rfl
    · cases h
  · intro h
    subst h
    exact ofList?_toList b

theorem ofList?_isSome_iff {n : Nat} {l : List UInt8} : (ofList? n l).isSome ↔ l.length = n := by
  unfold ofList?
  split <;> simp_all

end Bytes

/-- The `k` low bytes of `n`, least significant first. -/
def littleEndian : (k n : Nat) → List UInt8
  | 0, _ => []
  | k + 1, n => n.toUInt8 :: littleEndian k (n / 256)

/-- The `k` low bytes of `n`, most significant first. -/
def bigEndian (k n : Nat) : List UInt8 := (littleEndian k n).reverse

/-- The number whose bytes are `l`, least significant first. -/
def ofLittleEndian : List UInt8 → Nat
  | [] => 0
  | b :: l => b.toNat + 256 * ofLittleEndian l

@[simp] theorem length_littleEndian (k n : Nat) : (littleEndian k n).length = k := by
  induction k generalizing n with
  | zero => rfl
  | succ k ih => rw [littleEndian, List.length_cons, ih]

theorem littleEndian_ofLittleEndian (l : List UInt8) :
    littleEndian l.length (ofLittleEndian l) = l := by
  induction l with
  | nil => rfl
  | cons b l ih =>
    have hb := b.toNat_lt
    have hdiv : (b.toNat + 256 * ofLittleEndian l) / 256 = ofLittleEndian l := by omega
    rw [List.length_cons, ofLittleEndian, littleEndian, hdiv, ih]
    congr 1
    apply UInt8.toNat_inj.mp
    rw [Nat.toUInt8_eq, UInt8.toNat_ofNat']
    omega

/-- Whether two byte strings agree, found by comparing every byte: strings of different lengths
differ. -/
def sameBytes (a b : List UInt8) : Bool :=
  a.length == b.length && (List.zipWith (· ^^^ ·) a b).foldl (· ||| ·) 0 == 0

/-! ## Numerals and alignment -/

/-- Fills `s` up to `width` characters on the left. -/
def padLeft (width : Nat) (fill : Char) (s : String) : String :=
  String.ofList (List.replicate (width - s.length) fill) ++ s

/-- A lower-case hexadecimal numeral of at least `width` digits. -/
def hexNumeral (width n : Nat) : String := padLeft width '0' (String.ofList (Nat.toDigits 16 n))

/-- Two lower-case hexadecimal digits per byte. -/
def hexText (bytes : List UInt8) : String :=
  String.join (bytes.map fun b => hexNumeral 2 b.toNat)

/-- The value of a lower-case hexadecimal digit. -/
def hexDigitValue? (c : Char) : Option UInt8 :=
  if '0' ≤ c ∧ c ≤ '9' then some (c.toNat - 48).toUInt8
  else if 'a' ≤ c ∧ c ≤ 'f' then some (c.toNat - 87).toUInt8
  else none

/-- Reads bytes that are written with two lower-case hexadecimal digits each. -/
def ofHexDigits? : List Char → Option (List UInt8)
  | [] => some []
  | [_] => none
  | a :: b :: cs => do
    let high ← hexDigitValue? a
    let low ← hexDigitValue? b
    let rest ← ofHexDigits? cs
    return (16 * high + low) :: rest

end MeshSecurity
