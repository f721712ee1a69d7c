import Mathlib.Algebra.BigOperators.Fin
import Mathlib.Algebra.BigOperators.ModEq
import Mathlib.Algebra.BigOperators.Ring.Finset
import MeshSecurity.Pairwise.Blom
import MeshSecurity.Proofs.FieldArithmetic

/-!
# When two nodes obtain the same secret

In exact arithmetic node `a` evaluates `∑ D i j a ^ j b ^ i` for peer `b`, and the symmetry of the
matrix makes that the value of node `b` for peer `a`. The words of a row hold the coefficients
modulo 65536 only, while values are taken modulo 65537, where 65536 is `-1`: each time a
coefficient runs over its word, one is added to it in the field. What two nodes obtain therefore
differs by their `overrun`s, and secrets agree where these do. Where no coefficient of either node
runs over, both obtain the exact value.
-/

namespace MeshSecurity.Blom

variable {width lambda : Nat}

/-- The coefficient of a row of the matrix before it is cut to a word. -/
def exactCoefficient (own : UInt16) (entries : Vector UInt8 lambda) : Nat :=
  ∑ j : Fin lambda, (entries.get j).toNat * own.toNat ^ (j : Nat)

/-- What both nodes of a pair evaluate in exact arithmetic. -/
def exchange (d : ByteMatrix lambda) (own peer : UInt16) : Nat :=
  ∑ i : Fin lambda, exactCoefficient own (d.get i) * peer.toNat ^ (i : Nat)

/-- The polynomial, at the peer's number, of how often each coefficient runs over its word. -/
def overrun (d : ByteMatrix lambda) (own peer : UInt16) : Nat :=
  ∑ i : Fin lambda, exactCoefficient own (d.get i) / 65536 * peer.toNat ^ (i : Nat)

/-- Whether no coefficient of a node runs over its word. -/
def RowsFit (d : ByteMatrix lambda) (own : UInt16) : Prop :=
  ∀ i : Fin lambda, exactCoefficient own (d.get i) ≤ 65535

instance (d : ByteMatrix lambda) (own : UInt16) : Decidable (RowsFit d own) :=
  inferInstanceAs (Decidable (∀ i : Fin lambda, exactCoefficient own (d.get i) ≤ 65535))

theorem exchange_comm {d : ByteMatrix lambda} (hd : d.IsSymmetric) (a b : UInt16) :
    exchange d a b = exchange d b a := by
  unfold exchange exactCoefficient
  simp only [Finset.sum_mul]
  rw [Finset.sum_comm]
  refine Finset.sum_congr rfl fun i _ => Finset.sum_congr rfl fun j _ => ?_
  have hentry : (d.get j).get i = (d.get i).get j := hd j i
  rw [hentry]
  ring

theorem ofDigits_ofFn (x : Nat) {n : Nat} (f : Fin n → Nat) :
    Nat.ofDigits x (List.ofFn f) = ∑ i : Fin n, f i * x ^ (i : Nat) := by
  induction n with
  | zero => simp
  | succ n ih =>
    rw [List.ofFn_succ, Nat.ofDigits_cons, ih, Fin.sum_univ_succ, Finset.mul_sum]
    simp only [Fin.val_zero, pow_zero, mul_one, Fin.val_succ]
    congr 1
    refine Finset.sum_congr rfl fun i _ => ?_
    ring

theorem ofDigits_toList (x : Nat) {α : Type} {n : Nat} (v : Vector α n) (f : α → Nat) :
    Nat.ofDigits x (v.toList.map f) = ∑ i : Fin n, f (v.get i) * x ^ (i : Nat) := by
  have hlist : v.toList.map f = List.ofFn fun i : Fin n => f (v.get i) := by
    apply List.ext_getElem <;> simp [Vector.get]
  rw [hlist, ofDigits_ofFn]

theorem toNat_addEntries (own : UInt16) (ds : List UInt8) (sum power : UInt16) :
    (addEntries own ds sum power).toNat =
      (sum.toNat + power.toNat * Nat.ofDigits own.toNat (ds.map UInt8.toNat)) % 65536 := by
  induction ds generalizing sum power with
  | nil => simp [addEntries, Nat.mod_eq_of_lt sum.toNat_lt]
  | cons d ds ih =>
    rw [addEntries, ih, List.map_cons, Nat.ofDigits_cons, UInt16.toNat_add, UInt16.toNat_mul,
      UInt16.toNat_mul, UInt8.toNat_toUInt16]
    have hsum : (sum.toNat + d.toNat * power.toNat % 2 ^ 16) % 2 ^ 16 ≡
        sum.toNat + d.toNat * power.toNat [MOD 65536] :=
      (Nat.mod_modEq _ _).trans ((Nat.ModEq.refl _).add (Nat.mod_modEq _ _))
    have hterms : power.toNat * own.toNat % 2 ^ 16 * Nat.ofDigits own.toNat (ds.map UInt8.toNat) ≡
        power.toNat * own.toNat * Nat.ofDigits own.toNat (ds.map UInt8.toNat) [MOD 65536] :=
      (Nat.mod_modEq _ _).mul_right _
    have hring : sum.toNat + d.toNat * power.toNat +
        power.toNat * own.toNat * Nat.ofDigits own.toNat (ds.map UInt8.toNat) =
        sum.toNat + power.toNat *
          (d.toNat + own.toNat * Nat.ofDigits own.toNat (ds.map UInt8.toNat)) := by ring
    rw [← hring]
    exact hsum.add hterms

theorem toNat_coefficient (own : UInt16) (entries : Vector UInt8 lambda) :
    (coefficient own entries).toNat = exactCoefficient own entries % 65536 := by
  rw [coefficient, toNat_addEntries, ofDigits_toList, exactCoefficient]
  simp

/-- Modulo the prime, a coefficient is the exact one plus the number of times it ran over. -/
theorem coefficient_modEq (own : UInt16) (entries : Vector UInt8 lambda) :
    (coefficient own entries).toNat ≡
      exactCoefficient own entries + exactCoefficient own entries / 65536 [MOD 65537] := by
  have hsplit : exactCoefficient own entries + exactCoefficient own entries / 65536 =
      (coefficient own entries).toNat + 65537 * (exactCoefficient own entries / 65536) := by
    rw [toNat_coefficient]
    omega
  rw [hsplit]
  exact (Nat.add_modulus_mul_modEq_iff.mpr rfl).symm

theorem toNat_evaluate_ofRow (d : ByteMatrix lambda) (own peer : UInt16)
    (numbering : PeerNumbering width) :
    ((ofRow (d.map (coefficient own)) numbering).evaluate peer).toNat =
      (exchange d own peer + overrun d own peer) % 65537 := by
  have hget (i : Fin lambda) : (d.map (coefficient own)).get i = coefficient own (d.get i) :=
    Vector.getElem_map (coefficient own) i.isLt
  have hvalue : ((ofRow (d.map (coefficient own)) numbering).evaluate peer).toNat =
      (∑ i : Fin lambda, (coefficient own (d.get i)).toNat * peer.toNat ^ (i : Nat)) % 65537 := by
    rw [evaluate, Fermat.toNat_evaluate, ofDigits_toList]
    simp only [ofRow, hget]
  rw [hvalue, exchange, overrun, ← Finset.sum_add_distrib]
  apply Nat.ModEq.sum
  intro i _
  rw [← Nat.add_mul]
  exact (coefficient_modEq own (d.get i)).mul_right _

theorem overrun_eq_zero_of_rowsFit {d : ByteMatrix lambda} {own : UInt16} (hfit : RowsFit d own)
    (peer : UInt16) : overrun d own peer = 0 := by
  apply Finset.sum_eq_zero
  intro i _
  rw [Nat.div_eq_of_lt (Nat.lt_succ_of_le (hfit i)), Nat.zero_mul]

/-- Coefficients that fit their words are exact, and so is the value. -/
theorem toNat_evaluate_of_rowsFit {d : ByteMatrix lambda} {own : UInt16} (hfit : RowsFit d own)
    (peer : UInt16) (numbering : PeerNumbering width) :
    ((ofRow (d.map (coefficient own)) numbering).evaluate peer).toNat =
      exchange d own peer % 65537 := by
  rw [toNat_evaluate_ofRow, overrun_eq_zero_of_rowsFit hfit, Nat.add_zero]

theorem secretOfValue_inj {v w : UInt32} :
    secretOfValue v = secretOfValue w ↔ v.toNat % 65536 = w.toNat % 65536 := by
  have hlow (x : UInt32) : x.toUInt8.toNat = x.toNat % 256 := UInt32.toNat_toUInt8 x
  have hhigh (x : UInt32) : (x >>> 8).toUInt8.toNat = x.toNat / 256 % 256 := by
    rw [UInt32.toNat_toUInt8, UInt32.toNat_shiftRight]
    exact congrArg (· % 256) (Nat.shiftRight_eq_div_pow x.toNat 8)
  constructor
  · intro h
    have h0 : v.toUInt8 = w.toUInt8 := congrArg (fun s : Bytes 2 => s[0]) h
    have h1 : (v >>> 8).toUInt8 = (w >>> 8).toUInt8 := congrArg (fun s : Bytes 2 => s[1]) h
    have hlow' := congrArg UInt8.toNat h0
    have hhigh' := congrArg UInt8.toNat h1
    rw [hlow, hlow] at hlow'
    rw [hhigh, hhigh] at hhigh'
    omega
  · intro h
    have h0 : v.toUInt8 = w.toUInt8 := UInt8.toNat_inj.mp (by rw [hlow, hlow]; omega)
    have h1 : (v >>> 8).toUInt8 = (w >>> 8).toUInt8 :=
      UInt8.toNat_inj.mp (by rw [hhigh, hhigh]; omega)
    rw [secretOfValue, secretOfValue, h0, h1]

theorem secretFor_ofRow (row : Vector UInt16 lambda) (numbering : PeerNumbering width)
    {peer : UInt16} (hpeer : peer.toNat < lambda) :
    ((ofRow row numbering).secretFor peer).1 =
      .ok (secretOfValue ((ofRow row numbering).evaluate peer)) := by
  have hempty : (ofRow row numbering).cache.get ⟨peer.toNat, hpeer⟩ = none := by
    simp [ofRow, Vector.get]
  rw [secretFor, dif_pos hpeer, hempty]

theorem ofMatrix_of_symmetric {d : ByteMatrix lambda} (hd : d.IsSymmetric) (own : UInt16)
    (numbering : PeerNumbering width) :
    ofMatrix d own numbering = .ok (ofRow (d.map (coefficient own)) numbering) :=
  if_pos hd

/-- Two residues modulo the prime have the same low half if they are equal, or zero and `-1`. -/
theorem low_half_eq_iff (e m n : Nat) :
    (e + m) % 65537 % 65536 = (e + n) % 65537 % 65536 ↔
      m ≡ n [MOD 65537] ∨
      (e + m ≡ 0 [MOD 65537] ∧ e + n + 1 ≡ 0 [MOD 65537]) ∨
      (e + n ≡ 0 [MOD 65537] ∧ e + m + 1 ≡ 0 [MOD 65537]) := by
  unfold Nat.ModEq
  omega

/-- Nodes of a symmetric matrix always obtain secrets of each other, and these agree exactly when
the overruns of their rows agree in the field, or when one value is zero and the other is `-1`, of
which only the low half is seen. -/
theorem secrets_agree_iff {d : ByteMatrix lambda} (hd : d.IsSymmetric)
    (first second : PeerNumbering width) {a b : UInt16} (ha : a.toNat < lambda)
    (hb : b.toNat < lambda) :
    ∃ nodeA nodeB : Blom width lambda, ∃ secretA secretB : Bytes 2,
      ofMatrix d a first = .ok nodeA ∧ ofMatrix d b second = .ok nodeB ∧
      (nodeA.secretFor b).1 = .ok secretA ∧ (nodeB.secretFor a).1 = .ok secretB ∧
      (secretA = secretB ↔
        overrun d a b ≡ overrun d b a [MOD 65537] ∨
        (exchange d a b + overrun d a b ≡ 0 [MOD 65537] ∧
          exchange d a b + overrun d b a + 1 ≡ 0 [MOD 65537]) ∨
        (exchange d a b + overrun d b a ≡ 0 [MOD 65537] ∧
          exchange d a b + overrun d a b + 1 ≡ 0 [MOD 65537])) := by
  refine ⟨_, _, _, _, ofMatrix_of_symmetric hd a first, ofMatrix_of_symmetric hd b second,
    secretFor_ofRow _ first hb, secretFor_ofRow _ second ha, ?_⟩
  rw [secretOfValue_inj, toNat_evaluate_ofRow, toNat_evaluate_ofRow, exchange_comm hd b a]
  exact low_half_eq_iff _ _ _

def fullMatrix : ByteMatrix 5 := Vector.replicate 5 (Vector.replicate 5 255)

theorem secrets_agree_iff_fullMatrix :
    fullMatrix.IsSymmetric ∧ (4 : UInt16).toNat < 5 ∧ (1 : UInt16).toNat < 5 ∧
    ∃ nodeA nodeB : Blom 8 5, ∃ secretA secretB : Bytes 2,
      ofMatrix fullMatrix 4 .demonstration = .ok nodeA ∧
      ofMatrix fullMatrix 1 .byLastByte = .ok nodeB ∧
      (nodeA.secretFor 1).1 = .ok secretA ∧ (nodeB.secretFor 4).1 = .ok secretB ∧
      (secretA = secretB ↔
        overrun fullMatrix 4 1 ≡ overrun fullMatrix 1 4 [MOD 65537] ∨
        (exchange fullMatrix 4 1 + overrun fullMatrix 4 1 ≡ 0 [MOD 65537] ∧
          exchange fullMatrix 4 1 + overrun fullMatrix 1 4 + 1 ≡ 0 [MOD 65537]) ∨
        (exchange fullMatrix 4 1 + overrun fullMatrix 1 4 ≡ 0 [MOD 65537] ∧
          exchange fullMatrix 4 1 + overrun fullMatrix 4 1 + 1 ≡ 0 [MOD 65537])) :=
  ⟨by decide, by decide, by decide,
    secrets_agree_iff (by decide) .demonstration .byLastByte (by decide) (by decide)⟩

/-- With these entries node 4 and node 0 obtain different secrets: `0x53AB` and `0x53AA`. -/
theorem secrets_differ_fullMatrix :
    fullMatrix.IsSymmetric ∧
    ∃ nodeA nodeB : Blom 8 5,
      ofMatrix fullMatrix 4 .demonstration = .ok nodeA ∧
      ofMatrix fullMatrix 0 .demonstration = .ok nodeB ∧
      (nodeA.secretFor 0).1 = .ok #v[0xAB, 0x53] ∧ (nodeB.secretFor 4).1 = .ok #v[0xAA, 0x53] := by
  have hsymmetric : fullMatrix.IsSymmetric := by decide
  refine ⟨hsymmetric, _, _, ofMatrix_of_symmetric hsymmetric 4 _,
    ofMatrix_of_symmetric hsymmetric 0 _, ?_, ?_⟩
  · have hvalue : (ofRow (fullMatrix.map (coefficient 4))
        (.demonstration : PeerNumbering 8)).evaluate 0 = 21419 :=
      UInt32.toNat_inj.mp (by rw [toNat_evaluate_ofRow]; decide)
    rw [secretFor_ofRow _ _ (by decide), hvalue]
    rfl
  · have hvalue : (ofRow (fullMatrix.map (coefficient 0))
        (.demonstration : PeerNumbering 8)).evaluate 4 = 21418 :=
      UInt32.toNat_inj.mp (by rw [toNat_evaluate_ofRow]; decide)
    rw [secretFor_ofRow _ _ (by decide), hvalue]
    rfl

/-- Two nodes none of whose coefficients run over obtain the same value of each other, the one of
exact arithmetic, whatever their numbers are and though the powers of these may wrap on the way. -/
theorem values_agree_of_rowsFit {d : ByteMatrix lambda} (hd : d.IsSymmetric)
    (first second : PeerNumbering width) {a b : UInt16} (ha : RowsFit d a) (hb : RowsFit d b) :
    ∃ nodeA nodeB : Blom width lambda,
      ofMatrix d a first = .ok nodeA ∧ ofMatrix d b second = .ok nodeB ∧
      nodeA.evaluate b = nodeB.evaluate a ∧
      (nodeA.evaluate b).toNat =
        (∑ i : Fin lambda, ∑ j : Fin lambda,
          ((d.get i).get j).toNat * a.toNat ^ (j : Nat) * b.toNat ^ (i : Nat)) % 65537 := by
  refine ⟨_, _, ofMatrix_of_symmetric hd a first, ofMatrix_of_symmetric hd b second, ?_, ?_⟩
  · apply UInt32.toNat_inj.mp
    rw [toNat_evaluate_of_rowsFit ha, toNat_evaluate_of_rowsFit hb, exchange_comm hd]
  · have hexchange : exchange d a b = ∑ i : Fin lambda, ∑ j : Fin lambda,
        ((d.get i).get j).toNat * a.toNat ^ (j : Nat) * b.toNat ^ (i : Nat) := by
      simp only [exchange, exactCoefficient, Finset.sum_mul]
    rw [toNat_evaluate_of_rowsFit ha, hexchange]

/-- A matrix in which the squares of the nodes' numbers do not matter. -/
def cornerMatrix : ByteMatrix 3 := #v[#v[7, 200, 0], #v[200, 210, 0], #v[0, 0, 0]]

/-- The squares of 256 and 300 wrap, but no coefficient of these nodes does. -/
theorem values_agree_of_rowsFit_cornerMatrix :
    cornerMatrix.IsSymmetric ∧ RowsFit cornerMatrix 256 ∧ RowsFit cornerMatrix 300 ∧
    ∃ nodeA nodeB : Blom 8 3,
      ofMatrix cornerMatrix 256 .demonstration = .ok nodeA ∧
      ofMatrix cornerMatrix 300 .byLastByte = .ok nodeB ∧
      nodeA.evaluate 300 = nodeB.evaluate 256 ∧
      (nodeA.evaluate 300).toNat =
        (∑ i : Fin 3, ∑ j : Fin 3, ((cornerMatrix.get i).get j).toNat *
          (256 : UInt16).toNat ^ (j : Nat) * (300 : UInt16).toNat ^ (i : Nat)) % 65537 :=
  ⟨by decide, by decide, by decide,
    values_agree_of_rowsFit (by decide) .demonstration .byLastByte (by decide) (by decide)⟩

end MeshSecurity.Blom
