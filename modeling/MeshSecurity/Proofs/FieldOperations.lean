import MeshSecurity.Proofs.StrictEvaluation

/-!
# The operations on all words

Reduction is the remainder for every word, and no sum or difference in it leaves its word. Of the
products of two elements of the field only that of the last one with itself is no word, since
`65536 * 65536 = 2 ^ 32`; it is treated apart. Whatever the factors are, their product is an element
of the field, and they may be exchanged.
-/

namespace MeshSecurity.Fermat

theorem reduce_lt (x : UInt32) : (reduce x).toNat < 65537 := by
  rw [toNat_reduce]
  exact Nat.mod_lt _ (by decide)

protected theorem mul_comm (a b : UInt32) : mul a b = mul b a := by
  unfold mul
  rw [UInt32.mul_comm a b, Bool.or_comm, Bool.and_comm]

theorem mul_lt (a b : UInt32) : (mul a b).toNat < 65537 := by
  unfold mul
  split
  · exact reduce_lt _
  · split <;> decide

section Elements

variable {a b : UInt32}

/-- One of two elements is below the last one, unless both are the last one. -/
theorem small_iff (ha : a.toNat ≤ 65536) (hb : b.toNat ≤ 65536) :
    a.toNat ≤ 65535 ∨ b.toNat ≤ 65535 ↔ ¬ (a = 65536 ∧ b = 65536) := by
  rw [← UInt32.toNat_inj, ← UInt32.toNat_inj, show (65536 : UInt32).toNat = 65536 from rfl]
  omega

theorem toNat_product_iff (ha : a.toNat ≤ 65536) (hb : b.toNat ≤ 65536) :
    (a * b).toNat = a.toNat * b.toNat ↔ ¬ (a = 65536 ∧ b = 65536) := by
  constructor
  · rintro hexact ⟨rfl, rfl⟩
    exact absurd hexact (by decide)
  · intro hother
    have hfits : a.toNat * b.toNat < 2 ^ 32 := by
      rcases (small_iff ha hb).mpr hother with h | h
      · exact lt_of_le_of_lt (Nat.mul_le_mul h hb) (by decide)
      · exact lt_of_le_of_lt (Nat.mul_le_mul ha h) (by decide)
    rw [UInt32.toNat_mul, Nat.mod_eq_of_lt hfits]

theorem Strict.mul_eq (ha : a.toNat ≤ 65536) (hb : b.toNat ≤ 65536) :
    Strict.mul a b = if a = 65536 ∧ b = 65536 then none else some (Fermat.mul a b) := by
  split
  · rename_i hlast
    obtain ⟨rfl, rfl⟩ := hlast
    rfl
  · rename_i hother
    have hsmall := (small_iff ha hb).mpr hother
    exact Strict.mul_eq_of_small (Nat.lt_succ_of_le ha) (Nat.lt_succ_of_le hb) hsmall

end Elements

/-- The reduction of any word is the remainder, computed without leaving the word. On elements of
the field the product is that of the field. The word product is exact but for the last element with
itself, and that pair is the only one that is treated apart. Of any two words the product is an
element of the field and does not depend on their order. -/
theorem field_operations_exact (x a b : UInt32) :
    (reduce x).toNat = x.toNat % 65537 ∧ Strict.reduce x = some (reduce x) ∧
      (a.toNat ≤ 65536 → b.toNat ≤ 65536 →
        (mul a b).toNat = a.toNat * b.toNat % 65537 ∧
        ((a * b).toNat = a.toNat * b.toNat ↔ ¬ (a = 65536 ∧ b = 65536)) ∧
        Strict.mul a b = if a = 65536 ∧ b = 65536 then none else some (mul a b)) ∧
      mul a b = mul b a ∧ (mul a b).toNat < 65537 := by
  refine ⟨toNat_reduce x, Strict.reduce_eq x, ?_, Fermat.mul_comm a b, mul_lt a b⟩
  intro ha hb
  have hproduct := toNat_mul (Nat.lt_succ_of_le ha) (Nat.lt_succ_of_le hb)
  exact ⟨hproduct, toNat_product_iff ha hb, Strict.mul_eq ha hb⟩

/-- The last element with itself, the last but one with the last, and the largest word. -/
theorem field_operations_exact_lastElements :
    (65536 : UInt32).toNat ≤ 65536 ∧ (65535 : UInt32).toNat ≤ 65536 ∧
      (reduce 0xFFFFFFFF).toNat = 0xFFFFFFFF % 65537 ∧
      (mul 65536 65536).toNat = 65536 * 65536 % 65537 ∧ Strict.mul 65536 65536 = none ∧
      (mul 65535 65536).toNat = 65535 * 65536 % 65537 ∧
      Strict.mul 65535 65536 = some (mul 65535 65536) := by
  obtain ⟨hreduce, -, hlast, -⟩ := field_operations_exact 0xFFFFFFFF 65536 65536
  obtain ⟨-, -, hother, -⟩ := field_operations_exact 0xFFFFFFFF 65535 65536
  obtain ⟨hproduct, -, hrefused⟩ := hlast (by decide) (by decide)
  obtain ⟨hproduct', -, hkept⟩ := hother (by decide) (by decide)
  exact ⟨by decide, by decide, hreduce, hproduct, hrefused, hproduct', hkept⟩

end MeshSecurity.Fermat
