import MeshSecurity.Proofs.FieldArithmetic

/-!
# The evaluation loop stays within its words

The loop multiplies a coefficient or the place, both at most 65535, with an element of the field,
and adds two elements of the field. So no operation of it leaves its word and no product is one of
those that are treated apart, whatever the row and the place: the strict loop refuses nothing and
yields the same value, which is that of the polynomial in the field.
-/

namespace MeshSecurity.Fermat

namespace Strict

theorem add_of_lt {a b : UInt32} (h : a.toNat + b.toNat < wordCount) : add a b = some (a + b) :=
  if_pos h

theorem sub_of_le {a b : UInt32} (h : b ≤ a) : sub a b = some (a - b) :=
  if_pos h

theorem times_of_lt {a b : UInt32} (h : a.toNat * b.toNat < wordCount) :
    times a b = some (a * b) :=
  if_pos h

theorem reduce_eq (x : UInt32) : reduce x = some (Fermat.reduce x) := by
  unfold reduce Fermat.reduce
  by_cases hge : x &&& (0xFFFF : UInt32) ≥ x >>> 16
  · simp only [if_pos hge]
    exact sub_of_le hge
  · simp only [if_neg hge]
    have hfit : (x &&& 0xFFFF).toNat + prime.toNat < wordCount := by
      rw [toNat_low, show prime.toNat = 65537 from rfl, wordCount]
      omega
    rw [add_of_lt hfit, Option.bind_some]
    exact sub_of_le (high_le_low_add_prime x)

theorem mul_eq_of_small {a b : UInt32} (ha : a.toNat < 65537) (hb : b.toNat < 65537)
    (hsmall : a.toNat ≤ 65535 ∨ b.toNat ≤ 65535) : mul a b = some (Fermat.mul a b) := by
  have hbranch : (a ≤ prime - 2 || b ≤ prime - 2) = true := by
    rw [Bool.or_eq_true, decide_eq_true_iff, decide_eq_true_iff, UInt32.le_iff_toNat_le,
      UInt32.le_iff_toNat_le]
    exact hsmall
  have hfit : a.toNat * b.toNat < wordCount := by
    rcases hsmall with h | h
    · exact lt_of_le_of_lt (Nat.mul_le_mul h (Nat.lt_succ_iff.mp hb)) (by decide)
    · exact lt_of_le_of_lt (Nat.mul_le_mul (Nat.lt_succ_iff.mp ha) h) (by decide)
  unfold mul Fermat.mul
  rw [if_pos hbranch, if_pos hbranch, times_of_lt hfit, Option.bind_some, reduce_eq]

theorem addTerms_eq {x : UInt32} (hx : x.toNat ≤ 65535) (cs : List UInt16) {sum power : UInt32}
    (hsum : sum.toNat < 65537) (hpower : power.toNat < 65537) :
    addTerms x cs sum power = some (Fermat.addTerms x cs sum power) := by
  induction cs generalizing sum power with
  | nil => rfl
  | cons c cs ih =>
    have hc : c.toUInt32.toNat ≤ 65535 := by
      have := c.toNat_lt
      rw [UInt16.toNat_toUInt32]
      omega
    have hx' : x.toNat < 65537 := by omega
    have hc' : c.toUInt32.toNat < 65537 := by omega
    have hterm := toNat_mul_lt c.toUInt32 power hc' hpower
    have hfit : sum.toNat + (Fermat.mul c.toUInt32 power).toNat < wordCount := by
      rw [wordCount]
      omega
    have hsum' : (Fermat.reduce (sum + Fermat.mul c.toUInt32 power)).toNat < 65537 := by
      rw [toNat_reduce_add_mul hsum hc' hpower]
      exact Nat.mod_lt _ (by decide)
    have hround := ih hsum' (toNat_mul_lt power x hpower hx')
    rw [addTerms, mul_eq_of_small hc' hpower (Or.inl hc)]
    simp only [Option.bind_eq_bind, Option.bind_some]
    rw [add_of_lt hfit, Option.bind_some, reduce_eq, Option.bind_some,
      mul_eq_of_small hpower hx' (Or.inr hx), Option.bind_some, hround]
    rfl

theorem evaluate_eq (cs : List UInt16) (x : UInt16) :
    evaluate cs x = some (Fermat.evaluate cs x) := by
  cases cs with
  | nil => rfl
  | cons c cs =>
    have hx : x.toUInt32.toNat ≤ 65535 := by
      have := x.toNat_lt
      rw [UInt16.toNat_toUInt32]
      omega
    have hc : c.toUInt32.toNat < 65537 := by
      have := c.toNat_lt
      rw [UInt16.toNat_toUInt32]
      omega
    exact addTerms_eq hx cs hc (by omega)

end Strict

/-- For every row and every place, the loop computes the value of the polynomial in the field, and
none of its sums, differences and products leaves its word. -/
theorem evaluate_exact (cs : List UInt16) (x : UInt16) :
    Strict.evaluate cs x = some (evaluate cs x) ∧
      (evaluate cs x).toNat = (cs.mapIdx fun i c => c.toNat * x.toNat ^ i).sum % 65537 := by
  have hterms : ((cs.map UInt16.toNat).mapIdx fun i c => c * x.toNat ^ i) =
      cs.mapIdx fun i c => c.toNat * x.toNat ^ i := by
    apply List.ext_getElem <;> simp
  refine ⟨Strict.evaluate_eq cs x, ?_⟩
  rw [toNat_evaluate, Nat.ofDigits_eq_sum_mapIdx, hterms]

-- Here both the sum and the power reach 65536 after the first round.
example : evaluate [0, 256, 1] 256 = 65535 := by decide

end MeshSecurity.Fermat
