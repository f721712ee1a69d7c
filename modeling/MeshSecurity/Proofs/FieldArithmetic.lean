import Mathlib.Data.Nat.Digits.Lemmas
import Mathlib.Tactic.Ring
import MeshSecurity.Fermat

/-!
# The word operations are those of the field

Each operation on 32-bit words is stated through the number it stands for: reduction is the
remainder modulo 65537, the product is the product of the remainders, and the evaluation loop
yields the value of the polynomial. No sum or product in the loop leaves its word, since a partial
sum and a power are at most 65536 and a coefficient is at most 65535.
-/

namespace MeshSecurity.Fermat

theorem toNat_low (x : UInt32) : (x &&& 0xFFFF).toNat = x.toNat % 65536 := by
  rw [UInt32.toNat_and]
  exact Nat.and_two_pow_sub_one_eq_mod x.toNat 16

theorem toNat_high (x : UInt32) : (x >>> 16).toNat = x.toNat / 65536 := by
  rw [UInt32.toNat_shiftRight]
  exact Nat.shiftRight_eq_div_pow x.toNat 16

theorem toNat_low_add_prime (x : UInt32) :
    ((x &&& 0xFFFF) + prime).toNat = x.toNat % 65536 + 65537 := by
  rw [UInt32.toNat_add, toNat_low, show prime.toNat = 65537 from rfl]
  omega

theorem high_le_low_add_prime (x : UInt32) : x >>> 16 ≤ (x &&& 0xFFFF) + prime := by
  have hx := x.toNat_lt
  rw [UInt32.le_iff_toNat_le, toNat_low_add_prime, toNat_high]
  omega

theorem toNat_reduce (x : UInt32) : (reduce x).toNat = x.toNat % 65537 := by
  have hx := x.toNat_lt
  have hlow := toNat_low x
  have hhigh := toNat_high x
  simp only [reduce]
  split
  · rename_i hge
    rw [UInt32.toNat_sub_of_le _ _ hge, hlow, hhigh]
    rw [ge_iff_le, UInt32.le_iff_toNat_le, hlow, hhigh] at hge
    omega
  · rename_i hlt
    rw [ge_iff_le, UInt32.le_iff_toNat_le, hlow, hhigh] at hlt
    rw [UInt32.toNat_sub_of_le _ _ (high_le_low_add_prime x), toNat_low_add_prime, hhigh]
    omega

/-- On elements of the field the product is the product of the field. -/
theorem toNat_mul {a b : UInt32} (ha : a.toNat < 65537) (hb : b.toNat < 65537) :
    (mul a b).toNat = a.toNat * b.toNat % 65537 := by
  have hprime : (prime - 2).toNat = 65535 := rfl
  have hlast : (prime - 1).toNat = 65536 := rfl
  unfold mul
  by_cases hsmall : (a ≤ prime - 2 || b ≤ prime - 2) = true
  · rw [if_pos hsmall, toNat_reduce, UInt32.toNat_mul]
    rw [Bool.or_eq_true, decide_eq_true_iff, decide_eq_true_iff, UInt32.le_iff_toNat_le,
      UInt32.le_iff_toNat_le, hprime] at hsmall
    have hfit : a.toNat * b.toNat < 2 ^ 32 := by
      rcases hsmall with h | h
      · exact lt_of_le_of_lt (Nat.mul_le_mul h (Nat.lt_succ_iff.mp hb)) (by norm_num)
      · exact lt_of_le_of_lt (Nat.mul_le_mul (Nat.lt_succ_iff.mp ha) h) (by norm_num)
    rw [Nat.mod_eq_of_lt hfit]
  · rw [if_neg hsmall]
    rw [Bool.or_eq_true, decide_eq_true_iff, decide_eq_true_iff, UInt32.le_iff_toNat_le,
      UInt32.le_iff_toNat_le, hprime] at hsmall
    have ha' : a = prime - 1 := UInt32.toNat_inj.mp (by omega)
    have hb' : b = prime - 1 := UInt32.toNat_inj.mp (by omega)
    subst ha' hb'
    rfl

theorem toNat_mul_lt (a b : UInt32) (ha : a.toNat < 65537) (hb : b.toNat < 65537) :
    (mul a b).toNat < 65537 := by
  rw [toNat_mul ha hb]
  exact Nat.mod_lt _ (by norm_num)

/-- One round of the loop: the term is added in the field. -/
theorem toNat_reduce_add_mul {sum c power : UInt32} (hsum : sum.toNat < 65537)
    (hc : c.toNat < 65537) (hpower : power.toNat < 65537) :
    (reduce (sum + mul c power)).toNat = (sum.toNat + c.toNat * power.toNat) % 65537 := by
  have hmul := toNat_mul_lt c power hc hpower
  have hfit : sum.toNat + (mul c power).toNat < 2 ^ 32 := by omega
  rw [toNat_reduce, UInt32.toNat_add, Nat.mod_eq_of_lt hfit, toNat_mul hc hpower, Nat.add_mod_mod]

theorem toNat_addTerms {x : UInt32} (hx : x.toNat < 65537) (cs : List UInt16)
    {sum power : UInt32} (hsum : sum.toNat < 65537) (hpower : power.toNat < 65537) :
    (addTerms x cs sum power).toNat =
      (sum.toNat + power.toNat * Nat.ofDigits x.toNat (cs.map UInt16.toNat)) % 65537 := by
  induction cs generalizing sum power with
  | nil => simpa [addTerms] using (Nat.mod_eq_of_lt hsum).symm
  | cons c cs ih =>
    have hc : c.toUInt32.toNat < 65537 := by
      have := c.toNat_lt
      rw [UInt16.toNat_toUInt32]
      omega
    have hround := toNat_reduce_add_mul hsum hc hpower
    have hsum' : (reduce (sum + mul c.toUInt32 power)).toNat < 65537 := by
      rw [hround]
      exact Nat.mod_lt _ (by norm_num)
    rw [addTerms, ih hsum' (toNat_mul_lt power x hpower hx), hround, toNat_mul hpower hx,
      List.map_cons, Nat.ofDigits_cons, UInt16.toNat_toUInt32]
    -- both sides are the same sum up to multiples of the prime
    have hterm : power.toNat * x.toNat % 65537 * Nat.ofDigits x.toNat (cs.map UInt16.toNat) ≡
        power.toNat * x.toNat * Nat.ofDigits x.toNat (cs.map UInt16.toNat) [MOD 65537] :=
      (Nat.mod_modEq _ _).mul_right _
    have hring : sum.toNat + c.toNat * power.toNat +
        power.toNat * x.toNat * Nat.ofDigits x.toNat (cs.map UInt16.toNat) =
        sum.toNat + power.toNat *
          (c.toNat + x.toNat * Nat.ofDigits x.toNat (cs.map UInt16.toNat)) := by ring
    rw [← hring]
    exact (Nat.mod_modEq _ _).add hterm

/-- The loop computes the value of the row polynomial in the field, for every row. -/
theorem toNat_evaluate (cs : List UInt16) (x : UInt16) :
    (evaluate cs x).toNat = Nat.ofDigits x.toNat (cs.map UInt16.toNat) % 65537 := by
  cases cs with
  | nil => rfl
  | cons c cs =>
    have hx := x.toNat_lt
    have hc := c.toNat_lt
    have hx' : x.toUInt32.toNat < 65537 := by rw [UInt16.toNat_toUInt32]; omega
    have hc' : c.toUInt32.toNat < 65537 := by rw [UInt16.toNat_toUInt32]; omega
    rw [evaluate, toNat_addTerms hx' cs hc' hx', UInt16.toNat_toUInt32, UInt16.toNat_toUInt32,
      List.map_cons, Nat.ofDigits_cons]

end MeshSecurity.Fermat
