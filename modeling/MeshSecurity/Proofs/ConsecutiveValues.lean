import Mathlib.Algebra.BigOperators.ModEq
import Mathlib.Algebra.Group.ForwardDiff
import Mathlib.Tactic.LinearCombination

/-!
# Integer polynomials at consecutive places

The `k`-th difference of an integer polynomial is a multiple of `k!`. A polynomial whose values at
`r` consecutive places vanish modulo a divisor of `r!` therefore vanishes everywhere modulo that
divisor, whatever its degree: by Newton's formula its values are sums of its differences, and those
of order `r` and above vanish anyway.
-/

namespace MeshSecurity

theorem fwdDiff_iter_id_mul (f : ℤ → ℤ) (k : ℕ) (y : ℤ) :
    (fwdDiff 1)^[k + 1] (fun x => x * f x) y =
      y * (fwdDiff 1)^[k + 1] f y + (k + 1) * (fwdDiff 1)^[k] f (y + 1) := by
  induction k generalizing y with
  | zero =>
    simp only [Function.iterate_succ_apply, Function.iterate_zero_apply, fwdDiff]
    push_cast
    ring
  | succ k ih =>
    have hdiff (g : ℤ → ℤ) (z : ℤ) : (fwdDiff 1)^[k + 1 + 1] g z =
        (fwdDiff 1)^[k + 1] g (z + 1) - (fwdDiff 1)^[k + 1] g z := by
      rw [Function.iterate_succ_apply', fwdDiff]
    have hdiff' : (fwdDiff 1)^[k + 1] f (y + 1) =
        (fwdDiff 1)^[k] f (y + 1 + 1) - (fwdDiff 1)^[k] f (y + 1) := by
      rw [Function.iterate_succ_apply', fwdDiff]
    rw [hdiff, ih, ih, hdiff]
    push_cast
    linear_combination (k + 1) * (-hdiff')

theorem factorial_dvd_fwdDiff_iter_pow (k j : ℕ) (y : ℤ) :
    (k.factorial : ℤ) ∣ (fwdDiff 1)^[k] (fun x : ℤ => x ^ j) y := by
  induction j generalizing k y with
  | zero =>
    cases k with
    | zero => simp
    | succ k =>
      rw [fwdDiff_iter_pow_eq_zero_of_lt k.succ_pos]
      exact dvd_zero _
  | succ j ih =>
    cases k with
    | zero => simp
    | succ k =>
      simp only [pow_succ']
      rw [fwdDiff_iter_id_mul]
      apply dvd_add
      · exact (ih (k + 1) y).mul_left y
      · rw [Nat.factorial_succ, Nat.cast_mul, Nat.cast_succ]
        exact mul_dvd_mul_left _ (ih k (y + 1))

/-- The value of the polynomial with the given coefficients. -/
def valueAt {n : ℕ} (e : Fin n → ℤ) (x : ℤ) : ℤ := ∑ j : Fin n, e j * x ^ (j : ℕ)

variable {n : ℕ} {e : Fin n → ℤ}

theorem factorial_dvd_fwdDiff_iter_valueAt (k : ℕ) (y : ℤ) :
    (k.factorial : ℤ) ∣ (fwdDiff 1)^[k] (valueAt e) y := by
  have hsum : valueAt e = ∑ j : Fin n, e j • fun x : ℤ => x ^ (j : ℕ) := by
    ext x
    simp [valueAt]
  rw [hsum, fwdDiff_iter_finsetSum, Finset.sum_apply]
  apply Finset.dvd_sum
  intro j _
  rw [fwdDiff_iter_const_smul]
  exact (factorial_dvd_fwdDiff_iter_pow k j y).mul_left (e j)

theorem valueAt_modEq {m x y : ℤ} (h : x ≡ y [ZMOD m]) : valueAt e x ≡ valueAt e y [ZMOD m] := by
  apply Int.ModEq.sum
  intro j _
  exact (h.pow _).mul_left _

theorem dvd_valueAt_add {m s : ℤ} {r : ℕ} (hr : m ∣ r.factorial)
    (hzero : ∀ k < r, m ∣ valueAt e (s + k)) (t : ℕ) : m ∣ valueAt e (s + t) := by
  have hnewton := shift_eq_sum_fwdDiff_iter 1 (valueAt e) t s
  rw [nsmul_one] at hnewton
  rw [hnewton]
  apply Finset.dvd_sum
  intro k _
  rw [nsmul_eq_mul]
  apply Dvd.dvd.mul_left
  by_cases hk : k < r
  · rw [fwdDiff_iter_eq_sum_shift]
    apply Finset.dvd_sum
    intro i hi
    rw [nsmul_one]
    have hi' : i < r := lt_of_lt_of_le (Finset.mem_range.mp hi) hk
    exact (hzero i hi').mul_left _
  · have hfactorial : (r.factorial : ℤ) ∣ k.factorial :=
      Int.natCast_dvd_natCast.mpr (Nat.factorial_dvd_factorial (Nat.not_lt.mp hk))
    exact hr.trans (hfactorial.trans (factorial_dvd_fwdDiff_iter_valueAt k s))

/-- Values that vanish at `r` consecutive places vanish at all others, modulo a divisor of `r!`. -/
theorem dvd_valueAt_of_consecutive {m s : ℤ} {r : ℕ} (hm : 0 < m) (hr : m ∣ r.factorial)
    (hzero : ∀ k < r, m ∣ valueAt e (s + k)) (x : ℤ) : m ∣ valueAt e x := by
  have hplace : s + ((x - s) % m).toNat ≡ x [ZMOD m] := by
    rw [Int.toNat_of_nonneg (Int.emod_nonneg _ hm.ne')]
    calc s + (x - s) % m ≡ s + (x - s) [ZMOD m] := (Int.mod_modEq _ _).add_left s
      _ = x := by ring
  have hdvd := dvd_valueAt_add hr hzero ((x - s) % m).toNat
  rw [← Int.modEq_zero_iff_dvd] at hdvd ⊢
  exact (valueAt_modEq hplace).symm.trans hdvd

end MeshSecurity
