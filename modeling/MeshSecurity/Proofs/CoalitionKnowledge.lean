import Mathlib.Data.Nat.Prime.Int
import Mathlib.Tactic.NormNum.Prime
import MeshSecurity.Proofs.BlomAgreement
import MeshSecurity.Proofs.ConsecutiveValues

/-!
# What a coalition learns

The rows of a coalition tell the exact coefficients of its members modulo 65536. In Blom's scheme a
mask that vanishes at the numbers of the coalition changes the secrets of all others and none of
these rows, and it does so here where entries have room for it. But the words of a row form no
field: the rows of 18 consecutive nodes determine all others, because 65536 divides `18!`.
-/

open Polynomial

namespace MeshSecurity.Blom

variable {width lambda : Nat}

/-- The secret that node `a` obtains for node `b`. -/
def secretBetween (numbering : PeerNumbering width) (d : ByteMatrix lambda) (a b : UInt16) :
    Except Error (Bytes 2) :=
  (ofMatrix d a numbering).bind fun node => (node.secretFor b).1

/-- Whether the rows of a coalition leave open what secret node `a` obtains for node `b`: from
another symmetric matrix its members get the same rows and node `a` another secret. -/
def LeavesOpen (numbering : PeerNumbering width) (d : ByteMatrix lambda) (coalition : List UInt16)
    (a b : UInt16) : Prop :=
  ∃ d' : ByteMatrix lambda, d'.IsSymmetric ∧
    (∀ c ∈ coalition, ofMatrix d' c numbering = ofMatrix d c numbering) ∧
    secretBetween numbering d' a b ≠ secretBetween numbering d a b

theorem ofMatrix_eq_iff {d d' : ByteMatrix lambda} (hd : d.IsSymmetric) (hd' : d'.IsSymmetric)
    (c : UInt16) (numbering : PeerNumbering width) :
    ofMatrix d' c numbering = ofMatrix d c numbering ↔
      ∀ i : Fin lambda,
        exactCoefficient c (d'.get i) ≡ exactCoefficient c (d.get i) [MOD 65536] := by
  have hget (d : ByteMatrix lambda) (i : Fin lambda) :
      (d.map (coefficient c)).get i = coefficient c (d.get i) :=
    Vector.getElem_map (coefficient c) i.isLt
  have hword (i : Fin lambda) : coefficient c (d'.get i) = coefficient c (d.get i) ↔
      exactCoefficient c (d'.get i) ≡ exactCoefficient c (d.get i) [MOD 65536] := by
    rw [← UInt16.toNat_inj, toNat_coefficient, toNat_coefficient]
    rfl
  rw [ofMatrix_of_symmetric hd, ofMatrix_of_symmetric hd']
  constructor
  · intro hrows i
    have hrow : d'.map (coefficient c) = d.map (coefficient c) :=
      congrArg row (Except.ok.inj hrows)
    rw [← hword, ← hget, ← hget, hrow]
  · intro hcoefficients
    have hrow : d'.map (coefficient c) = d.map (coefficient c) := by
      apply Vector.ext
      intro i hi
      have hi' := (hword ⟨i, hi⟩).mpr (hcoefficients ⟨i, hi⟩)
      rwa [← hget, ← hget] at hi'
    rw [hrow]

theorem secretBetween_eq_iff {d d' : ByteMatrix lambda} (hd : d.IsSymmetric)
    (hd' : d'.IsSymmetric) (numbering : PeerNumbering width) {a b : UInt16}
    (hb : b.toNat < lambda) :
    secretBetween numbering d' a b = secretBetween numbering d a b ↔
      (exchange d' a b + overrun d' a b) % 65537 % 65536 =
        (exchange d a b + overrun d a b) % 65537 % 65536 := by
  have hsecret {d : ByteMatrix lambda} (hd : d.IsSymmetric) : secretBetween numbering d a b =
      .ok (secretOfValue ((ofRow (d.map (coefficient a)) numbering).evaluate b)) := by
    rw [secretBetween, ofMatrix_of_symmetric hd]
    exact secretFor_ofRow _ numbering hb
  rw [hsecret hd, hsecret hd', Except.ok.injEq, secretOfValue_inj, toNat_evaluate_ofRow,
    toNat_evaluate_ofRow]

/-! ## Rows that determine all others -/

/-- How much an entry changes from one matrix to another. -/
def difference (d d' : ByteMatrix lambda) (i j : Fin lambda) : ℤ :=
  ((d'.get i).get j).toNat - ((d.get i).get j).toNat

theorem modEq_iff_dvd_valueAt_difference (d d' : ByteMatrix lambda) (c : UInt16) (i : Fin lambda) :
    exactCoefficient c (d'.get i) ≡ exactCoefficient c (d.get i) [MOD 65536] ↔
      (65536 : ℤ) ∣ valueAt (difference d d' i) c.toNat := by
  have hvalue : valueAt (difference d d' i) c.toNat =
      (exactCoefficient c (d'.get i) : ℤ) - exactCoefficient c (d.get i) := by
    simp only [valueAt, difference, exactCoefficient, sub_mul, Finset.sum_sub_distrib]
    push_cast
    rfl
  rw [hvalue, Nat.ModEq.comm, Nat.modEq_iff_dvd]
  rfl

/-- The rows of 18 consecutive nodes determine the row of every node. -/
theorem ofMatrix_eq_of_consecutive {d d' : ByteMatrix lambda} (hd : d.IsSymmetric)
    (hd' : d'.IsSymmetric) (numbering : PeerNumbering width) {s : ℕ}
    (hrows : ∀ k < 18, ∃ c : UInt16, c.toNat = s + k ∧
      ofMatrix d' c numbering = ofMatrix d c numbering) (x : UInt16) :
    ofMatrix d' x numbering = ofMatrix d x numbering := by
  rw [ofMatrix_eq_iff hd hd']
  intro i
  rw [modEq_iff_dvd_valueAt_difference]
  have hfactorial : (65536 : ℤ) ∣ Nat.factorial 18 := by decide
  apply dvd_valueAt_of_consecutive (by decide) hfactorial (s := s)
  intro k hk
  obtain ⟨c, hplace, hrow⟩ := hrows k hk
  have hcoefficient := (ofMatrix_eq_iff hd hd' c numbering).mp hrow i
  rw [modEq_iff_dvd_valueAt_difference, hplace] at hcoefficient
  exact_mod_cast hcoefficient

theorem not_leavesOpen_of_consecutive {d : ByteMatrix lambda} (hd : d.IsSymmetric)
    (numbering : PeerNumbering width) {coalition : List UInt16} {s : ℕ}
    (hmembers : ∀ k < 18, ∃ c ∈ coalition, c.toNat = s + k) (a b : UInt16) :
    ¬ LeavesOpen numbering d coalition a b := by
  rintro ⟨d', hd', hrows, hsecret⟩
  apply hsecret
  have hrow : ofMatrix d' a numbering = ofMatrix d a numbering := by
    apply ofMatrix_eq_of_consecutive hd hd' numbering (s := s)
    intro k hk
    obtain ⟨c, hc, hplace⟩ := hmembers k hk
    exact ⟨c, hplace, hrows c hc⟩
  rw [secretBetween, hrow]
  rfl

/-! ## Masks -/

/-- Whether every entry can be raised and lowered by the product of two entries of `u`. -/
def HasRoom (d : ByteMatrix lambda) (u : Fin lambda → ℤ) : Prop :=
  ∀ i j : Fin lambda, |u i * u j| ≤ ((d.get i).get j).toNat ∧
    ((d.get i).get j).toNat + |u i * u j| ≤ 255

/-- The matrix with a multiple of the products of `u` added. -/
def masked (d : ByteMatrix lambda) (u : Fin lambda → ℤ) (t : ℤ) : ByteMatrix lambda :=
  Vector.ofFn fun i => Vector.ofFn fun j =>
    UInt8.ofNat (((d.get i).get j).toNat + t * (u i * u j)).toNat

variable {d : ByteMatrix lambda} {u : Fin lambda → ℤ} {t : ℤ}

theorem get_masked (d : ByteMatrix lambda) (u : Fin lambda → ℤ) (t : ℤ) (i j : Fin lambda) :
    ((masked d u t).get i).get j =
      UInt8.ofNat (((d.get i).get j).toNat + t * (u i * u j)).toNat := by
  change ((masked d u t)[i.val])[j.val] = _
  simp only [masked, Vector.getElem_ofFn]

theorem entry_masked (hroom : HasRoom d u) (ht : |t| ≤ 1) (i j : Fin lambda) :
    ((((masked d u t).get i).get j).toNat : ℤ) = ((d.get i).get j).toNat + t * (u i * u j) := by
  obtain ⟨hlower, hupper⟩ := hroom i j
  have hchange : |t * (u i * u j)| ≤ |u i * u j| := by
    rw [abs_mul]
    exact mul_le_of_le_one_left (abs_nonneg _) ht
  obtain ⟨hdown, hup⟩ := abs_le.mp hchange
  have hbyte : (((d.get i).get j).toNat + t * (u i * u j)).toNat < 256 := by omega
  rw [get_masked, UInt8.toNat_ofNat_of_lt' hbyte, Int.toNat_of_nonneg (by omega)]

theorem isSymmetric_masked (hd : d.IsSymmetric) : (masked d u t).IsSymmetric := by
  intro i j
  have hentry : (d.get i).get j = (d.get j).get i := hd i j
  change ((masked d u t).get i).get j = ((masked d u t).get j).get i
  rw [get_masked, get_masked, hentry, mul_comm (u i)]

theorem exactCoefficient_masked (hroom : HasRoom d u) (ht : |t| ≤ 1) (c : UInt16)
    (i : Fin lambda) :
    (exactCoefficient c ((masked d u t).get i) : ℤ) =
      exactCoefficient c (d.get i) + t * u i * valueAt u c.toNat := by
  simp only [exactCoefficient, valueAt, Finset.mul_sum]
  push_cast
  rw [← Finset.sum_add_distrib]
  apply Finset.sum_congr rfl
  intro j _
  rw [entry_masked hroom ht]
  ring

theorem exchange_masked (hroom : HasRoom d u) (ht : |t| ≤ 1) (a b : UInt16) :
    (exchange (masked d u t) a b : ℤ) =
      exchange d a b + t * (valueAt u a.toNat * valueAt u b.toNat) := by
  have hpeer : t * (valueAt u a.toNat * valueAt u b.toNat) =
      ∑ i : Fin lambda, t * u i * valueAt u a.toNat * (b.toNat : ℤ) ^ (i : ℕ) := by
    rw [valueAt, valueAt, Finset.mul_sum, Finset.mul_sum]
    apply Finset.sum_congr rfl
    intro i _
    ring
  rw [hpeer, exchange, exchange]
  push_cast
  rw [← Finset.sum_add_distrib]
  apply Finset.sum_congr rfl
  intro i _
  rw [exactCoefficient_masked hroom ht]
  ring

/-- The coefficients of small numbers stay within their words. -/
theorem overrun_eq_zero (d : ByteMatrix lambda) {a : UInt16}
    (hsmall : 255 * ∑ j : Fin lambda, a.toNat ^ (j : ℕ) < 65536) (b : UInt16) :
    overrun d a b = 0 := by
  apply overrun_eq_zero_of_rowsFit
  intro i
  apply Nat.le_of_lt_succ
  apply lt_of_le_of_lt _ hsmall
  rw [exactCoefficient, Finset.mul_sum]
  apply Finset.sum_le_sum
  intro j _
  exact Nat.mul_le_mul_right _ (Nat.le_of_lt_succ ((d.get i).get j).toNat_lt)

/-- If raising and lowering a value by `q` shows in neither low half, then `q` vanishes modulo the
prime. -/
theorem dvd_of_low_halves_eq {v v₁ v₂ : ℕ} {q : ℤ} (h₁ : (v₁ : ℤ) = v + q)
    (h₂ : (v₂ : ℤ) = v - q) (hlow₁ : v₁ % 65537 % 65536 = v % 65537 % 65536)
    (hlow₂ : v₂ % 65537 % 65536 = v % 65537 % 65536) : (65537 : ℤ) ∣ q := by
  have hcases (w : ℕ) (hlow : w % 65537 % 65536 = v % 65537 % 65536) :
      w % 65537 = v % 65537 ∨ (w % 65537 = 0 ∧ v % 65537 = 65536) ∨
        (w % 65537 = 65536 ∧ v % 65537 = 0) := by omega
  rcases hcases v₁ hlow₁ with h | ⟨h, h'⟩ | ⟨h, h'⟩
  · omega
  · rcases hcases v₂ hlow₂ with k | ⟨k, k'⟩ | ⟨k, k'⟩
    · omega
    · omega
    · omega
  · rcases hcases v₂ hlow₂ with k | ⟨k, k'⟩ | ⟨k, k'⟩
    · omega
    · omega
    · omega

/-- A mask that vanishes for the coalition and not for the pair leaves the secret open. -/
theorem leavesOpen_of_mask (hd : d.IsSymmetric) (numbering : PeerNumbering width)
    {coalition : List UInt16} {a b : UInt16} (hb : b.toNat < lambda) (hroom : HasRoom d u)
    (hcoalition : ∀ c ∈ coalition, valueAt u c.toNat = 0)
    (hpair : ¬ (65537 : ℤ) ∣ valueAt u a.toNat * valueAt u b.toNat)
    (hsmall : 255 * ∑ j : Fin lambda, a.toNat ^ (j : ℕ) < 65536) :
    LeavesOpen numbering d coalition a b := by
  have hrows (t : ℤ) (ht : |t| ≤ 1) (c : UInt16) (hc : c ∈ coalition) :
      ofMatrix (masked d u t) c numbering = ofMatrix d c numbering := by
    rw [ofMatrix_eq_iff hd (isSymmetric_masked hd)]
    intro i
    have hsame := exactCoefficient_masked hroom ht c i
    rw [hcoalition c hc, mul_zero, add_zero] at hsame
    rw [Int.natCast_inj.mp hsame]
  have hsecret (t : ℤ) : secretBetween numbering (masked d u t) a b =
        secretBetween numbering d a b →
      exchange (masked d u t) a b % 65537 % 65536 = exchange d a b % 65537 % 65536 := by
    intro hsame
    rw [secretBetween_eq_iff hd (isSymmetric_masked hd) numbering hb, overrun_eq_zero _ hsmall,
      overrun_eq_zero _ hsmall] at hsame
    exact hsame
  have hraised := exchange_masked (t := 1) hroom (by decide) a b
  have hlowered := exchange_masked (t := -1) hroom (by decide) a b
  -- one of the two changes of the matrix may go unseen, but not both
  by_cases hopen : secretBetween numbering (masked d u 1) a b = secretBetween numbering d a b
  · refine ⟨masked d u (-1), isSymmetric_masked hd, hrows (-1) (by decide), ?_⟩
    intro hopen'
    apply hpair
    apply dvd_of_low_halves_eq _ _ (hsecret 1 hopen) (hsecret (-1) hopen')
    · rw [hraised, one_mul]
    · rw [hlowered]
      ring
  · exact ⟨masked d u 1, isSymmetric_masked hd, hrows 1 (by decide), hopen⟩

/-! ## Blom's mask -/

/-- A bound for the coefficients of `∏ (x - c)` over the members of a coalition. -/
def extent (coalition : List UInt16) : ℕ := (coalition.map fun c => c.toNat + 1).prod

theorem extent_cons (c : UInt16) (coalition : List UInt16) :
    extent (c :: coalition) = (c.toNat + 1) * extent coalition := by
  rw [extent, List.map_cons, List.prod_cons, extent]

/-- The polynomial of a coalition that vanishes exactly at the numbers of its members. -/
theorem exists_vanishing (coalition : List UInt16) :
    ∃ p : ℤ[X], p.natDegree ≤ coalition.length ∧ (∀ i, |p.coeff i| ≤ extent coalition) ∧
      ∀ x : ℤ, p.eval x = (coalition.map fun c => x - c.toNat).prod := by
  induction coalition with
  | nil =>
    refine ⟨1, by simp, ?_, by simp⟩
    intro i
    rw [coeff_one]
    split
    · simp [extent]
    · simp
  | cons c coalition ih =>
    obtain ⟨q, hdegree, hcoeff, heval⟩ := ih
    refine ⟨(X - C (c.toNat : ℤ)) * q, ?_, ?_, ?_⟩
    · rw [List.length_cons, Nat.add_comm]
      exact natDegree_mul_le_of_le (natDegree_X_sub_C_le _) hdegree
    · intro i
      have hshifted : |(X * q).coeff i| ≤ (extent coalition : ℤ) := by
        cases i with
        | zero =>
          rw [coeff_X_mul_zero, abs_zero]
          exact Int.natCast_nonneg _
        | succ i =>
          rw [coeff_X_mul]
          exact hcoeff i
      have hscaled : |(c.toNat : ℤ) * q.coeff i| ≤ c.toNat * extent coalition := by
        rw [abs_mul, Nat.abs_cast]
        exact mul_le_mul_of_nonneg_left (hcoeff i) (Int.natCast_nonneg _)
      have hextent : ((extent (c :: coalition) : ℕ) : ℤ) =
          extent coalition + c.toNat * extent coalition := by
        rw [extent_cons]
        push_cast
        ring
      rw [sub_mul, coeff_sub, coeff_C_mul, hextent]
      exact (abs_sub _ _).trans (add_le_add hshifted hscaled)
    · intro x
      rw [eval_mul, eval_sub, eval_X, eval_C, heval, List.map_cons, List.prod_cons]

/-- The mask for a coalition that is small enough: the coefficients of `∏ (x - c)`. -/
theorem exists_mask {coalition : List UInt16} (hfew : coalition.length < lambda) :
    ∃ u : Fin lambda → ℤ, (∀ i j, |u i * u j| ≤ (extent coalition ^ 2 : ℕ)) ∧
      ∀ x : ℤ, valueAt u x = (coalition.map fun c => x - c.toNat).prod := by
  obtain ⟨p, hdegree, hcoeff, heval⟩ := exists_vanishing coalition
  refine ⟨fun i => p.coeff i, ?_, ?_⟩
  · intro i j
    rw [abs_mul, pow_two, Nat.cast_mul]
    exact mul_le_mul (hcoeff i) (hcoeff j) (abs_nonneg _) (Int.natCast_nonneg _)
  · intro x
    rw [← heval, valueAt, eval_eq_sum_range' (lt_of_le_of_lt hdegree hfew), Finset.sum_range]

theorem prime_modulus : Prime (65537 : ℤ) := by
  have hprime : Nat.Prime 65537 := by norm_num
  exact_mod_cast Nat.prime_iff_prime_int.mp hprime

/-- The mask vanishes for no outsider, modulo the prime. -/
theorem not_dvd_mask {coalition : List UInt16} {x : UInt16} (hx : x ∉ coalition) :
    ¬ (65537 : ℤ) ∣ (coalition.map fun c => (x.toNat : ℤ) - c.toNat).prod := by
  rw [prime_modulus.dvd_prod_iff]
  rintro ⟨factor, hfactor, hdvd⟩
  obtain ⟨c, hc, rfl⟩ := List.mem_map.mp hfactor
  have hsame : x.toNat = c.toNat := by
    have hxword := x.toNat_lt
    have hcword := c.toNat_lt
    omega
  exact hx (UInt16.toNat_inj.mp hsame ▸ hc)

/-- A coalition smaller than `lambda` leaves the secrets of others open if all entries have room for
its mask and the coefficients of the first node stay within their words. -/
theorem leavesOpen_of_room (hd : d.IsSymmetric) (numbering : PeerNumbering width)
    {coalition : List UInt16} {a b : UInt16} (hfew : coalition.length < lambda)
    (hb : b.toNat < lambda) (ha : a ∉ coalition) (hb' : b ∉ coalition)
    (hroom : ∀ i j : Fin lambda, extent coalition ^ 2 ≤ ((d.get i).get j).toNat ∧
      ((d.get i).get j).toNat + extent coalition ^ 2 ≤ 255)
    (hsmall : 255 * ∑ j : Fin lambda, a.toNat ^ (j : ℕ) < 65536) :
    LeavesOpen numbering d coalition a b := by
  obtain ⟨u, hreach, hvalue⟩ := exists_mask hfew
  have hmask : HasRoom d u := by
    intro i j
    obtain ⟨hlower, hupper⟩ := hroom i j
    have hproduct := hreach i j
    constructor
    · omega
    · omega
  have hcoalition : ∀ c ∈ coalition, valueAt u c.toNat = 0 := by
    intro c hc
    rw [hvalue, List.prod_eq_zero_iff, List.mem_map]
    exact ⟨c, hc, sub_self _⟩
  apply leavesOpen_of_mask hd numbering hb hmask hcoalition _ hsmall
  rw [hvalue, hvalue]
  intro hdvd
  rcases prime_modulus.dvd_or_dvd hdvd with hdvd | hdvd
  · exact not_dvd_mask ha hdvd
  · exact not_dvd_mask hb' hdvd

/-! ## The knowledge of a coalition -/

/-- The rows of a coalition leave the secret of a pair open exactly if another symmetric matrix has
the same exact coefficients for its members, modulo 65536, and a value for the pair that differs in
its low half. This is never so if the coalition contains 18 consecutive numbers. It is so for a
coalition smaller than `lambda` if the pair does not belong to it, all entries have room for its
mask, and the coefficients of the first node stay within their words. -/
theorem coalition_knowledge {d : ByteMatrix lambda} (hd : d.IsSymmetric)
    (numbering : PeerNumbering width) (coalition : List UInt16) (a : UInt16) {b : UInt16}
    (hb : b.toNat < lambda) :
    (LeavesOpen numbering d coalition a b ↔
      ∃ d' : ByteMatrix lambda, d'.IsSymmetric ∧
        (∀ c ∈ coalition, ∀ i : Fin lambda,
          exactCoefficient c (d'.get i) ≡ exactCoefficient c (d.get i) [MOD 65536]) ∧
        (exchange d' a b + overrun d' a b) % 65537 % 65536 ≠
          (exchange d a b + overrun d a b) % 65537 % 65536) ∧
    ((∃ s : ℕ, ∀ k < 18, ∃ c ∈ coalition, c.toNat = s + k) →
      ¬ LeavesOpen numbering d coalition a b) ∧
    (coalition.length < lambda → a ∉ coalition → b ∉ coalition →
      (∀ i j : Fin lambda, extent coalition ^ 2 ≤ ((d.get i).get j).toNat ∧
        ((d.get i).get j).toNat + extent coalition ^ 2 ≤ 255) →
      255 * ∑ j : Fin lambda, a.toNat ^ (j : ℕ) < 65536 →
        LeavesOpen numbering d coalition a b) := by
  refine ⟨?_, ?_, ?_⟩
  · apply exists_congr
    intro d'
    apply and_congr_right
    intro hd'
    rw [ne_eq, secretBetween_eq_iff hd hd' numbering hb]
    apply and_congr_left
    intro hsecret
    apply forall₂_congr
    intro c hc
    exact ofMatrix_eq_iff hd hd' c numbering
  · rintro ⟨s, hmembers⟩
    exact not_leavesOpen_of_consecutive hd numbering hmembers a b
  · intro hfew ha hb' hroom hsmall
    exact leavesOpen_of_room hd numbering hfew hb ha hb' hroom hsmall

/-- The matrix all entries of which are 128. -/
def evenMatrix (lambda : Nat) : ByteMatrix lambda :=
  Vector.replicate lambda (Vector.replicate lambda 128)

theorem isSymmetric_evenMatrix (lambda : Nat) : (evenMatrix lambda).IsSymmetric := by
  intro i j
  simp [evenMatrix]

/-- The nodes with the first `count` numbers. -/
def firstNodes (count : Nat) : List UInt16 := (List.range count).map UInt16.ofNat

@[simp] theorem length_firstNodes (count : Nat) : (firstNodes count).length = count := by
  simp [firstNodes]

theorem mem_firstNodes_iff {count : Nat} (hcount : count ≤ 65536) {c : UInt16} :
    c ∈ firstNodes count ↔ c.toNat < count := by
  rw [firstNodes, List.mem_map]
  constructor
  · rintro ⟨k, hk, rfl⟩
    have hword : k < 65536 := lt_of_lt_of_le (List.mem_range.mp hk) hcount
    rw [UInt16.toNat_ofNat_of_lt' hword]
    exact List.mem_range.mp hk
  · intro hc
    exact ⟨c.toNat, List.mem_range.mpr hc, UInt16.ofNat_toNat⟩

theorem nodup_firstNodes {count : Nat} (hcount : count ≤ 65536) : (firstNodes count).Nodup := by
  apply List.Nodup.map_on _ List.nodup_range
  intro j hj k hk hsame
  have hj' : j < 65536 := lt_of_lt_of_le (List.mem_range.mp hj) hcount
  have hk' : k < 65536 := lt_of_lt_of_le (List.mem_range.mp hk) hcount
  have hnat := congrArg UInt16.toNat hsame
  rwa [UInt16.toNat_ofNat_of_lt' hj', UInt16.toNat_ofNat_of_lt' hk'] at hnat

theorem exists_mem_firstNodes {k count : Nat} (hcount : count ≤ 65536) (hk : k < count) :
    ∃ c ∈ firstNodes count, c.toNat = 0 + k := by
  have hword : (UInt16.ofNat k).toNat = k :=
    UInt16.toNat_ofNat_of_lt' (lt_of_lt_of_le hk hcount)
  rw [Nat.zero_add]
  exact ⟨UInt16.ofNat k, (mem_firstNodes_iff hcount).mpr (hword.symm ▸ hk), hword⟩

/-- Nodes 0, 1 and 2 of five do not know the secret of nodes 3 and 4, but the first 18 of 32 nodes
know that of nodes 18 and 19. -/
theorem coalition_knowledge_firstNodes :
    (evenMatrix 5).IsSymmetric ∧ (4 : UInt16).toNat < 5 ∧ (firstNodes 3).length < 5 ∧
      3 ∉ firstNodes 3 ∧ 4 ∉ firstNodes 3 ∧
      (∀ i j : Fin 5, extent (firstNodes 3) ^ 2 ≤ (((evenMatrix 5).get i).get j).toNat ∧
        (((evenMatrix 5).get i).get j).toNat + extent (firstNodes 3) ^ 2 ≤ 255) ∧
      255 * ∑ j : Fin 5, (3 : UInt16).toNat ^ (j : ℕ) < 65536 ∧
      LeavesOpen (.byLastByte : PeerNumbering 8) (evenMatrix 5) (firstNodes 3) 3 4 ∧
    (evenMatrix 32).IsSymmetric ∧ (19 : UInt16).toNat < 32 ∧
      (∃ s : ℕ, ∀ k < 18, ∃ c ∈ firstNodes 18, c.toNat = s + k) ∧
      ¬ LeavesOpen (.byLastByte : PeerNumbering 8) (evenMatrix 32) (firstNodes 18) 18 19 := by
  have hpeer : (4 : UInt16).toNat < 5 := by decide
  have hfew : (firstNodes 3).length < 5 := by decide
  have hfirst : 3 ∉ firstNodes 3 := by decide
  have hsecond : 4 ∉ firstNodes 3 := by decide
  have hroom : ∀ i j : Fin 5, extent (firstNodes 3) ^ 2 ≤ (((evenMatrix 5).get i).get j).toNat ∧
      (((evenMatrix 5).get i).get j).toNat + extent (firstNodes 3) ^ 2 ≤ 255 := by decide
  have hsmall : 255 * ∑ j : Fin 5, (3 : UInt16).toNat ^ (j : ℕ) < 65536 := by decide
  have hpeer' : (19 : UInt16).toNat < 32 := by decide
  have hmembers : ∃ s : ℕ, ∀ k < 18, ∃ c ∈ firstNodes 18, c.toNat = s + k :=
    ⟨0, fun k hk => exists_mem_firstNodes (by decide) hk⟩
  have hopen := (coalition_knowledge (isSymmetric_evenMatrix 5) (.byLastByte : PeerNumbering 8)
    (firstNodes 3) 3 hpeer).2.2 hfew hfirst hsecond hroom hsmall
  have hknown := (coalition_knowledge (isSymmetric_evenMatrix 32) (.byLastByte : PeerNumbering 8)
    (firstNodes 18) 18 hpeer').2.1 hmembers
  exact ⟨isSymmetric_evenMatrix 5, hpeer, hfew, hfirst, hsecond, hroom, hsmall, hopen,
    isSymmetric_evenMatrix 32, hpeer', hmembers, hknown⟩

/-- The first 18 of 32 nodes are far fewer than 32, and still no other matrix agrees with their rows
and changes the secret of nodes 18 and 19. -/
theorem known_to_firstNodes :
    (evenMatrix 32).IsSymmetric ∧ (firstNodes 18).length ≤ 32 - 2 ∧ (firstNodes 18).Nodup ∧
      (∀ c ∈ firstNodes 18, c.toNat < 32) ∧ 18 ∉ firstNodes 18 ∧ 19 ∉ firstNodes 18 ∧
      ¬ LeavesOpen (.byLastByte : PeerNumbering 8) (evenMatrix 32) (firstNodes 18) 18 19 := by
  have hwords : 18 ≤ 65536 := by decide
  have hmembers : ∀ c ∈ firstNodes 18, c.toNat < 18 := fun c hc => (mem_firstNodes_iff hwords).mp hc
  refine ⟨isSymmetric_evenMatrix 32, ?_, nodup_firstNodes hwords, ?_, ?_, ?_, ?_⟩
  · rw [length_firstNodes]
    decide
  · intro c hc
    exact lt_trans (hmembers c hc) (by decide)
  · intro h
    exact absurd (hmembers 18 h) (by decide)
  · intro h
    exact absurd (hmembers 19 h) (by decide)
  · apply not_leavesOpen_of_consecutive (isSymmetric_evenMatrix 32) (s := 0)
    intro k hk
    exact exists_mem_firstNodes hwords hk

end MeshSecurity.Blom
