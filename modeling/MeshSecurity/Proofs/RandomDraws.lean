import MeshSecurity.Random.Source

/-!
# Draws from an interval

A draw fails with its source, and otherwise lies in the interval that was asked for.
-/

namespace MeshSecurity.RandomSource

variable {ρ : Type} [RandomSource ρ]

theorem share_lt {span : Nat} (h : 0 < span) (w : UInt32) : (span * w.toNat) >>> 32 < span := by
  rw [Nat.shiftRight_eq_div_pow, Nat.div_lt_iff_lt_mul (by decide)]
  exact Nat.mul_lt_mul_of_pos_left w.toNat_lt h

/-- Neither the product nor the sum leaves its word. -/
theorem toNat_scale {low high : UInt64} (h : low < high) (w : UInt32) :
    (scale low high w).toNat = low.toNat + ((high.toNat - low.toNat) * w.toNat) >>> 32 := by
  have hlt := UInt64.lt_iff_toNat_lt.mp h
  have hhigh := high.toNat_lt
  have hshare := share_lt (Nat.sub_pos_of_lt hlt) w
  rw [scale, UInt64.toNat_add, Nat.toUInt64_eq, UInt64.toNat_ofNat',
    Nat.mod_eq_of_lt (by omega : _ < 2 ^ 64), Nat.mod_eq_of_lt (by omega : _ < 2 ^ 64)]

theorem scale_lt {low high : UInt64} (h : low < high) (w : UInt32) : scale low high w < high := by
  have hlt := UInt64.lt_iff_toNat_lt.mp h
  have hshare := share_lt (Nat.sub_pos_of_lt hlt) w
  rw [UInt64.lt_iff_toNat_lt, toNat_scale h]
  omega

theorem le_scale {low high : UInt64} (h : low < high) (w : UInt32) : low ≤ scale low high w := by
  rw [UInt64.le_iff_toNat_le, toNat_scale h]
  exact Nat.le_add_right _ _

theorem scale_mono {low high : UInt64} (h : low < high) {w w' : UInt32} (hle : w ≤ w') :
    scale low high w ≤ scale low high w' := by
  rw [UInt64.le_iff_toNat_le, toNat_scale h, toNat_scale h, Nat.shiftRight_eq_div_pow,
    Nat.shiftRight_eq_div_pow]
  apply Nat.add_le_add_left
  apply Nat.div_le_div_right
  exact Nat.mul_le_mul_left _ (UInt32.le_iff_toNat_le.mp hle)

/-- A draw from an interval that is not empty takes one word. -/
theorem between_of_lt {low high : UInt64} (h : low < high) (source : ρ) :
    between low high source =
      ((word source).1.map (scale low high), (word source).2) := by
  rw [between, if_neg (UInt64.not_le.mpr h)]
  rcases word source with ⟨_ | _, _⟩ <;> rfl

/-- What is drawn from a closed interval that is not empty lies in it. -/
theorem between_bounds {low high value : UInt64} {source : ρ} (h : low ≤ high)
    (hdraw : (between low high source).1 = some value) : low ≤ value ∧ value ≤ high := by
  unfold between at hdraw
  split at hdraw
  · cases hdraw
    exact ⟨UInt64.le_refl low, h⟩
  · rename_i hlt
    have hlow : low < high := UInt64.not_le.mp hlt
    split at hdraw
    · cases hdraw
      exact ⟨le_scale hlow _, UInt64.le_of_lt (scale_lt hlow _)⟩
    · cases hdraw

end MeshSecurity.RandomSource
