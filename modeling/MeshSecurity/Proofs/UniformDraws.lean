import Mathlib.Algebra.Order.Floor.Div
import Mathlib.Data.Set.Card
import Mathlib.Order.Interval.Finset.Nat
import MeshSecurity.Proofs.RandomDraws
import MeshSecurity.Random.Generator

/-!
# Draws are uniform

The place of a draw grows with its word, so the words that are drawn as one value are those of an
interval. Its ends are two consecutive multiples of the number of words, divided by the width of the
interval drawn from and rounded up. A value therefore has as many words as the number of words
divided by the width, rounded down or up.
-/

namespace MeshSecurity.RandomSource

/-! ## Shares of a width -/

theorem share_eq_iff {span : Nat} (hspan : 0 < span) (v w : Nat) :
    (span * w) >>> 32 = v ↔
      (v * 2 ^ 32) ⌈/⌉ span ≤ w ∧ w < ((v + 1) * 2 ^ 32) ⌈/⌉ span := by
  rw [Nat.shiftRight_eq_div_pow, ceilDiv_le_iff_le_mul hspan, ← not_le,
    ceilDiv_le_iff_le_mul hspan]
  omega

theorem ceilDiv_le_div_add_one {d : Nat} (hd : 0 < d) (n : Nat) : n ⌈/⌉ d ≤ n / d + 1 := by
  rw [ceilDiv_le_iff_le_mul hd]
  exact (Nat.lt_mul_div_succ n hd).le

/-- Where the dividend grows by `n`, the quotient rounded up grows by that of `n`, rounded down or
up. -/
theorem add_ceilDiv_cases {d : Nat} (hd : 0 < d) (a n : Nat) :
    (a + n) ⌈/⌉ d = a ⌈/⌉ d + n / d ∨ (a + n) ⌈/⌉ d = a ⌈/⌉ d + n ⌈/⌉ d := by
  have ha : a ≤ d * (a ⌈/⌉ d) := (ceilDiv_le_iff_le_mul hd).mp le_rfl
  have hn : n ≤ d * (n ⌈/⌉ d) := (ceilDiv_le_iff_le_mul hd).mp le_rfl
  have hsum : a + n ≤ d * ((a + n) ⌈/⌉ d) := (ceilDiv_le_iff_le_mul hd).mp le_rfl
  have hfloor : d * (n / d) ≤ n := Nat.mul_div_le n d
  have hupper : (a + n) ⌈/⌉ d ≤ a ⌈/⌉ d + n ⌈/⌉ d := by
    rw [ceilDiv_le_iff_le_mul hd, Nat.mul_add]
    exact Nat.add_le_add ha hn
  have hlower : a ⌈/⌉ d ≤ (a + n) ⌈/⌉ d - n / d := by
    rw [ceilDiv_le_iff_le_mul hd, Nat.mul_sub]
    omega
  have hround : n ⌈/⌉ d ≤ n / d + 1 := ceilDiv_le_div_add_one hd n
  have hquotient : n / d ≤ (a + n) ⌈/⌉ d := by
    rw [← Nat.mul_le_mul_left_iff hd]
    omega
  omega

/-! ## The words of a value -/

/-- The words that are drawn as `value`. -/
def wordsOf (low high value : UInt64) : Set UInt32 := {w | scale low high w = value}

theorem ncard_words {a b : Nat} (hb : b ≤ 2 ^ 32) :
    {w : UInt32 | a ≤ w.toNat ∧ w.toNat < b}.ncard = b - a := by
  have himage : UInt32.toNat '' {w : UInt32 | a ≤ w.toNat ∧ w.toNat < b} = Finset.Ico a b := by
    ext n
    rw [Finset.coe_Ico, Set.mem_Ico]
    constructor
    · rintro ⟨w, hw, rfl⟩
      exact hw
    · intro hn
      have hword : (UInt32.ofNat n).toNat = n := UInt32.toNat_ofNat_of_lt' (hn.2.trans_le hb)
      exact ⟨UInt32.ofNat n, by rwa [Set.mem_ofPred_eq, hword], hword⟩
  rw [← Set.ncard_image_of_injective _ fun _ _ => UInt32.toNat_inj.mp, himage,
    Set.ncard_coe_finset, Nat.card_Ico]

theorem scale_eq_iff {low high value : UInt64} (h : low < high) (hvalue : low ≤ value)
    (w : UInt32) : scale low high w = value ↔
      ((high.toNat - low.toNat) * w.toNat) >>> 32 = value.toNat - low.toNat := by
  have hle := UInt64.le_iff_toNat_le.mp hvalue
  rw [← UInt64.toNat_inj, toNat_scale h]
  omega

theorem ncard_wordsOf {low high value : UInt64} (hlow : low ≤ value) (hhigh : value < high) :
    (wordsOf low high value).ncard =
      ((value.toNat - low.toNat) * 2 ^ 32 + 2 ^ 32) ⌈/⌉ (high.toNat - low.toNat) -
        ((value.toNat - low.toNat) * 2 ^ 32) ⌈/⌉ (high.toNat - low.toNat) := by
  have hle := UInt64.le_iff_toNat_le.mp hlow
  have hlt := UInt64.lt_iff_toNat_lt.mp hhigh
  have hspan : 0 < high.toNat - low.toNat := by omega
  have hwords : wordsOf low high value = {w | ((value.toNat - low.toNat) * 2 ^ 32) ⌈/⌉
      (high.toNat - low.toNat) ≤ w.toNat ∧ w.toNat < ((value.toNat - low.toNat) * 2 ^ 32 + 2 ^ 32)
        ⌈/⌉ (high.toNat - low.toNat)} := by
    ext w
    rw [wordsOf, Set.mem_ofPred_eq, Set.mem_ofPred_eq,
      scale_eq_iff (UInt64.lt_of_le_of_lt hlow hhigh) hlow, share_eq_iff hspan, Nat.succ_mul]
  rw [hwords]
  apply ncard_words
  rw [ceilDiv_le_iff_le_mul hspan, ← Nat.succ_mul]
  exact Nat.mul_le_mul_right _ (by omega)

theorem ncard_wordsOf_cases {low high value : UInt64} (hlow : low ≤ value) (hhigh : value < high) :
    (wordsOf low high value).ncard = 2 ^ 32 / (high.toNat - low.toNat) ∨
      (wordsOf low high value).ncard = 2 ^ 32 ⌈/⌉ (high.toNat - low.toNat) := by
  have hle := UInt64.le_iff_toNat_le.mp hlow
  have hlt := UInt64.lt_iff_toNat_lt.mp hhigh
  rw [ncard_wordsOf hlow hhigh]
  rcases add_ceilDiv_cases (Nat.sub_pos_of_lt (lt_of_le_of_lt hle hlt))
    ((value.toNat - low.toNat) * 2 ^ 32) (2 ^ 32) with hfloor | hceil
  · left
    rw [hfloor, Nat.add_sub_cancel_left]
  · right
    rw [hceil, Nat.add_sub_cancel_left]

theorem ncard_wordsOf_bounds {low high value : UInt64} (hlow : low ≤ value)
    (hhigh : value < high) :
    2 ^ 32 / (high.toNat - low.toNat) ≤ (wordsOf low high value).ncard ∧
      (wordsOf low high value).ncard ≤ 2 ^ 32 / (high.toNat - low.toNat) + 1 := by
  have hlt := UInt64.lt_iff_toNat_lt.mp (UInt64.lt_of_le_of_lt hlow hhigh)
  have hle : 2 ^ 32 / (high.toNat - low.toNat) ≤ 2 ^ 32 ⌈/⌉ (high.toNat - low.toNat) := by
    rw [← Nat.floorDiv_eq_div]
    exact floorDiv_le_ceilDiv
  have hround := ceilDiv_le_div_add_one (Nat.sub_pos_of_lt hlt) (2 ^ 32)
  rcases ncard_wordsOf_cases hlow hhigh with hcard | hcard <;> rw [hcard]
  · exact ⟨le_rfl, Nat.le_succ _⟩
  · exact ⟨hle, hround⟩

/-! ## No step leaves its word -/

namespace Strict

theorem sub_of_le {a b : UInt64} (h : b ≤ a) : sub a b = some (a - b) := if_pos h

theorem add_of_lt {a b : UInt64} (h : a.toNat + b.toNat < 2 ^ 64) : add a b = some (a + b) :=
  if_pos h

theorem times_of_lt {a b : BitVec 128} (h : a.toNat * b.toNat < 2 ^ 128) :
    times a b = some (a * b) := if_pos h

theorem narrow_of_lt {a : BitVec 128} (h : a.toNat < 2 ^ 64) :
    narrow a = some (UInt64.ofNat a.toNat) := by
  have hsame : UInt64.ofBitVec (a.setWidth 64) = UInt64.ofNat a.toNat := by
    rw [← UInt64.toNat_inj, UInt64.toNat_ofBitVec, BitVec.toNat_setWidth, UInt64.toNat_ofNat']
  rw [← hsame]
  exact if_pos h

theorem scale_eq_some {low high : UInt64} (h : low < high) (w : UInt32) :
    scale low high w = some (RandomSource.scale low high w) := by
  have hlt := UInt64.lt_iff_toNat_lt.mp h
  have hshare := share_lt (Nat.sub_pos_of_lt hlt) w
  have hhigh := high.toNat_lt
  have hspan : ((high - low).toBitVec.setWidth 128).toNat = high.toNat - low.toNat := by
    rw [BitVec.toNat_setWidth_of_le (by decide), UInt64.toNat_toBitVec,
      UInt64.toNat_sub_of_le _ _ (UInt64.le_of_lt h)]
  have hword : (w.toBitVec.setWidth 128).toNat = w.toNat := by
    rw [BitVec.toNat_setWidth_of_le (by decide), UInt32.toNat_toBitVec]
  have hfits : (high.toNat - low.toNat) * w.toNat < 2 ^ 128 :=
    calc (high.toNat - low.toNat) * w.toNat < 2 ^ 64 * 2 ^ 32 :=
          Nat.mul_lt_mul'' (by omega) w.toNat_lt
      _ ≤ 2 ^ 128 := by decide
  have hproduct : ((high - low).toBitVec.setWidth 128 * w.toBitVec.setWidth 128).toNat =
      (high.toNat - low.toNat) * w.toNat := by
    rw [BitVec.toNat_mul, hspan, hword, Nat.mod_eq_of_lt hfits]
  rw [scale, sub_of_le (UInt64.le_of_lt h), Option.bind_eq_bind, Option.bind_some,
    times_of_lt (by rwa [hspan, hword]), Option.bind_eq_bind, Option.bind_some,
    narrow_of_lt (by rw [BitVec.toNat_ushiftRight, hproduct]; omega), Option.bind_some,
    BitVec.toNat_ushiftRight, hproduct]
  apply add_of_lt
  rw [UInt64.toNat_ofNat', Nat.mod_eq_of_lt (by omega)]
  omega

end Strict

/-! ## Draws -/

/-- An interval that is empty yields its lower end without a request. From any other, one word is
drawn; its place is in the interval, no step on the way leaves its word, and a larger word has no
smaller place. If there are at least as many words as values, every value is the place of as many
words as their number divided by that of the values, rounded down or up. So every value has a word,
and none has more than one word more than another. -/
theorem draws_uniform {ρ : Type} [RandomSource ρ] (low high : UInt64) (source : ρ) :
    (high ≤ low → between low high source = (some low, source)) ∧
      (low < high →
        between low high source = ((word source).1.map (scale low high), (word source).2) ∧
        (∀ w, Strict.scale low high w = some (scale low high w) ∧
          low ≤ scale low high w ∧ scale low high w < high) ∧
        (∀ w w', w ≤ w' → scale low high w ≤ scale low high w') ∧
        (high.toNat - low.toNat ≤ 2 ^ 32 → ∀ value, low ≤ value → value < high →
          ((wordsOf low high value).ncard = 2 ^ 32 / (high.toNat - low.toNat) ∨
            (wordsOf low high value).ncard = 2 ^ 32 ⌈/⌉ (high.toNat - low.toNat)) ∧
          (∃ w, scale low high w = value) ∧
          ∀ other, low ≤ other → other < high →
            (wordsOf low high value).ncard ≤ (wordsOf low high other).ncard + 1)) := by
  refine ⟨fun hempty => if_pos hempty, ?_⟩
  intro h
  refine ⟨between_of_lt h source, ?_, fun w w' => scale_mono h, ?_⟩
  · intro w
    exact ⟨Strict.scale_eq_some h w, le_scale h w, scale_lt h w⟩
  · intro hspan value hlow hhigh
    obtain ⟨hleast, hmost⟩ := ncard_wordsOf_bounds hlow hhigh
    refine ⟨ncard_wordsOf_cases hlow hhigh, ?_, ?_⟩
    · have hpos : 0 < 2 ^ 32 / (high.toNat - low.toNat) :=
        Nat.div_pos hspan (Nat.sub_pos_of_lt (UInt64.lt_iff_toNat_lt.mp h))
      exact Set.nonempty_of_ncard_ne_zero (hpos.trans_le hleast).ne'
    · intro other hlow' hhigh'
      exact hmost.trans (Nat.succ_le_succ (ncard_wordsOf_bounds hlow' hhigh').1)

/-- Three values share the words; the number of words leaves the remainder one. -/
theorem draws_uniform_threeValues :
    between 13 13 (ConstantWord.mk 7) = (some 13, ConstantWord.mk 7) ∧
      (Strict.scale 10 13 0xFFFFFFFF = some (scale 10 13 0xFFFFFFFF) ∧
        10 ≤ scale 10 13 0xFFFFFFFF ∧ scale 10 13 0xFFFFFFFF < 13) ∧
      scale 10 13 0x55555555 ≤ scale 10 13 0x55555556 ∧
      (wordsOf 10 13 11).ncard ≤ (wordsOf 10 13 12).ncard + 1 := by
  obtain ⟨hempty, -⟩ := draws_uniform 13 13 (ConstantWord.mk 7)
  obtain ⟨-, hdrawn⟩ := draws_uniform 10 13 (ConstantWord.mk 7)
  obtain ⟨-, hplace, hmono, hcount⟩ := hdrawn (by decide)
  refine ⟨hempty (by decide), hplace 0xFFFFFFFF, hmono _ _ (by decide), ?_⟩
  obtain ⟨-, -, hfair⟩ := hcount (by decide) 11 (by decide) (by decide)
  exact hfair 12 (by decide) (by decide)

end MeshSecurity.RandomSource
