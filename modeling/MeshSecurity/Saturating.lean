/-!
# Arithmetic that stops at the ends of the word

Counters and times are machine words. Sums stay at the largest word and differences at zero
where the exact result does not fit.
-/

namespace MeshSecurity.Saturating

/-- The largest 64-bit word. -/
def maxWord : UInt64 := 0xFFFFFFFFFFFFFFFF

/-- The sum, or the largest word where the sum exceeds it. -/
def add (a b : UInt64) : UInt64 :=
  if a.toNat + b.toNat ≤ 0xFFFFFFFFFFFFFFFF then a + b else maxWord

/-- The difference, or zero where `b` exceeds `a`. -/
def sub (a b : UInt64) : UInt64 := if b ≤ a then a - b else 0

/-- The word that follows, except after the largest one. -/
def succ16 (a : UInt16) : UInt16 := if a = 0xFFFF then a else a + 1

/-- The word that follows, except after the largest one. -/
def succ32 (a : UInt32) : UInt32 := if a = 0xFFFFFFFF then a else a + 1

@[simp] theorem toNat_maxWord : maxWord.toNat = 0xFFFFFFFFFFFFFFFF := rfl

theorem toNat_add (a b : UInt64) :
    (add a b).toNat = min (a.toNat + b.toNat) 0xFFFFFFFFFFFFFFFF := by
  unfold add
  split
  · rename_i h
    rw [UInt64.toNat_add, Nat.mod_eq_of_lt (by omega)]
    omega
  · rw [toNat_maxWord]
    omega

theorem toNat_sub (a b : UInt64) : (sub a b).toNat = a.toNat - b.toNat := by
  unfold sub
  split
  · rename_i h
    exact UInt64.toNat_sub_of_le a b h
  · rename_i h
    rw [UInt64.le_iff_toNat_le] at h
    have : a.toNat - b.toNat = 0 := by omega
    rw [this]; rfl

theorem toNat_succ16 (a : UInt16) : (succ16 a).toNat = min (a.toNat + 1) 0xFFFF := by
  have ha := a.toNat_lt
  unfold succ16
  split
  · rename_i h; subst h; rfl
  · rename_i h
    have hne : a.toNat ≠ 65535 := fun e => h (UInt16.toNat_inj.mp e)
    rw [UInt16.toNat_add, show (1 : UInt16).toNat = 1 from rfl]
    omega

theorem toNat_succ32 (a : UInt32) : (succ32 a).toNat = min (a.toNat + 1) 0xFFFFFFFF := by
  have ha := a.toNat_lt
  unfold succ32
  split
  · rename_i h; subst h; rfl
  · rename_i h
    have hne : a.toNat ≠ 4294967295 := fun e => h (UInt32.toNat_inj.mp e)
    rw [UInt32.toNat_add, show (1 : UInt32).toNat = 1 from rfl]
    omega

end MeshSecurity.Saturating
