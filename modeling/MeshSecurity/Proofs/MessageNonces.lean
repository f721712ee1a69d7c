import MeshSecurity.Request

/-!
# Headers with the same nonce

A nonce tells the digits of id and type, but not where the id ends. A confirmable message, of
type `0`, shares its nonce with headers whose type takes the last digit or the last two digits of
the id: `12` and `0` are written like `1` and `20`.
-/

namespace MeshSecurity

def asciiDigit (d : Nat) : UInt8 := d.digitChar.toNat.toUInt8

theorem toNat_asciiDigit {d : Nat} (h : d < 10) : (asciiDigit d).toNat = 48 + d := by
  rw [asciiDigit, Nat.toNat_digitChar_of_lt_ten h, Nat.toUInt8_eq, UInt8.toNat_ofNat']
  omega

theorem asciiDigit_inj {d e : Nat} (hd : d < 10) (he : e < 10) :
    asciiDigit d = asciiDigit e ↔ d = e := by
  rw [← UInt8.toNat_inj, toNat_asciiDigit hd, toNat_asciiDigit he]
  omega

theorem decimalDigits_of_lt {n : Nat} (h : n < 10) : decimalDigits n = [asciiDigit n] := by
  rw [decimalDigits, Nat.toDigits_of_lt_base h]
  rfl

theorem decimalDigits_of_le {n : Nat} (h : 10 ≤ n) :
    decimalDigits n = decimalDigits (n / 10) ++ [asciiDigit (n % 10)] := by
  rw [decimalDigits, Nat.toDigits_of_base_le (by decide) h, List.map_append]
  rfl

theorem length_decimalDigits_pos (n : Nat) : 0 < (decimalDigits n).length := by
  rw [decimalDigits, List.length_map]
  exact Nat.length_toDigits_pos

theorem length_decimalDigits_le {n k : Nat} (hk : 0 < k) (h : n < Nat.pow 10 k) :
    (decimalDigits n).length ≤ k := by
  rw [decimalDigits, List.length_map]
  exact (Nat.length_toDigits_le_iff (by decide) hk).mpr h

theorem zero_notMem_decimalDigits (n : Nat) : 0 ∉ decimalDigits n := by
  induction n using Nat.strongRecOn with
  | ind n ih =>
    have hdigit : asciiDigit (n % 10) ≠ 0 := by
      intro h
      have hvalue := toNat_asciiDigit (Nat.mod_lt n (show 0 < 10 by decide))
      rw [h, UInt8.toNat_zero] at hvalue
      omega
    by_cases hn : n < 10
    · rw [Nat.mod_eq_of_lt hn] at hdigit
      rw [decimalDigits_of_lt hn, List.mem_singleton]
      exact hdigit.symm
    · rw [decimalDigits_of_le (by omega), List.mem_append, List.mem_singleton]
      rintro (h | h)
      · exact ih (n / 10) (by omega) h
      · exact hdigit h.symm

theorem decimalDigits_inj {m n : Nat} : decimalDigits m = decimalDigits n ↔ m = n := by
  refine ⟨fun h => ?_, congrArg _⟩
  induction m using Nat.strongRecOn generalizing n with
  | ind m ih =>
    have hlength := congrArg List.length h
    by_cases hm : m < 10 <;> by_cases hn : n < 10
    · rw [decimalDigits_of_lt hm, decimalDigits_of_lt hn] at h
      exact (asciiDigit_inj hm hn).mp (List.cons.inj h).1
    · have hpos := length_decimalDigits_pos (n / 10)
      rw [decimalDigits_of_lt hm, decimalDigits_of_le (by omega), List.length_append,
        List.length_singleton, List.length_singleton] at hlength
      omega
    · have hpos := length_decimalDigits_pos (m / 10)
      rw [decimalDigits_of_lt hn, decimalDigits_of_le (by omega), List.length_append,
        List.length_singleton, List.length_singleton] at hlength
      omega
    · rw [decimalDigits_of_le (by omega : 10 ≤ m), decimalDigits_of_le (by omega : 10 ≤ n),
        List.append_singleton_inj,
        asciiDigit_inj (Nat.mod_lt m (by decide)) (Nat.mod_lt n (by decide))] at h
      have hquotient := ih (m / 10) (by omega) h.1
      omega

/-- A numeral of several digits ends in the remainder and begins with the quotient by ten. -/
theorem append_eq_decimalDigits_iff {l : List UInt8} {d m : Nat} (hl : 0 < l.length)
    (hd : d < 10) :
    l ++ [asciiDigit d] = decimalDigits m ↔
      10 ≤ m ∧ l = decimalDigits (m / 10) ∧ d = m % 10 := by
  by_cases hm : m < 10
  · rw [decimalDigits_of_lt hm]
    constructor
    · intro h
      have hlength := congrArg List.length h
      rw [List.length_append, List.length_singleton, List.length_singleton] at hlength
      omega
    · rintro ⟨hle, -⟩
      omega
  · have hle : 10 ≤ m := by omega
    rw [decimalDigits_of_le hle, List.append_singleton_inj,
      asciiDigit_inj hd (Nat.mod_lt m (by decide))]
    exact ⟨fun h => ⟨hle, h⟩, fun h => h.2⟩

/-- The ways to cut a numeral that ends in zero into two, the second one of a byte. -/
theorem append_eq_append_zero_iff {i t m : Nat} (ht : t < 256) :
    decimalDigits i ++ decimalDigits t = decimalDigits m ++ [asciiDigit 0] ↔
      t = 0 ∧ i = m ∨
      (10 ≤ m ∧ 1 ≤ m % 10 ∧ t = 10 * (m % 10) ∧ i = m / 10) ∨
      (100 ≤ m ∧ 10 ≤ m % 100 ∧ t = 10 * (m % 100) ∧ i = m / 100) := by
  have hi := length_decimalDigits_pos i
  -- by the number of digits of `t`: each further one is taken from the end of `m`
  by_cases h1 : t < 10
  · rw [decimalDigits_of_lt h1, List.append_singleton_inj, asciiDigit_inj h1 (by decide),
      decimalDigits_inj]
    omega
  · rw [decimalDigits_of_le (by omega : 10 ≤ t), ← List.append_assoc, List.append_singleton_inj,
      asciiDigit_inj (Nat.mod_lt t (by decide)) (by decide)]
    by_cases h2 : t / 10 < 10
    · rw [decimalDigits_of_lt h2, append_eq_decimalDigits_iff hi h2, decimalDigits_inj]
      omega
    · have h3 : t / 10 / 10 < 10 := by omega
      rw [decimalDigits_of_le (by omega : 10 ≤ t / 10), decimalDigits_of_lt h3,
        ← List.append_assoc,
        append_eq_decimalDigits_iff (by simp) (Nat.mod_lt (t / 10) (by decide)),
        append_eq_decimalDigits_iff hi h3, decimalDigits_inj]
      omega

namespace Bytes

theorem padded_inj {n : Nat} {k l : List UInt8} (hk : k.length ≤ n) (hl : l.length ≤ n)
    (hk0 : 0 ∉ k) (hl0 : 0 ∉ l) : padded n k = padded n l ↔ k = l := by
  refine ⟨fun h => ?_, congrArg _⟩
  have hlist := congrArg Vector.toList h
  rw [toList_padded, toList_padded, List.take_of_length_le hk, List.take_of_length_le hl] at hlist
  -- the padding alone is lost when zeros are taken out
  have hfilter := congrArg (List.filter (· ≠ 0)) hlist
  have hkeep (bs : List UInt8) (hbs : 0 ∉ bs) : bs.filter (· ≠ 0) = bs := by
    refine List.filter_eq_self.mpr fun b hb => decide_eq_true fun hzero => ?_
    rw [hzero] at hb
    exact hbs hb
  have hdrop (m : Nat) : (List.replicate m (0 : UInt8)).filter (· ≠ 0) = [] :=
    List.filter_eq_nil_iff.mpr fun b hb => by simp [List.eq_of_mem_replicate hb]
  rwa [List.filter_append, List.filter_append, hkeep k hk0, hkeep l hl0, hdrop, hdrop,
    List.append_nil, List.append_nil] at hfilter

end Bytes

namespace Header

def digits (h : Header) : List UInt8 := decimalDigits h.id.toNat ++ decimalDigits h.type.toNat

theorem length_digits_le (h : Header) : h.digits.length ≤ 8 := by
  have hid : (decimalDigits h.id.toNat).length ≤ 5 :=
    length_decimalDigits_le (by decide) (Nat.lt_trans h.id.toNat_lt (by decide))
  have htype : (decimalDigits h.type.toNat).length ≤ 3 :=
    length_decimalDigits_le (by decide) (Nat.lt_trans h.type.toNat_lt (by decide))
  rw [digits, List.length_append]
  omega

theorem nonce_inj {g h : Header} : g.nonce = h.nonce ↔ g.digits = h.digits := by
  have hzero (h : Header) : 0 ∉ h.digits := by
    rw [digits, List.mem_append]
    rintro (hid | htype)
    · exact zero_notMem_decimalDigits _ hid
    · exact zero_notMem_decimalDigits _ htype
  exact Bytes.padded_inj (Nat.le_trans g.length_digits_le (by decide))
    (Nat.le_trans h.length_digits_le (by decide)) (hzero g) (hzero h)

/-- The number of digits of the type tells where the id ends. -/
theorem nonce_inj_of_width {g h : Header}
    (hwidth : (decimalDigits g.type.toNat).length = (decimalDigits h.type.toNat).length) :
    g.nonce = h.nonce ↔ g = h := by
  refine ⟨fun hnonce => ?_, congrArg _⟩
  obtain ⟨hid, htype⟩ := List.append_inj' (nonce_inj.mp hnonce) hwidth
  obtain ⟨id, type⟩ := g
  obtain ⟨id', type'⟩ := h
  rw [Header.mk.injEq]
  exact ⟨UInt16.toNat_inj.mp (decimalDigits_inj.mp hid),
    UInt8.toNat_inj.mp (decimalDigits_inj.mp htype)⟩

theorem nonce_mk_inj {id id' : UInt16} {t t' : UInt8} (ht : t.toNat < 10) (ht' : t'.toNat < 10) :
    (Header.mk id t).nonce = (Header.mk id' t').nonce ↔ id = id' ∧ t = t' := by
  rw [← Header.mk.injEq]
  apply nonce_inj_of_width
  rw [decimalDigits_of_lt ht, decimalDigits_of_lt ht', List.length_singleton,
    List.length_singleton]

/-- The headers with the nonce of the confirmable message `id`: its own one, one whose type begins
with the last digit of the id, and one whose type begins with the last two. -/
theorem nonce_eq_confirmable_iff {g : Header} {id : UInt16} :
    g.nonce = (Header.mk id confirmable).nonce ↔
      g.type.toNat = 0 ∧ g.id.toNat = id.toNat ∨
      (10 ≤ id.toNat ∧ 1 ≤ id.toNat % 10 ∧ g.type.toNat = 10 * (id.toNat % 10) ∧
        g.id.toNat = id.toNat / 10) ∨
      (100 ≤ id.toNat ∧ 10 ≤ id.toNat % 100 ∧ g.type.toNat = 10 * (id.toNat % 100) ∧
        g.id.toNat = id.toNat / 100) := by
  rw [nonce_inj]
  have hzero : (Header.mk id confirmable).digits = decimalDigits id.toNat ++ [asciiDigit 0] :=
    congrArg (decimalDigits id.toNat ++ ·)
      (decimalDigits_of_lt (show confirmable.toNat < 10 by decide))
  rw [hzero]
  exact append_eq_append_zero_iff g.type.toNat_lt

/-- Whether the id of a confirmable message can be split in two: up to 99 unless it ends in zero,
and from 100 on also where the last two digits are 10 or 20. -/
def IsSplittable (id : UInt16) : Prop :=
  10 ≤ id.toNat ∧
    (id.toNat % 10 ≠ 0 ∨ 100 ≤ id.toNat ∧ (id.toNat % 100 = 10 ∨ id.toNat % 100 = 20))

instance (id : UInt16) : Decidable (IsSplittable id) := inferInstanceAs (Decidable (_ ∧ _))

/-- These are the confirmable messages that share their nonce with a message of another id. -/
theorem isSplittable_iff {id : UInt16} :
    IsSplittable id ↔ ∃ h : Header, h.id ≠ id ∧ h.nonce = (Header.mk id confirmable).nonce := by
  unfold IsSplittable
  refine Iff.symm ?_
  constructor
  · rintro ⟨h, hid, hnonce⟩
    have hne : h.id.toNat ≠ id.toNat := fun heq => hid (UInt16.toNat_inj.mp heq)
    have htype := h.type.toNat_lt
    rcases nonce_eq_confirmable_iff.mp hnonce with hcut | hcut | hcut <;> omega
  · intro h
    have hbound := id.toNat_lt
    have hid (k : Nat) (hk : k < id.toNat) : k.toUInt16.toNat = k := by
      rw [Nat.toUInt16_eq, UInt16.toNat_ofNat']
      omega
    have htype (k : Nat) (hk : k < 256) : k.toUInt8.toNat = k := by
      rw [Nat.toUInt8_eq, UInt8.toNat_ofNat']
      omega
    by_cases hlast : id.toNat % 10 = 0
    · refine ⟨⟨(id.toNat / 100).toUInt16, (10 * (id.toNat % 100)).toUInt8⟩, fun heq => ?_, ?_⟩
      · have hvalue := congrArg UInt16.toNat heq
        rw [hid _ (by omega)] at hvalue
        omega
      · refine nonce_eq_confirmable_iff.mpr (.inr (.inr ?_))
        rw [hid _ (by omega), htype _ (by omega)]
        omega
    · refine ⟨⟨(id.toNat / 10).toUInt16, (10 * (id.toNat % 10)).toUInt8⟩, fun heq => ?_, ?_⟩
      · have hvalue := congrArg UInt16.toNat heq
        rw [hid _ (by omega)] at hvalue
        omega
      · refine nonce_eq_confirmable_iff.mpr (.inr (.inl ?_))
        rw [hid _ (by omega), htype _ (by omega)]
        omega

example : (Header.mk 1 20).nonce = (Header.mk 12 confirmable).nonce := by decide

example : IsSplittable 12 ∧ IsSplittable 120 ∧ ¬ IsSplittable 130 := by decide

end Header

end MeshSecurity
