import MeshSecurity.Proofs.MessageNonces

/-!
# Messages told apart by their nonces

A nonce is the decimal text of id and type, written in full and followed by zeros. It does not tell
where the id ends. The number of digits of the type does, so among messages whose types have as many
digits, such as requests and acknowledgements, each has a nonce of its own.
-/

namespace MeshSecurity

/-! ## Written in full -/

theorem asciiDigit_eq {d : Nat} (h : d < 10) : 48 + d.toUInt8 = asciiDigit d := by
  apply UInt8.toNat_inj.mp
  rw [toNat_asciiDigit h, UInt8.toNat_add, Nat.toUInt8_eq, UInt8.toNat_ofNat']
  simp
  omega

theorem reverse_reversedDigits (n : Nat) : (reversedDigits n).reverse = decimalDigits n := by
  induction n using Nat.strongRecOn with
  | ind n ih =>
    rw [reversedDigits, List.reverse_cons, asciiDigit_eq (Nat.mod_lt n (by decide))]
    by_cases hn : n < 10
    · rw [dif_pos (Nat.div_eq_of_lt hn), decimalDigits_of_lt hn, Nat.mod_eq_of_lt hn]
      rfl
    · rw [dif_neg (by omega), ih (n / 10) (by omega),
        decimalDigits_of_le (Nat.le_of_not_lt hn)]

theorem length_reversedDigits (n : Nat) :
    (reversedDigits n).length = (decimalDigits n).length := by
  rw [← reverse_reversedDigits, List.length_reverse]

/-- Where there is room, a number is written in full. -/
theorem writeDecimal_of_room {n : Nat} {buffer : List UInt8}
    (h : (decimalDigits n).length ≤ buffer.length) :
    writeDecimal n buffer =
      (decimalDigits n ++ buffer.drop (decimalDigits n).length, (decimalDigits n).length) := by
  unfold writeDecimal
  dsimp only
  rw [length_reversedDigits, Nat.min_eq_left h, ← length_reversedDigits, List.take_length,
    reverse_reversedDigits]

namespace Header

theorem toList_nonce (h : Header) :
    h.nonce.toList = h.digits ++ List.replicate (Nonce.size - h.digits.length) 0 := by
  have hfits : h.digits.length ≤ Nonce.size := Nat.le_trans h.length_digits_le (by decide)
  change (Bytes.padded Nonce.size h.digits).toList = _
  rw [Bytes.toList_padded, List.take_of_length_le hfits]

/-- A nonce has room for both numbers, the second one behind the first. -/
theorem written_eq_nonce (h : Header) : Nonce.written h.id h.type = h.nonce.toList := by
  have hfits : h.digits.length ≤ Nonce.size := Nat.le_trans h.length_digits_le (by decide)
  rw [digits, List.length_append] at hfits
  have hid : (decimalDigits h.id.toNat).length ≤
      (List.replicate Nonce.size (0 : UInt8)).length := by
    rw [List.length_replicate]
    omega
  have htype : (decimalDigits h.type.toNat).length ≤
      (List.replicate (Nonce.size - (decimalDigits h.id.toNat).length) (0 : UInt8)).length := by
    rw [List.length_replicate]
    omega
  unfold Nonce.written
  rw [writeDecimal_of_room hid]
  dsimp only
  rw [List.take_left, List.drop_left, List.drop_replicate, writeDecimal_of_room htype,
    List.drop_replicate, ← List.append_assoc, toList_nonce, digits, List.length_append,
    Nat.sub_sub]

/-! ## One nonce for each message -/

/-- Messages whose types have as many digits have the same nonce only if they have the same id and
type. A nonce is the text of both numbers in full, in at most eight of its bytes, and zeros. So no
two requests or acknowledgements share a nonce, unless they are of one kind and one id. -/
theorem nonce_identifies_message (g h : Header) :
    ((Nat.toDigits 10 g.type.toNat).length = (Nat.toDigits 10 h.type.toNat).length →
      (g.nonce = h.nonce ↔ g = h)) ∧
    (∃ text : List UInt8,
      text = (Nat.toDigits 10 h.id.toNat ++ Nat.toDigits 10 h.type.toNat).map
        (fun c => c.toNat.toUInt8) ∧
      text.length ≤ 8 ∧
      h.nonce.toList = text ++ List.replicate (Nonce.size - text.length) 0 ∧
      h.nonce.toList = Nonce.written h.id h.type) ∧
    ∀ id id' : UInt16,
      ((Header.mk id confirmable).nonce = (Header.mk id' confirmable).nonce ↔ id = id') ∧
      ((Header.mk id acknowledgement).nonce = (Header.mk id' acknowledgement).nonce ↔ id = id') ∧
      (Header.mk id confirmable).nonce ≠ (Header.mk id' acknowledgement).nonce := by
  refine ⟨fun hwidth => ?_, ⟨h.digits, ?_, h.length_digits_le, h.toList_nonce,
    h.written_eq_nonce.symm⟩, fun id id' => ⟨?_, ?_, ?_⟩⟩
  · apply nonce_inj_of_width
    rw [decimalDigits, decimalDigits, List.length_map, List.length_map, hwidth]
  · exact List.map_append.symm
  · exact (nonce_mk_inj (by decide) (by decide)).trans (and_iff_left rfl)
  · exact (nonce_mk_inj (by decide) (by decide)).trans (and_iff_left rfl)
  · intro hnonce
    have hsame := (nonce_mk_inj (by decide) (by decide)).mp hnonce
    exact absurd hsame.2 (by decide)

/-- Two types of two digits. With a type of three digits, the first message shares its nonce. -/
theorem nonce_identifies_message_twoDigits :
    (Nat.toDigits 10 (Header.mk 12 34).type.toNat).length =
      (Nat.toDigits 10 (Header.mk 123 40).type.toNat).length ∧
    (Header.mk 12 34).nonce ≠ (Header.mk 123 40).nonce ∧
    (Header.mk 12 34).nonce = (Header.mk 1 234).nonce := by
  have hwidth : (Nat.toDigits 10 (Header.mk 12 34).type.toNat).length =
      (Nat.toDigits 10 (Header.mk 123 40).type.toNat).length := by decide
  refine ⟨hwidth, fun hnonce => ?_, by decide⟩
  have hsame := ((nonce_identifies_message (Header.mk 12 34) (Header.mk 123 40)).1 hwidth).mp hnonce
  exact absurd hsame (by decide)

end Header

end MeshSecurity
