import Mathlib.Data.List.Forall2
import MeshSecurity.Proofs.SealedMessages

/-!
# What is left in a buffer

The caller of the cipher lends it a buffer. An opening that fails leaves zeros there or nothing at
all, so no byte of a payload is seen before its tag has been verified. A sealing that fails leaves
the buffer alone, except where the cipher refuses a payload as too long: the payload then stands in
the buffer as it is. In all cases the engine is given back as it was found.
-/

namespace MeshSecurity

namespace Ccm

variable (cipher : Block → Block) (nonce : Nonce)

/-- Whether a message ends in the tag of what the rest of it decrypts to. -/
def TagVerifies (associated message : List UInt8) : Prop :=
  tag cipher nonce associated (crypt cipher nonce (message.take (message.length - tagLength))) =
    message.drop (message.length - tagLength)

theorem unwrap_eq_none_iff {associated message : List UInt8}
    (htagged : tagLength ≤ message.length) :
    unwrap cipher nonce associated message = none ↔
      maxPayload < message.length - tagLength ∨ ¬ TagVerifies cipher nonce associated message := by
  unfold unwrap
  dsimp only
  by_cases hlong : maxPayload < message.length - tagLength
  · rw [if_neg (by omega)]
    exact iff_of_true rfl (.inl hlong)
  · rw [if_pos ⟨htagged, Nat.le_of_not_lt hlong⟩, ite_eq_right_iff, sameBytes_iff]
    simp [TagVerifies, hlong]

theorem wrap_eq_none_iff {associated payload : List UInt8} :
    wrap cipher nonce associated payload = none ↔ maxPayload < payload.length := by
  unfold wrap
  rw [ite_eq_right_iff]
  simp

end Ccm

namespace Envelope

variable {key : Key} {nonce : Nonce} {associated message payload out : List UInt8}
  {engine : Engine}

/-! ## Writing to the front of a buffer -/

theorem length_overwrite {bytes : List UInt8} (h : bytes.length ≤ out.length) :
    (overwrite out bytes).length = out.length := by
  rw [overwrite, List.length_append, List.length_drop]
  omega

theorem overwrite_eq_self_iff {bytes : List UInt8} : overwrite out bytes = out ↔ bytes <+: out :=
  List.prefix_iff_eq_append.symm

/-- Zeros in front of a buffer: every byte is as it was or zero. -/
theorem forall₂_overwrite_zeros {n : Nat} (h : n ≤ out.length) :
    List.Forall₂ (fun after before => after = before ∨ after = 0)
      (overwrite out (List.replicate n 0)) out := by
  induction n generalizing out with
  | zero => exact List.forall₂_same.mpr fun b _ => .inl rfl
  | succ n ih =>
    cases out with
    | nil => simp at h
    | cons b out => exact .cons (.inr rfl) (ih (Nat.le_of_succ_le_succ h))

/-! ## Before the cipher -/

/-- The buffer has the room that is needed, and nobody else holds the engine. -/
structure Ready (room : Nat) (out : List UInt8) (engine : Engine) : Prop where
  fits : room ≤ out.length
  free : engine.busy = false

/-- What keeps an operation from the cipher, with the error that it is reported as. -/
inductive Hindered (room : Nat) (out : List UInt8) (engine : Engine) : CipherError → Prop
  | crowded (hcrowded : out.length < room) : Hindered room out engine .bufferTooSmall
  | held (hfits : room ≤ out.length) (hbusy : engine.busy = true) :
    Hindered room out engine .busy

theorem Hindered.not_ready {room : Nat} {error : CipherError}
    (h : Hindered room out engine error) : ¬ Ready room out engine := by
  rintro ⟨hfits, hfree⟩
  cases h with
  | crowded hcrowded => exact Nat.not_lt.mpr hfits hcrowded
  | held _ hbusy => exact Bool.false_ne_true (hfree.symm.trans hbusy)

/-! ## Opening -/

/-- Whether a message ends in the tag that belongs to it under the key. -/
def TagVerifies (key : Key) (nonce : Nonce) (associated message : List UInt8) : Prop :=
  Ccm.TagVerifies (Aes.encrypt (Aes.schedule key)) nonce associated message

/-- The ways in which an opening ends. -/
inductive Opening (key : Key) (nonce : Nonce) (associated message out : List UInt8)
    (engine : Engine) : Outcome → Prop
  | untagged (hshort : message.length < Ccm.tagLength) :
    Opening key nonce associated message out engine ⟨.error .authenticationFailed, out, engine⟩
  | hindered (htagged : Ccm.tagLength ≤ message.length) {error : CipherError}
      (hhindered : Hindered (message.length - Ccm.tagLength) out engine error) :
    Opening key nonce associated message out engine ⟨.error error, out, engine⟩
  | cleared (htagged : Ccm.tagLength ≤ message.length)
      (hready : Ready (message.length - Ccm.tagLength) out engine)
      (hrefused : Ccm.maxPayload < message.length - Ccm.tagLength ∨
        ¬ TagVerifies key nonce associated message) :
    Opening key nonce associated message out engine
      ⟨.error .authenticationFailed,
        overwrite out (List.replicate (message.length - Ccm.tagLength) 0), engine⟩
  | opened (payload : List UInt8) (hready : Ready payload.length out engine)
      (hsealed : wrapped key nonce associated payload = some message) :
    Opening key nonce associated message out engine
      ⟨.ok payload.length, overwrite out payload, engine⟩

theorem unwrap_opening (key : Key) (nonce : Nonce) (associated message out : List UInt8)
    (engine : Engine) :
    Opening key nonce associated message out engine
      (unwrap key nonce associated message out engine) := by
  obtain ⟨busy⟩ := engine
  unfold unwrap
  dsimp only
  by_cases hshort : message.length < Ccm.tagLength
  · rw [if_pos hshort]
    exact .untagged hshort
  have htagged := Nat.le_of_not_lt hshort
  by_cases hcrowded : out.length < message.length - Ccm.tagLength
  · rw [if_neg hshort, if_pos hcrowded]
    exact .hindered htagged (.crowded hcrowded)
  have hfits := Nat.le_of_not_lt hcrowded
  rw [if_neg hshort, if_neg hcrowded]
  cases busy with
  | true => exact .hindered htagged (.held hfits rfl)
  | false =>
    simp only [Engine.acquire, if_neg Bool.false_ne_true]
    cases hunwrapped : unwrapped key nonce associated message with
    | some payload =>
      have hlength := length_of_unwrapped hunwrapped
      rw [hlength, Nat.add_sub_cancel] at hfits ⊢
      exact .opened payload ⟨hfits, rfl⟩ (unwrapped_eq_some_iff.mp hunwrapped)
    | none =>
      exact .cleared htagged ⟨hfits, rfl⟩ ((Ccm.unwrap_eq_none_iff _ _ htagged).mp hunwrapped)

theorem not_long_of_wrapped (h : wrapped key nonce associated payload = some message) :
    ¬ Ccm.maxPayload < payload.length := by
  intro hlong
  have hnone : wrapped key nonce associated payload = none :=
    (Ccm.wrap_eq_none_iff _ _).mpr hlong
  rw [h] at hnone
  cases hnone

namespace Opening

variable {o : Outcome}

theorem engine_eq (h : Opening key nonce associated message out engine o) : o.engine = engine := by
  cases h with
  | untagged => rfl
  | hindered => rfl
  | cleared => rfl
  | opened => rfl

/-- A failure leaves zeros in place of the payload if the cipher was asked, and else nothing. -/
theorem of_error (h : Opening key nonce associated message out engine o) {error : CipherError}
    (herror : o.result = .error error) :
    (Ccm.tagLength ≤ message.length ∧ Ready (message.length - Ccm.tagLength) out engine ∧
      (Ccm.maxPayload < message.length - Ccm.tagLength ∨
        ¬ TagVerifies key nonce associated message) ∧
      error = .authenticationFailed ∧
      o.buffer = List.replicate (message.length - Ccm.tagLength) 0 ++
        out.drop (message.length - Ccm.tagLength)) ∨
    ((message.length < Ccm.tagLength ∧ error = .authenticationFailed ∨
        Ccm.tagLength ≤ message.length ∧
          Hindered (message.length - Ccm.tagLength) out engine error) ∧
      o.buffer = out) := by
  cases h with
  | untagged hshort => exact .inr ⟨.inl ⟨hshort, (Except.error.inj herror).symm⟩, rfl⟩
  | hindered htagged hhindered =>
    cases herror
    exact .inr ⟨.inr ⟨htagged, hhindered⟩, rfl⟩
  | cleared htagged hready hrefused =>
    refine .inl ⟨htagged, hready, hrefused, (Except.error.inj herror).symm, ?_⟩
    dsimp only [overwrite]
    rw [List.length_replicate]
  | opened => cases herror

theorem zero_or_kept (h : Opening key nonce associated message out engine o) {error : CipherError}
    (herror : o.result = .error error) :
    List.Forall₂ (fun after before => after = before ∨ after = 0) o.buffer out := by
  cases h with
  | untagged => exact List.forall₂_same.mpr fun b _ => .inl rfl
  | hindered => exact List.forall₂_same.mpr fun b _ => .inl rfl
  | cleared _ hready _ => exact forall₂_overwrite_zeros hready.fits
  | opened => cases herror

theorem of_ok (h : Opening key nonce associated message out engine o) {n : Nat}
    (hok : o.result = .ok n) :
    n = message.length - Ccm.tagLength ∧ o.buffer.length = out.length ∧
      o.buffer.drop n = out.drop n ∧
      wrapped key nonce associated (o.buffer.take n) = some message := by
  cases h with
  | untagged => cases hok
  | hindered => cases hok
  | cleared => cases hok
  | opened payload hready hsealed =>
    cases hok
    have hlength : message.length = payload.length + Ccm.tagLength :=
      Ccm.length_of_wrap _ _ hsealed
    refine ⟨by omega, length_overwrite hready.fits, List.drop_left, ?_⟩
    dsimp only [overwrite]
    rw [List.take_left, hsealed]

end Opening

/-- An opening gives the engine back as it was found. If it fails, every byte of the buffer is as it
was or zero: where the cipher refuses the message, zeros replace the payload, and where it is not
even asked, the buffer stays as it was. If it succeeds, what stands in front of the buffer is the
payload that the message was sealed from, and the rest stays as it was. -/
theorem opening_releases_only_verified (key : Key) (nonce : Nonce)
    (associated message out : List UInt8) (engine : Engine) :
    let o := unwrap key nonce associated message out engine
    let length := message.length - Ccm.tagLength
    o.engine = engine ∧
    (∀ error, o.result = .error error →
      List.Forall₂ (fun after before => after = before ∨ after = 0) o.buffer out ∧
      ((Ccm.tagLength ≤ message.length ∧ Ready length out engine ∧
          (Ccm.maxPayload < length ∨ ¬ TagVerifies key nonce associated message) ∧
          error = .authenticationFailed ∧
          o.buffer = List.replicate length 0 ++ out.drop length) ∨
        ((message.length < Ccm.tagLength ∧ error = .authenticationFailed ∨
            Ccm.tagLength ≤ message.length ∧ Hindered length out engine error) ∧
          o.buffer = out))) ∧
    (∀ n, o.result = .ok n →
      n = length ∧ o.buffer.length = out.length ∧ o.buffer.drop n = out.drop n ∧
      wrapped key nonce associated (o.buffer.take n) = some message) := by
  have hopening := unwrap_opening key nonce associated message out engine
  exact ⟨hopening.engine_eq,
    fun _ herror => ⟨hopening.zero_or_kept herror, hopening.of_error herror⟩,
    fun _ hok => hopening.of_ok hok⟩

/-- A message one byte too long, and a buffer with room for more than its payload. -/
def longMessage : List UInt8 := List.replicate 65544 1

def roomForLong : List UInt8 := List.replicate 65544 0xEE

theorem opening_releases_only_verified_longMessage :
    let o := unwrap (Vector.replicate 16 0x5A) (Nonce.ofMessage 7 0) [] longMessage roomForLong
      .idle
    o.result = .error .authenticationFailed ∧
      o.buffer = List.replicate 65536 0 ++ List.replicate 8 0xEE ∧ o.engine = .idle := by
  have hlength : longMessage.length = 65544 := List.length_replicate
  have hspec := opening_releases_only_verified (Vector.replicate 16 0x5A) (Nonce.ofMessage 7 0) []
    longMessage roomForLong .idle
  dsimp only at hspec ⊢
  generalize unwrap _ _ _ _ _ _ = o at hspec ⊢
  obtain ⟨hengine, hfailed, hopened⟩ := hspec
  cases hresult : o.result with
  | ok n =>
    obtain ⟨-, -, -, hsealed⟩ := hopened n hresult
    have hpayload := Ccm.length_of_wrap _ _ hsealed
    have hshort := not_long_of_wrapped hsealed
    rw [hlength, Ccm.tagLength] at hpayload
    rw [Ccm.maxPayload] at hshort
    omega
  | error error =>
    rcases (hfailed error hresult).2 with ⟨-, -, -, rfl, hbuffer⟩ | ⟨hother, -⟩
    · rw [hlength, roomForLong, List.drop_replicate] at hbuffer
      exact ⟨rfl, hbuffer, hengine⟩
    · exfalso
      rw [hlength] at hother
      rcases hother with ⟨hshort, -⟩ | ⟨-, hhindered⟩
      · exact absurd hshort (by decide)
      · refine hhindered.not_ready ⟨?_, rfl⟩
        rw [roomForLong, List.length_replicate]
        decide

/-! ## Sealing -/

/-- The ways in which a sealing ends. -/
inductive Sealing (key : Key) (nonce : Nonce) (associated payload out : List UInt8)
    (engine : Engine) : Outcome → Prop
  | hindered {error : CipherError}
      (hhindered : Hindered (payload.length + Ccm.tagLength) out engine error) :
    Sealing key nonce associated payload out engine ⟨.error error, out, engine⟩
  | exposed (hready : Ready (payload.length + Ccm.tagLength) out engine)
      (hlong : Ccm.maxPayload < payload.length) :
    Sealing key nonce associated payload out engine
      ⟨.error .internal, overwrite out payload, engine⟩
  | sealed (hready : Ready (payload.length + Ccm.tagLength) out engine) (message : List UInt8)
      (hsealed : wrapped key nonce associated payload = some message) :
    Sealing key nonce associated payload out engine
      ⟨.ok message.length, overwrite out message, engine⟩

theorem wrap_sealing (key : Key) (nonce : Nonce) (associated payload out : List UInt8)
    (engine : Engine) :
    Sealing key nonce associated payload out engine
      (wrap key nonce associated payload out engine) := by
  obtain ⟨busy⟩ := engine
  unfold wrap
  dsimp only
  by_cases hcrowded : out.length < payload.length + Ccm.tagLength
  · rw [if_pos hcrowded]
    exact .hindered (.crowded hcrowded)
  have hfits := Nat.le_of_not_lt hcrowded
  rw [if_neg hcrowded]
  cases busy with
  | true => exact .hindered (.held hfits rfl)
  | false =>
    simp only [Engine.acquire, if_neg Bool.false_ne_true]
    cases hwrapped : wrapped key nonce associated payload with
    | some message =>
      rw [← Ccm.length_of_wrap _ _ hwrapped]
      exact .sealed ⟨hfits, rfl⟩ message hwrapped
    | none => exact .exposed ⟨hfits, rfl⟩ ((Ccm.wrap_eq_none_iff _ _).mp hwrapped)

namespace Sealing

variable {o : Outcome}

theorem engine_eq (h : Sealing key nonce associated payload out engine o) : o.engine = engine := by
  cases h with
  | hindered => rfl
  | exposed => rfl
  | sealed => rfl

theorem of_long (h : Sealing key nonce associated payload out engine o)
    (hready : Ready (payload.length + Ccm.tagLength) out engine)
    (hlong : Ccm.maxPayload < payload.length) :
    o.result = .error .internal ∧ o.buffer = overwrite out payload := by
  cases h with
  | hindered hhindered => exact absurd hready hhindered.not_ready
  | exposed => exact ⟨rfl, rfl⟩
  | sealed _ message hsealed => exact absurd hlong (not_long_of_wrapped hsealed)

/-- The cipher refuses a payload only if it is too long, and nothing else touches the buffer. -/
theorem kept_of_error (h : Sealing key nonce associated payload out engine o)
    (hshort : Ready (payload.length + Ccm.tagLength) out engine →
      ¬ Ccm.maxPayload < payload.length)
    {error : CipherError} (herror : o.result = .error error) : o.buffer = out := by
  cases h with
  | hindered => rfl
  | exposed hready hlong => exact absurd hlong (hshort hready)
  | sealed => cases herror

theorem kept_iff (h : Sealing key nonce associated payload out engine o) :
    (∀ error, o.result = .error error → o.buffer = out) ↔
      ¬ (Ready (payload.length + Ccm.tagLength) out engine ∧ Ccm.maxPayload < payload.length ∧
        ¬ payload <+: out) := by
  constructor
  · rintro hkept ⟨hready, hlong, hnot⟩
    obtain ⟨hresult, hbuffer⟩ := h.of_long hready hlong
    exact hnot (overwrite_eq_self_iff.mp (hbuffer.symm.trans (hkept _ hresult)))
  · intro hnot error herror
    by_cases hlong : Ready (payload.length + Ccm.tagLength) out engine ∧
        Ccm.maxPayload < payload.length
    · rw [(h.of_long hlong.1 hlong.2).2, overwrite_eq_self_iff]
      exact not_not.mp fun hother => hnot ⟨hlong.1, hlong.2, hother⟩
    · exact h.kept_of_error (fun hready hlong' => hlong ⟨hready, hlong'⟩) herror

theorem of_ok (h : Sealing key nonce associated payload out engine o) {n : Nat}
    (hok : o.result = .ok n) :
    n = payload.length + Ccm.tagLength ∧ o.buffer.length = out.length ∧
      o.buffer.drop n = out.drop n ∧
      wrapped key nonce associated payload = some (o.buffer.take n) := by
  cases h with
  | hindered => cases hok
  | exposed => cases hok
  | sealed hready message hsealed =>
    cases hok
    have hlength : message.length = payload.length + Ccm.tagLength :=
      Ccm.length_of_wrap _ _ hsealed
    refine ⟨hlength, length_overwrite (hlength ▸ hready.fits), List.drop_left, ?_⟩
    dsimp only [overwrite]
    rw [List.take_left, hsealed]

end Sealing

/-- A sealing gives the engine back as it was found. The buffer is sure to be as it was after a
failure exactly if it is not the case that a payload too long for the cipher gets as far as it and
does not stand in the buffer already. Such a payload is left there in clear. If a sealing succeeds,
the message stands in front of the buffer, and the rest stays as it was. -/
theorem failed_sealing_keeps_buffer_iff (key : Key) (nonce : Nonce)
    (associated payload out : List UInt8) (engine : Engine) :
    let o := wrap key nonce associated payload out engine
    let room := payload.length + Ccm.tagLength
    o.engine = engine ∧
    ((∀ error, o.result = .error error → o.buffer = out) ↔
      ¬ (Ready room out engine ∧ Ccm.maxPayload < payload.length ∧ ¬ payload <+: out)) ∧
    (Ready room out engine → Ccm.maxPayload < payload.length →
      o.result = .error .internal ∧ o.buffer = payload ++ out.drop payload.length) ∧
    (∀ n, o.result = .ok n →
      n = room ∧ o.buffer.length = out.length ∧ o.buffer.drop n = out.drop n ∧
      wrapped key nonce associated payload = some (o.buffer.take n)) := by
  have hsealing := wrap_sealing key nonce associated payload out engine
  exact ⟨hsealing.engine_eq, hsealing.kept_iff, hsealing.of_long, fun _ hok => hsealing.of_ok hok⟩

/-- A payload one byte too long. -/
def longPayload : List UInt8 := List.replicate 65536 7

theorem ready_longPayload : Ready (longPayload.length + Ccm.tagLength) roomForLong .idle := by
  refine ⟨?_, rfl⟩
  rw [longPayload, roomForLong, List.length_replicate, List.length_replicate]
  decide

theorem maxPayload_lt_longPayload : Ccm.maxPayload < longPayload.length := by
  rw [longPayload, List.length_replicate]
  decide

/-- With a payload that is too long, a busy engine leaves the buffer alone, and a free one does
not. -/
theorem failed_sealing_keeps_buffer_iff_longPayload :
    let held := wrap (Vector.replicate 16 0x5A) (Nonce.ofMessage 7 0) [] longPayload roomForLong
      ⟨true⟩
    let free := wrap (Vector.replicate 16 0x5A) (Nonce.ofMessage 7 0) [] longPayload roomForLong
      .idle
    held.buffer = roomForLong ∧ held.engine = ⟨true⟩ ∧
      free.result = .error .internal ∧ free.buffer.take longPayload.length = longPayload ∧
      free.engine = .idle := by
  have hheld := failed_sealing_keeps_buffer_iff (Vector.replicate 16 0x5A) (Nonce.ofMessage 7 0) []
    longPayload roomForLong ⟨true⟩
  have hfree := failed_sealing_keeps_buffer_iff (Vector.replicate 16 0x5A) (Nonce.ofMessage 7 0) []
    longPayload roomForLong .idle
  dsimp only at hheld hfree ⊢
  generalize wrap _ _ _ _ _ ⟨true⟩ = held at hheld ⊢
  generalize wrap _ _ _ _ _ .idle = free at hfree ⊢
  obtain ⟨hengine, hkeeps, -, hsealed⟩ := hheld
  obtain ⟨hengine', -, hexposed, -⟩ := hfree
  obtain ⟨hresult, hbuffer⟩ := hexposed ready_longPayload maxPayload_lt_longPayload
  have hkept : held.buffer = roomForLong := by
    cases hresult : held.result with
    | ok n =>
      obtain ⟨-, -, -, hmessage⟩ := hsealed n hresult
      exact absurd maxPayload_lt_longPayload (not_long_of_wrapped hmessage)
    | error error => exact hkeeps.mpr (fun h => Bool.noConfusion h.1.free) error hresult
  refine ⟨hkept, hengine, hresult, ?_, hengine'⟩
  rw [hbuffer, List.take_left]

theorem buffer_exposes_longPayload :
    let o := wrap (Vector.replicate 16 0x5A) (Nonce.ofMessage 7 0) [] longPayload roomForLong .idle
    o.result = .error .internal ∧ o.buffer.take longPayload.length = longPayload ∧
      o.buffer ≠ roomForLong := by
  have hsealing := wrap_sealing (Vector.replicate 16 0x5A) (Nonce.ofMessage 7 0) [] longPayload
    roomForLong .idle
  obtain ⟨hresult, hbuffer⟩ := hsealing.of_long ready_longPayload maxPayload_lt_longPayload
  dsimp only
  rw [hbuffer]
  refine ⟨hresult, List.take_left, fun hsame => ?_⟩
  have hmem : (7 : UInt8) ∈ longPayload := List.mem_replicate.mpr ⟨by decide, rfl⟩
  have hroom := (overwrite_eq_self_iff.mp hsame).subset hmem
  exact absurd (List.eq_of_mem_replicate hroom) (by decide)

end Envelope

end MeshSecurity
