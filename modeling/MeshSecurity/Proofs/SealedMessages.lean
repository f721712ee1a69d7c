import MeshSecurity.Cipher.Envelope

/-!
# What opens as what

For any block cipher, nonce and associated data, a message opens as the one payload it is the
sealed form of, and opens as nothing if there is none. On the shared engine the same holds while
nobody else has it, of what then stands in the buffers.
-/

namespace MeshSecurity

theorem foldl_or_eq_zero {l : List UInt8} {x : UInt8} :
    l.foldl (· ||| ·) x = 0 ↔ x = 0 ∧ ∀ y ∈ l, y = 0 := by
  induction l generalizing x with
  | nil => simp
  | cons y l ih =>
    rw [List.foldl_cons, ih, UInt8.or_eq_zero_iff, List.forall_mem_cons, and_assoc]

theorem sameBytes_iff {a b : List UInt8} : sameBytes a b = true ↔ a = b := by
  have hzip (h : a.length = b.length) :
      (∀ y ∈ List.zipWith (· ^^^ ·) a b, y = 0) ↔ a = b := by
    induction a generalizing b with
    | nil =>
      rw [List.eq_nil_of_length_eq_zero h.symm]
      simp
    | cons x a ih =>
      cases b with
      | nil => cases h
      | cons y b =>
        rw [List.zipWith_cons_cons, List.forall_mem_cons, UInt8.xor_eq_zero_iff,
          ih (Nat.succ.inj h), List.cons.injEq]
  rw [sameBytes, Bool.and_eq_true, beq_iff_eq, beq_iff_eq, foldl_or_eq_zero]
  constructor
  · rintro ⟨hlength, -, hzero⟩
    exact (hzip hlength).mp hzero
  · rintro rfl
    exact ⟨rfl, rfl, (hzip rfl).mpr rfl⟩

namespace Ccm

variable (cipher : Block → Block) (nonce : Nonce)

theorem length_flatMap_blocks {α : Type} (l : List α) (f : α → Block) :
    (l.flatMap fun a => (f a).toList).length = 16 * l.length := by
  induction l with
  | nil => rfl
  | cons a l ih =>
    rw [List.flatMap_cons, List.length_append, ih, Vector.length_toList, List.length_cons]
    omega

theorem length_le_stream (payload : List UInt8) :
    payload.length ≤ ((List.range ((payload.length + 15) / 16)).flatMap fun i =>
      (cipher (counterBlock nonce (i + 1))).toList).length := by
  rw [length_flatMap_blocks, List.length_range]
  omega

@[simp] theorem length_crypt (payload : List UInt8) :
    (crypt cipher nonce payload).length = payload.length := by
  rw [crypt, List.length_zipWith]
  exact Nat.min_eq_left (length_le_stream cipher nonce payload)

theorem zipWith_xor_cancel {payload stream : List UInt8} (h : payload.length ≤ stream.length) :
    List.zipWith (· ^^^ ·) (List.zipWith (· ^^^ ·) payload stream) stream = payload := by
  induction payload generalizing stream with
  | nil => rfl
  | cons x payload ih =>
    cases stream with
    | nil => simp at h
    | cons s stream =>
      rw [List.zipWith_cons_cons, List.zipWith_cons_cons, ih (Nat.le_of_succ_le_succ h),
        UInt8.xor_assoc, UInt8.xor_self, UInt8.xor_zero]

/-- To decrypt is to encrypt again: the stream depends on the length of the payload alone. -/
@[simp] theorem crypt_crypt (payload : List UInt8) :
    crypt cipher nonce (crypt cipher nonce payload) = payload := by
  have hlength := length_crypt cipher nonce payload
  rw [crypt, hlength]
  exact zipWith_xor_cancel (length_le_stream cipher nonce payload)

@[simp] theorem length_tag (associated payload : List UInt8) :
    (tag cipher nonce associated payload).length = tagLength := by
  rw [tag, List.length_take, Vector.length_toList]
  rfl

theorem length_of_wrap {associated payload message : List UInt8}
    (h : wrap cipher nonce associated payload = some message) :
    message.length = payload.length + tagLength := by
  unfold wrap at h
  split at h
  · cases h
    rw [List.length_append, length_crypt, length_tag]
  · cases h

theorem unwrap_of_wrap {associated payload message : List UInt8}
    (h : wrap cipher nonce associated payload = some message) :
    unwrap cipher nonce associated message = some payload := by
  have hlength := length_of_wrap cipher nonce h
  unfold wrap at h
  split at h
  · rename_i hshort
    cases h
    have htake : (crypt cipher nonce payload ++ tag cipher nonce associated payload).take
        payload.length = crypt cipher nonce payload := by
      rw [List.take_append_of_le_length (by simp), List.take_of_length_le (by simp)]
    have hdrop : (crypt cipher nonce payload ++ tag cipher nonce associated payload).drop
        payload.length = tag cipher nonce associated payload :=
      List.drop_left' (length_crypt cipher nonce payload)
    rw [unwrap, hlength, Nat.add_sub_cancel, if_pos ⟨Nat.le_add_left _ _, hshort⟩, htake, hdrop,
      crypt_crypt, if_pos (sameBytes_iff.mpr rfl)]
  · cases h

theorem wrap_of_unwrap {associated payload message : List UInt8}
    (h : unwrap cipher nonce associated message = some payload) :
    wrap cipher nonce associated payload = some message := by
  unfold unwrap at h
  dsimp only at h
  split at h
  · rename_i hbounds
    split at h
    · rename_i htag
      cases h
      have htake : (message.take (message.length - tagLength)).length =
          message.length - tagLength := by rw [List.length_take]; omega
      rw [wrap, length_crypt, htake, if_pos hbounds.2, crypt_crypt, sameBytes_iff.mp htag,
        List.take_append_drop]
    · cases h
  · cases h

/-- A message opens as a payload exactly if it is the sealed form of it. -/
theorem unwrap_eq_some_iff {associated payload message : List UInt8} :
    unwrap cipher nonce associated message = some payload ↔
      wrap cipher nonce associated payload = some message :=
  ⟨wrap_of_unwrap cipher nonce, unwrap_of_wrap cipher nonce⟩

end Ccm

namespace Envelope

variable {key : Key} {nonce : Nonce} {associated message payload : List UInt8}

theorem length_of_unwrapped (h : unwrapped key nonce associated message = some payload) :
    message.length = payload.length + Ccm.tagLength :=
  Ccm.length_of_wrap _ nonce (Ccm.wrap_of_unwrap _ nonce h)

theorem unwrap_of_some (h : unwrapped key nonce associated message = some payload)
    {out : List UInt8} (hout : payload.length ≤ out.length) :
    unwrap key nonce associated message out .idle =
      ⟨.ok payload.length, overwrite out payload, .idle⟩ := by
  have hlength := length_of_unwrapped h
  unfold unwrap
  dsimp only
  rw [if_neg (by omega), if_neg (by omega), h, hlength, Nat.add_sub_cancel]
  rfl

theorem unwrap_of_none (h : unwrapped key nonce associated message = none) (out : List UInt8) :
    ∃ error buffer, error ≠ .busy ∧
      unwrap key nonce associated message out .idle = ⟨.error error, buffer, .idle⟩ := by
  unfold unwrap
  dsimp only
  split
  · exact ⟨_, _, by decide, rfl⟩
  · split
    · exact ⟨_, _, by decide, rfl⟩
    · rw [h]
      exact ⟨_, _, by decide, rfl⟩

theorem unwrap_of_busy (key : Key) (nonce : Nonce) (associated message out : List UInt8) :
    ∃ error buffer,
      unwrap key nonce associated message out ⟨true⟩ = ⟨.error error, buffer, ⟨true⟩⟩ := by
  unfold unwrap
  dsimp only
  split
  · exact ⟨_, _, rfl⟩
  · split
    · exact ⟨_, _, rfl⟩
    · exact ⟨_, _, rfl⟩

theorem wrap_of_some (h : wrapped key nonce associated payload = some message)
    {out : List UInt8} (hout : payload.length + Ccm.tagLength ≤ out.length) :
    wrap key nonce associated payload out .idle =
      ⟨.ok message.length, overwrite out message, .idle⟩ := by
  unfold wrap
  dsimp only
  rw [if_neg (Nat.not_lt.mpr hout), h, Ccm.length_of_wrap _ _ h]
  rfl

theorem wrap_of_none (h : wrapped key nonce associated payload = none) (out : List UInt8) :
    ∃ error buffer,
      wrap key nonce associated payload out .idle = ⟨.error error, buffer, .idle⟩ := by
  unfold wrap
  dsimp only
  split
  · exact ⟨_, _, rfl⟩
  · rw [h]
    exact ⟨_, _, rfl⟩

theorem exists_wrapped (key : Key) (nonce : Nonce) (associated : List UInt8)
    (hshort : payload.length ≤ Ccm.maxPayload) :
    ∃ message, wrapped key nonce associated payload = some message :=
  ⟨_, if_pos hshort⟩

/-- Whether an operation succeeds and leaves exactly these bytes at the front of its buffer. -/
def Outcome.Yields (o : Outcome) (bytes : List UInt8) : Prop :=
  o.result = .ok bytes.length ∧ o.buffer.take bytes.length = bytes

theorem Outcome.yields_overwrite {bytes other out : List UInt8} {engine : Engine} :
    (Outcome.mk (.ok bytes.length) (overwrite out bytes) engine).Yields other ↔ bytes = other := by
  constructor
  · rintro ⟨hresult, htake⟩
    have hlength : bytes.length = other.length := Except.ok.inj hresult
    dsimp only [overwrite] at htake
    rwa [← hlength, List.take_left] at htake
  · rintro rfl
    exact ⟨rfl, List.take_left⟩

theorem Outcome.not_yields_error {error : CipherError} {buffer bytes : List UInt8}
    {engine : Engine} : ¬ (Outcome.mk (.error error) buffer engine).Yields bytes := by
  rintro ⟨hresult, -⟩
  cases hresult

theorem wrap_yields_iff {out : List UInt8} (hout : payload.length + Ccm.tagLength ≤ out.length) :
    (wrap key nonce associated payload out .idle).Yields message ↔
      wrapped key nonce associated payload = some message := by
  cases hwrapped : wrapped key nonce associated payload with
  | some message' =>
    rw [wrap_of_some hwrapped hout, Outcome.yields_overwrite, Option.some.injEq]
  | none =>
    obtain ⟨error, buffer, hwrap⟩ := wrap_of_none hwrapped out
    rw [hwrap]
    exact iff_of_false Outcome.not_yields_error (by simp)

theorem unwrap_yields_iff {out : List UInt8}
    (hout : message.length - Ccm.tagLength ≤ out.length) :
    (unwrap key nonce associated message out .idle).Yields payload ↔
      unwrapped key nonce associated message = some payload := by
  cases hunwrapped : unwrapped key nonce associated message with
  | some payload' =>
    have hlength := length_of_unwrapped hunwrapped
    rw [unwrap_of_some hunwrapped (by omega), Outcome.yields_overwrite, Option.some.injEq]
  | none =>
    obtain ⟨error, buffer, -, hunwrap⟩ := unwrap_of_none hunwrapped out
    rw [hunwrap]
    exact iff_of_false Outcome.not_yields_error (by simp)

theorem unwrapped_eq_some_iff : unwrapped key nonce associated message = some payload ↔
    wrapped key nonce associated payload = some message :=
  Ccm.unwrap_eq_some_iff _ nonce

/-- In buffers with enough room, a message opens as a payload exactly if the payload is sealed as
that message. Every payload that is short enough is sealed and opens again, and what opens at all
was sealed. -/
theorem opens_iff_sealed {out out' : List UInt8} (hshort : payload.length ≤ Ccm.maxPayload)
    (hout : payload.length + Ccm.tagLength ≤ out.length)
    (hout' : message.length - Ccm.tagLength ≤ out'.length) :
    ((unwrap key nonce associated message out' .idle).Yields payload ↔
      (wrap key nonce associated payload out .idle).Yields message) ∧
    (∃ sealed, (wrap key nonce associated payload out .idle).Yields sealed ∧
      ∀ room : List UInt8, payload.length ≤ room.length →
        (unwrap key nonce associated sealed room .idle).Yields payload) ∧
    ∀ n, (unwrap key nonce associated message out' .idle).result = .ok n →
      ∃ opened, (unwrap key nonce associated message out' .idle).Yields opened ∧
        ∀ room : List UInt8, opened.length + Ccm.tagLength ≤ room.length →
          (wrap key nonce associated opened room .idle).Yields message := by
  refine ⟨?_, ?_, ?_⟩
  · rw [unwrap_yields_iff hout', wrap_yields_iff hout]
    exact unwrapped_eq_some_iff
  · obtain ⟨sealed, hsealed⟩ := exists_wrapped key nonce associated hshort
    refine ⟨sealed, (wrap_yields_iff hout).mpr hsealed, fun room hroom => ?_⟩
    apply (unwrap_yields_iff _).mpr (unwrapped_eq_some_iff.mpr hsealed)
    rwa [Ccm.length_of_wrap _ _ hsealed, Nat.add_sub_cancel]
  · intro n hok
    cases hopened : unwrapped key nonce associated message with
    | some opened =>
      refine ⟨opened, (unwrap_yields_iff hout').mpr hopened, fun room hroom => ?_⟩
      exact (wrap_yields_iff hroom).mpr (unwrapped_eq_some_iff.mp hopened)
    | none =>
      obtain ⟨error, buffer, -, hunwrap⟩ := unwrap_of_none hopened out'
      rw [hunwrap] at hok
      cases hok

/-- A payload that ends within a block, with associated data. -/
theorem opens_iff_sealed_twentyBytes :
    let key : Key := Vector.replicate 16 0x5A
    let nonce : Nonce := Vector.replicate 13 7
    let payload : List UInt8 := List.replicate 20 3
    ∃ message : List UInt8,
      payload.length ≤ Ccm.maxPayload ∧
      payload.length + Ccm.tagLength ≤ (List.replicate 40 (0 : UInt8)).length ∧
      message.length - Ccm.tagLength ≤ (List.replicate 20 (0 : UInt8)).length ∧
      (wrap key nonce [1, 2, 3] payload (List.replicate 40 0) .idle).Yields message ∧
      (unwrap key nonce [1, 2, 3] message (List.replicate 20 0) .idle).Yields payload := by
  intro key nonce payload
  obtain ⟨message, hsealed⟩ :=
    exists_wrapped key nonce [1, 2, 3] (show payload.length ≤ Ccm.maxPayload by decide)
  have hlength : message.length = 28 := Ccm.length_of_wrap _ _ hsealed
  have hout : payload.length + Ccm.tagLength ≤ (List.replicate 40 (0 : UInt8)).length := by decide
  have hout' : message.length - Ccm.tagLength ≤ (List.replicate 20 (0 : UInt8)).length := by
    rw [hlength]
    decide
  have hyields := (wrap_yields_iff hout).mpr hsealed
  exact ⟨message, by decide, hout, hout', hyields,
    (opens_iff_sealed (by decide) hout hout').1.mpr hyields⟩

end Envelope

end MeshSecurity
