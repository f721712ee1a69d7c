import MeshSecurity.Proofs.RequestReplay

/-!
# Which requests are accepted

A request is accepted exactly if it is the sealed form of an address and a secret, not too long, and
its id is above the last accepted one. What is refused is told apart in a fixed order: it is not
authentic, not fresh, or not a request. An id is used up by every message that passes the first two
checks and by no other, so the ids that are used up rise along any sequence of messages.
-/

namespace MeshSecurity.Endpoint

variable {width : Nat}

/-- Whether a message is the sealed form of a payload that is not too long for a request. -/
def Carries (key : Key) (h : Header) (payload message : List UInt8) : Prop :=
  payload.length ≤ Request.maxPayload ∧ Envelope.wrapped key h.nonce [] payload = some message

/-- Whether an id is above that of the last accepted message, if there was one. -/
def Newer (id : UInt16) (e : Endpoint) : Prop := ∀ last, e.lastId = some last → last < id

theorem isFresh_iff_newer {id : UInt16} {e : Endpoint} : e.isFresh id = true ↔ e.Newer id := by
  obtain ⟨key, last⟩ := e
  cases last with
  | none => simp [isFresh, Newer]
  | some last => simp [isFresh, Newer]

theorem authentic_eq_some_iff {h : Header} {message payload : List UInt8} {e : Endpoint} :
    e.authentic h message = some payload ↔ Carries e.key h payload message := by
  unfold authentic Carries
  rw [← Envelope.unwrapped_eq_some_iff]
  constructor
  · intro hauthentic
    split at hauthentic
    · rename_i hshort
      have hlength := Envelope.length_of_unwrapped hauthentic
      exact ⟨Nat.le_of_add_le_add_right (hlength ▸ hshort), hauthentic⟩
    · cases hauthentic
  · rintro ⟨hshort, hopen⟩
    have hlength := Envelope.length_of_unwrapped hopen
    rw [if_pos (hlength ▸ Nat.add_le_add_right hshort Ccm.tagLength), hopen]

/-- A message that is not too long carries whatever it is sealed from. -/
theorem carries_iff {key : Key} {h : Header} {payload message : List UInt8} :
    Carries key h payload message ↔ message.length ≤ Request.maxSealed ∧
      Envelope.wrapped key h.nonce [] payload = some message := by
  apply and_congr_left
  intro hsealed
  rw [Ccm.length_of_wrap _ _ hsealed, Request.maxSealed]
  exact (Nat.add_le_add_iff_right (n := Ccm.tagLength)).symm

/-! ## The four outcomes -/

theorem receive_of_forged {h : Header} {message : List UInt8} {e : Endpoint}
    (hforged : ∀ payload, ¬ Carries e.key h payload message) :
    e.receive width h message .idle = (.error .authenticationFailed, e, .idle) := by
  have hnone : e.authentic h message = none := by
    rw [Option.eq_none_iff_forall_ne_some]
    intro payload hauthentic
    exact hforged payload (authentic_eq_some_iff.mp hauthentic)
  rw [receive_of_idle, hnone]

theorem receive_of_stale {h : Header} {message payload : List UInt8} {e : Endpoint}
    (hcarries : Carries e.key h payload message) (hstale : ¬ e.Newer h.id) :
    e.receive width h message .idle = (.error .staleMessage, e, .idle) := by
  have hfresh : e.isFresh h.id = false := by
    rw [← Bool.not_eq_true]
    exact fun hfresh => hstale (isFresh_iff_newer.mp hfresh)
  rw [receive_of_idle, authentic_eq_some_iff.mpr hcarries]
  dsimp only
  rw [accept_of_stale hfresh]

theorem receive_of_malformed {h : Header} {message payload : List UInt8} {e : Endpoint}
    (hcarries : Carries e.key h payload message) (hnewer : e.Newer h.id)
    (hshort : payload.length < width) :
    e.receive width h message .idle =
      (.error .malformedRequest, { e with lastId := some h.id }, .idle) := by
  have hnone : Request.ofPayload? width payload = none := by
    rw [← Option.not_isSome_iff_eq_none, Request.isSome_ofPayload?_iff]
    exact Nat.not_le.mpr hshort
  rw [receive_of_idle, authentic_eq_some_iff.mpr hcarries]
  dsimp only
  rw [accept, if_pos (isFresh_iff_newer.mpr hnewer), hnone]

theorem receive_of_request {h : Header} {message : List UInt8} {e : Endpoint}
    {request : Request width} (hcarries : Carries e.key h request.payload message)
    (hnewer : e.Newer h.id) :
    e.receive width h message .idle =
      (.ok request, { e with lastId := some h.id }, .idle) := by
  have hsome : Request.ofPayload? width request.payload = some request :=
    Request.ofPayload?_eq_some_iff.mpr rfl
  rw [receive_of_idle, authentic_eq_some_iff.mpr hcarries]
  dsimp only
  rw [accept, if_pos (isFresh_iff_newer.mpr hnewer), hsome]

/-- One of four things is true of a message, each with an outcome of its own. -/
theorem message_cases (width : Nat) (h : Header) (message : List UInt8) (e : Endpoint) :
    (∀ payload, ¬ Carries e.key h payload message) ∨
    ∃ payload, Carries e.key h payload message ∧
      (¬ e.Newer h.id ∨ e.Newer h.id ∧ payload.length < width ∨
        e.Newer h.id ∧ ∃ request : Request width, request.payload = payload) := by
  by_cases hcarries : ∃ payload, Carries e.key h payload message
  · obtain ⟨payload, hcarries⟩ := hcarries
    refine .inr ⟨payload, hcarries, ?_⟩
    by_cases hnewer : e.Newer h.id
    · by_cases hshort : payload.length < width
      · exact .inr (.inl ⟨hnewer, hshort⟩)
      · have hread := Request.isSome_ofPayload?_iff.mpr (Nat.not_lt.mp hshort)
        obtain ⟨request, hrequest⟩ := Option.isSome_iff_exists.mp hread
        exact .inr (.inr ⟨hnewer, request, Request.ofPayload?_eq_some_iff.mp hrequest⟩)
    · exact .inl hnewer
  · exact .inl fun payload h => hcarries ⟨payload, h⟩

/-! ## The ids that are used up -/

/-- Whether a result shows that the id of the message was used up. -/
def usesUp : Except Error (Request width) → Bool
  | .ok _ => true
  | .error e => e == .malformedRequest

theorem usesUp_iff {result : Except Error (Request width)} :
    usesUp result = true ↔
      (∃ request, result = .ok request) ∨ result = .error .malformedRequest := by
  cases result with
  | ok request => simp [usesUp]
  | error e => simp [usesUp]

/-- With an idle engine, a message uses up an id that is newer than the last one, or the receiver
stays as it is. -/
theorem receive_state (width : Nat) (h : Header) (message : List UInt8) (e : Endpoint) :
    (usesUp (e.receive width h message .idle).1 = true ∧ e.Newer h.id ∧
      (e.receive width h message .idle).2 = ({ e with lastId := some h.id }, .idle)) ∨
    (usesUp (e.receive width h message .idle).1 = false ∧
      (e.receive width h message .idle).2 = (e, .idle)) := by
  rcases message_cases width h message e with
    hforged | ⟨payload, hcarries, hstale | ⟨hnewer, hshort⟩ | ⟨hnewer, request, rfl⟩⟩
  · rw [receive_of_forged hforged]
    exact .inr ⟨rfl, rfl⟩
  · rw [receive_of_stale hcarries hstale]
    exact .inr ⟨rfl, rfl⟩
  · rw [receive_of_malformed hcarries hnewer hshort]
    exact .inl ⟨rfl, hnewer, rfl⟩
  · rw [receive_of_request hcarries hnewer]
    exact .inl ⟨rfl, hnewer, rfl⟩

/-- Whatever engine it finds, a delivery uses up a newer id or leaves the receiver as it is. -/
theorem usesUp_cases (width : Nat) (d : Delivery) (e : Endpoint) :
    (usesUp (e.receive width d.header d.message d.engine).1 = true ∧ e.Newer d.header.id ∧
      e.after width d = { e with lastId := some d.header.id }) ∨
    (usesUp (e.receive width d.header d.message d.engine).1 = false ∧ e.after width d = e) := by
  obtain ⟨h, message, ⟨busy⟩⟩ := d
  unfold after
  cases busy with
  | true =>
    obtain ⟨error, herror, hreceive⟩ := refused_of_busy width h message e
    rw [hreceive]
    refine .inr ⟨?_, rfl⟩
    rcases herror with rfl | rfl
    · rfl
    · rfl
  | false =>
    rcases receive_state width h message e with ⟨hused, hnewer, hstate⟩ | ⟨hkept, hstate⟩
    · exact .inl ⟨hused, hnewer, congrArg (·.1) hstate⟩
    · exact .inr ⟨hkept, congrArg (·.1) hstate⟩

theorem used_of_usesUp {d : Delivery} {e : Endpoint}
    (hused : usesUp (e.receive width d.header d.message d.engine).1 = true) :
    e.Newer d.header.id ∧ e.after width d = { e with lastId := some d.header.id } := by
  rcases usesUp_cases width d e with ⟨-, hnewer, hafter⟩ | ⟨hkept, -⟩
  · exact ⟨hnewer, hafter⟩
  · rw [hkept] at hused
    cases hused

/-- The ids that a sequence of deliveries uses up, in order. -/
def usedIds (width : Nat) : List Delivery → Endpoint → List UInt16
  | [], _ => []
  | d :: ds, e =>
    (if usesUp (e.receive width d.header d.message d.engine).1 then [d.header.id] else []) ++
      usedIds width ds (e.after width d)

theorem Newer.of_after {d : Delivery} {e : Endpoint} {id : UInt16}
    (h : (e.after width d).Newer id) : e.Newer id := by
  apply isFresh_iff_newer.mp
  exact isFresh_of_after (isFresh_iff_newer.mpr h)

theorem newer_of_mem_usedIds {ds : List Delivery} {e : Endpoint} {id : UInt16}
    (h : id ∈ usedIds width ds e) : e.Newer id := by
  induction ds generalizing e with
  | nil => cases h
  | cons d ds ih =>
    rw [usedIds, List.mem_append] at h
    rcases h with hfirst | hrest
    · rcases usesUp_cases width d e with ⟨hused, hnewer, -⟩ | ⟨hkept, -⟩
      · rw [if_pos hused, List.mem_singleton] at hfirst
        rwa [hfirst]
      · rw [hkept] at hfirst
        cases hfirst
    · exact (ih hrest).of_after

/-- The ids that are used up rise strictly: each is newer than what the receiver has seen. -/
theorem pairwise_usedIds (ds : List Delivery) (e : Endpoint) :
    (usedIds width ds e).Pairwise (· < ·) := by
  induction ds generalizing e with
  | nil => exact List.Pairwise.nil
  | cons d ds ih =>
    rw [usedIds]
    rcases usesUp_cases width d e with ⟨hused, -, hafter⟩ | ⟨hkept, hafter⟩
    · rw [if_pos hused, List.singleton_append, List.pairwise_cons]
      refine ⟨?_, ih _⟩
      intro id hid
      have hnewer := newer_of_mem_usedIds hid
      rw [hafter] at hnewer
      exact hnewer d.header.id rfl
    · rw [hkept, if_neg Bool.false_ne_true, List.nil_append]
      exact ih _

/-! ## The verdict on a message -/

/-- What is answered to a message: it is a request if it is the sealed form of one, not too long,
under a newer id. What is not authentic is refused first, then what is not newer, and at last what
is too short to name a peer. -/
inductive Verdict (e : Endpoint) (h : Header) (message : List UInt8) :
    Except Error (Request width) → Prop
  | accepted {request : Request width}
      (hsealed : Envelope.wrapped e.key h.nonce [] request.payload = some message)
      (hlength : request.payload.length ≤ Request.maxPayload) (hnewer : e.Newer h.id) :
      Verdict e h message (.ok request)
  | forged
      (hforged : Request.maxSealed < message.length ∨
        ∀ payload, Envelope.wrapped e.key h.nonce [] payload ≠ some message) :
      Verdict e h message (.error .authenticationFailed)
  | stale {payload : List UInt8} (hcarries : Carries e.key h payload message)
      (hstale : ¬ e.Newer h.id) : Verdict e h message (.error .staleMessage)
  | malformed {payload : List UInt8} (hcarries : Carries e.key h payload message)
      (hnewer : e.Newer h.id) (hshort : payload.length < width) :
      Verdict e h message (.error .malformedRequest)

theorem forged_iff {key : Key} {h : Header} {message : List UInt8} :
    (Request.maxSealed < message.length ∨
        ∀ payload, Envelope.wrapped key h.nonce [] payload ≠ some message) ↔
      ∀ payload, ¬ Carries key h payload message := by
  constructor
  · rintro (hlong | hforged) payload hcarries
    · exact Nat.not_le.mpr hlong (carries_iff.mp hcarries).1
    · exact hforged payload hcarries.2
  · intro hnone
    by_cases hlong : Request.maxSealed < message.length
    · exact .inl hlong
    · refine .inr fun payload hsealed => hnone payload ?_
      exact carries_iff.mpr ⟨Nat.not_lt.mp hlong, hsealed⟩

theorem receive_eq_iff_verdict {h : Header} {message : List UInt8} {e : Endpoint}
    {result : Except Error (Request width)} :
    (e.receive width h message .idle).1 = result ↔ Verdict e h message result := by
  constructor
  · rintro rfl
    rcases message_cases width h message e with
      hforged | ⟨payload, hcarries, hstale | ⟨hnewer, hshort⟩ | ⟨hnewer, request, rfl⟩⟩
    · rw [receive_of_forged hforged]
      exact .forged (forged_iff.mpr hforged)
    · rw [receive_of_stale hcarries hstale]
      exact .stale hcarries hstale
    · rw [receive_of_malformed hcarries hnewer hshort]
      exact .malformed hcarries hnewer hshort
    · rw [receive_of_request hcarries hnewer]
      exact .accepted hcarries.2 hcarries.1 hnewer
  · intro hverdict
    cases hverdict with
    | accepted hsealed hlength hnewer => rw [receive_of_request ⟨hlength, hsealed⟩ hnewer]
    | forged hforged => rw [receive_of_forged (forged_iff.mp hforged)]
    | stale hcarries hstale => rw [receive_of_stale hcarries hstale]
    | malformed hcarries hnewer hshort => rw [receive_of_malformed hcarries hnewer hshort]

/-- With an idle engine, the result is exactly the verdict on the message. Its id becomes the last
accepted one if it is accepted or malformed, and the receiver stays as it is in all other cases.
Along any sequence of deliveries the ids that are used up rise strictly, from the last accepted one
on. -/
theorem acceptance_exact (h : Header) (message : List UInt8) (e : Endpoint) :
    (∀ result : Except Error (Request width),
      (e.receive width h message .idle).1 = result ↔ Verdict e h message result) ∧
    (((∃ request, (e.receive width h message .idle).1 = .ok request) ∨
        (e.receive width h message .idle).1 = .error .malformedRequest) ∧
      (e.receive width h message .idle).2 = ({ e with lastId := some h.id }, .idle) ∨
    ¬ ((∃ request, (e.receive width h message .idle).1 = .ok request) ∨
        (e.receive width h message .idle).1 = .error .malformedRequest) ∧
      (e.receive width h message .idle).2 = (e, .idle)) ∧
    ∀ ds : List Delivery, (usedIds width ds e).Pairwise (· < ·) ∧
      ∀ id ∈ usedIds width ds e, e.Newer id := by
  refine ⟨fun result => receive_eq_iff_verdict, ?_, ?_⟩
  · rw [← usesUp_iff]
    rcases receive_state width h message e with ⟨hused, -, hstate⟩ | ⟨hkept, hstate⟩
    · exact .inl ⟨hused, hstate⟩
    · exact .inr ⟨by simp [hkept], hstate⟩
  · intro ds
    exact ⟨pairwise_usedIds ds e, fun id hid => newer_of_mem_usedIds hid⟩

/-- After message 5, a request is presented twice as message 6: its id is used up once. -/
theorem acceptance_exact_afterFive :
    let e : Endpoint := ⟨demonstrationKey, some 5⟩
    let request : Request 8 := ⟨.repeated 9, [1, 2, 3]⟩
    ∃ message,
      Envelope.wrapped demonstrationKey (Header.mk 6 0).nonce [] request.payload = some message ∧
      (e.receive 8 ⟨6, 0⟩ message .idle).1 = .ok request ∧
      (e.receive 8 ⟨6, 0⟩ message .idle).2 = (⟨demonstrationKey, some 6⟩, .idle) ∧
      6 ∈ usedIds 8 [⟨⟨6, 0⟩, message, .idle⟩, ⟨⟨6, 0⟩, message, .idle⟩] e ∧
      (usedIds 8 [⟨⟨6, 0⟩, message, .idle⟩, ⟨⟨6, 0⟩, message, .idle⟩] e).Pairwise (· < ·) ∧
      e.Newer 6 := by
  intro e request
  obtain ⟨message, hsealed⟩ := Envelope.exists_wrapped demonstrationKey (Header.mk 6 0).nonce []
    (show request.payload.length ≤ Ccm.maxPayload by decide)
  have hnewer : e.Newer 6 := isFresh_iff_newer.mp rfl
  obtain ⟨hresult, hstate, hsequence⟩ := @acceptance_exact 8 ⟨6, 0⟩ message e
  have hok := (hresult (.ok request)).mpr (.accepted hsealed (by decide) hnewer)
  have hused := hstate.resolve_right fun hkept => hkept.1 (.inl ⟨request, hok⟩)
  obtain ⟨hpairwise, hrise⟩ := hsequence [⟨⟨6, 0⟩, message, .idle⟩, ⟨⟨6, 0⟩, message, .idle⟩]
  have hmem : 6 ∈ usedIds 8 [⟨⟨6, 0⟩, message, .idle⟩, ⟨⟨6, 0⟩, message, .idle⟩] e := by
    rw [usedIds, if_pos (usesUp_iff.mpr (.inl ⟨request, hok⟩))]
    exact List.mem_append_left _ (List.mem_singleton.mpr rfl)
  exact ⟨message, hsealed, hok, hused.2, hmem, hpairwise, hrise 6 hmem⟩

end MeshSecurity.Endpoint
