import MeshSecurity.Proofs.RequestEquivalence

/-!
# Requests that fail

A request fails if the cipher engine is held or if its answer does not fit into the response buffer.
The engine is needed before anything is done, so a failure for its sake has no effect. The buffer is
looked at last, when the request has been carried out and its id is used up: only where there was
nothing to carry out does that failure leave all as it was.
-/

namespace MeshSecurity

variable {width capacity size : Nat} {σ τ ρ ℓ π : Type}

namespace Endpoint

/-- Whether a message is let in: the engine is free, and the message is authentic and new. -/
def Admits (h : Header) (message : List UInt8) (e : Endpoint) (engine : Engine) : Prop :=
  engine = .idle ∧ (∃ payload, Carries e.key h payload message) ∧ e.Newer h.id

/-- A message that is not let in is refused, and the receiver does not change. -/
theorem receive_of_not_admits {h : Header} {message : List UInt8} {e : Endpoint} {engine : Engine}
    (hout : ¬ e.Admits h message engine) (width : Nat) :
    ∃ error, e.receive width h message engine = (.error error, e, engine) := by
  obtain ⟨busy⟩ := engine
  cases busy with
  | true => exact receive_of_busy width h message e
  | false =>
    change ∃ error, e.receive width h message .idle = (.error error, e, .idle)
    rcases message_cases width h message e with hforged | ⟨payload, hcarries, hcases⟩
    · exact ⟨_, receive_of_forged hforged⟩
    · have hstale : ¬ e.Newer h.id := fun hnewer => hout ⟨rfl, ⟨payload, hcarries⟩, hnewer⟩
      exact ⟨_, receive_of_stale hcarries hstale⟩

/-- A message that is let in is a request or malformed, and its id is used up. -/
theorem receive_of_admits {h : Header} {message : List UInt8} {e : Endpoint} {engine : Engine}
    (hadmits : e.Admits h message engine) (width : Nat) :
    ∃ result : Except Error (Request width),
      ((∃ request, result = .ok request) ∨ result = .error .malformedRequest) ∧
      e.receive width h message engine = (result, { e with lastId := some h.id }, .idle) := by
  obtain ⟨rfl, ⟨payload, hcarries⟩, hnewer⟩ := hadmits
  by_cases hshort : payload.length < width
  · exact ⟨_, .inr rfl, receive_of_malformed hcarries hnewer hshort⟩
  · obtain ⟨request, hrequest⟩ := Option.isSome_iff_exists.mp
      (Request.isSome_ofPayload?_iff.mpr (Nat.not_lt.mp hshort))
    have hpayload := Request.ofPayload?_eq_some_iff.mp hrequest
    exact ⟨_, .inl ⟨request, rfl⟩, receive_of_request (hpayload.symm ▸ hcarries) hnewer⟩

end Endpoint

namespace Node

theorem respond_of_short (h : Header) (status : StatusCode) (n : Node width capacity σ τ ρ)
    {response : List UInt8} (hshort : response.length < Request.answerLength) :
    n.respond h status response = (.error .bufferTooSmall, response, n) := by
  have hwrap : n.endpoint.answer h.ack status response n.engine =
      ⟨.error .bufferTooSmall, response, n.engine⟩ := if_pos hshort
  rw [respond, hwrap]
  rfl

theorem respond_of_held (h : Header) (status : StatusCode) {n : Node width capacity σ τ ρ}
    {response : List UInt8} (hroom : ¬ response.length < Request.answerLength)
    (hheld : n.engine = ⟨true⟩) :
    n.respond h status response = (.error .engineBusy, response, n) := by
  have hwrap : n.endpoint.answer h.ack status response ⟨true⟩ = ⟨.error .busy, response, ⟨true⟩⟩ :=
    if_neg hroom
  rw [respond, hheld, hwrap]
  dsimp only
  rw [← hheld]
  rfl

/-- How an answer fails: the engine is held, or the buffer is too short. Then nothing is written. -/
theorem respond_error {h : Header} {status : StatusCode} {n : Node width capacity σ τ ρ}
    {response : List UInt8} {e : Error} (hfailed : (n.respond h status response).1 = .error e) :
    (e = .engineBusy ∨ e = .bufferTooSmall ∧ response.length < Request.answerLength) ∧
      (n.respond h status response).2.1 = response := by
  by_cases hshort : response.length < Request.answerLength
  · rw [respond_of_short h status n hshort] at hfailed ⊢
    cases hfailed
    exact ⟨.inr ⟨rfl, hshort⟩, rfl⟩
  · cases hengine : n.engine with
    | mk busy =>
      cases busy with
      | true =>
        rw [respond_of_held h status hshort hengine] at hfailed ⊢
        cases hfailed
        exact ⟨.inl rfl, rfl⟩
      | false =>
        obtain ⟨response', hrespond, -⟩ := respond_of_idle hengine h status (Nat.not_lt.mp hshort)
        rw [hrespond] at hfailed
        cases hfailed

variable [PairwiseScheme σ width] [RecordStore τ] [RandomSource ρ] [LinkLayer ℓ width]
  [Routing π width]

theorem handleRequest_error {now : Instant} {h : Header} {message response : List UInt8}
    {n : Node width capacity σ τ ρ} {net : Network width size ℓ π} {e : Error}
    (hfailed : (n.handleRequest now h message response net).1 = .error e) :
    (e = .engineBusy ∨ e = .bufferTooSmall ∧ response.length < Request.answerLength) ∧
      (n.handleRequest now h message response net).2.1 = response := by
  unfold handleRequest at hfailed ⊢
  generalize n.endpoint.receive width h message n.engine = received at hfailed ⊢
  obtain ⟨result, endpoint, engine⟩ := received
  dsimp only at hfailed ⊢
  split at hfailed
  · exact respond_error hfailed
  · split at hfailed
    · rename_i hanswers
      rw [if_pos hanswers]
      exact respond_error hfailed
    · cases hfailed
  · cases hfailed
    exact ⟨.inl rfl, rfl⟩
  · exact respond_error hfailed

/-- What a request that is let in leaves behind does not depend on the response buffer. The answer
is sealed when all else is done, with the engine free. -/
theorem handleRequest_of_admits (now : Instant) {h : Header} {message : List UInt8}
    {n : Node width capacity σ τ ρ} (net : Network width size ℓ π)
    (hadmits : n.endpoint.Admits h message n.engine) :
    ∃ status m net', m.engine = .idle ∧ m.endpoint = { n.endpoint with lastId := some h.id } ∧
      ∀ response, n.handleRequest now h message response net =
        ((m.respond h status response).1, (m.respond h status response).2.1, m, net') := by
  obtain ⟨result, hresult, hreceive⟩ := Endpoint.receive_of_admits hadmits width
  rcases hresult with ⟨request, rfl⟩ | rfl
  · obtain ⟨state, scheme, hcarry⟩ := carryOut_frame now request
      { n with endpoint := { n.endpoint with lastId := some h.id }, engine := .idle } net
    generalize hcarried : carryOut now request
      { n with endpoint := { n.endpoint with lastId := some h.id }, engine := .idle } net =
      carried at hcarry
    obtain ⟨status, m, net'⟩ := carried
    dsimp only at hcarry
    refine ⟨status, m.note .info now ["request ", toString h.id.toNat, " answered with status ",
      toString status.code.toNat], net', ?_, ?_, fun response => ?_⟩
    · rw [hcarry]
      rfl
    · rw [hcarry]
      rfl
    · simp only [handleRequest, hreceive, hcarried, respond_node]
  · refine ⟨Error.malformedRequest.statusCode, note .warn now
      ["request ", toString h.id.toNat, " rejected: ", Error.malformedRequest.message]
      { n with endpoint := { n.endpoint with lastId := some h.id }, engine := .idle }, net, rfl,
      rfl, fun response => ?_⟩
    simp only [handleRequest, hreceive, respond_node]

/-- A request that fails leaves all as it was, the journal apart, unless it was let in and only its
answer did not fit. Then it has been carried out just as with a long enough buffer, and its id is
used up. -/
theorem failed_request_harmless_iff (now : Instant) (h : Header) (message response : List UInt8)
    (n : Node width capacity σ τ ρ) (net : Network width size ℓ π) :
    ((∀ e, (n.handleRequest now h message response net).1 = .error e →
        ∃ journal, (n.handleRequest now h message response net).2.2 =
          (n.withJournal journal, net)) ↔
      ¬ (n.endpoint.Admits h message n.engine ∧ response.length < Request.answerLength)) ∧
    (∀ e, (n.handleRequest now h message response net).1 = .error e →
      (e = .engineBusy ∨ e = .bufferTooSmall ∧ response.length < Request.answerLength) ∧
        (n.handleRequest now h message response net).2.1 = response) ∧
    (n.endpoint.Admits h message n.engine → response.length < Request.answerLength →
      (n.handleRequest now h message response net).1 = .error .bufferTooSmall ∧
      (n.handleRequest now h message response net).2.2.1.endpoint =
        { n.endpoint with lastId := some h.id } ∧
      ∀ response', Request.answerLength ≤ response'.length →
        ∃ answer, n.handleRequest now h message response' net =
          (.ok (some Request.answerLength), answer,
            (n.handleRequest now h message response net).2.2)) := by
  have hlost : n.endpoint.Admits h message n.engine → response.length < Request.answerLength →
      (n.handleRequest now h message response net).1 = .error .bufferTooSmall ∧
      (n.handleRequest now h message response net).2.2.1.endpoint =
        { n.endpoint with lastId := some h.id } ∧
      ∀ response', Request.answerLength ≤ response'.length →
        ∃ answer, n.handleRequest now h message response' net =
          (.ok (some Request.answerLength), answer,
            (n.handleRequest now h message response net).2.2) := by
    intro hadmits hshort
    obtain ⟨status, m, net', hidle, hendpoint, hhandle⟩ :=
      handleRequest_of_admits now net hadmits
    have hrespond := respond_of_short h status m hshort
    refine ⟨?_, ?_, fun response' hroom => ?_⟩
    · rw [hhandle, hrespond]
    · rw [hhandle]
      exact hendpoint
    · obtain ⟨answer, hanswer, -⟩ := respond_of_idle hidle h status hroom
      refine ⟨answer, ?_⟩
      rw [hhandle, hhandle, hanswer]
  refine ⟨⟨fun hharmless hadmitted => ?_, fun hout e hfailed => ?_⟩,
    fun e hfailed => handleRequest_error hfailed, hlost⟩
  · obtain ⟨herror, hendpoint, -⟩ := hlost hadmitted.1 hadmitted.2
    obtain ⟨journal, hsame⟩ := hharmless _ herror
    rw [hsame] at hendpoint
    have hlast : n.endpoint.lastId = some h.id := congrArg (·.lastId) hendpoint
    exact UInt16.lt_irrefl h.id (hadmitted.1.2.2 h.id hlast)
  · by_cases hadmits : n.endpoint.Admits h message n.engine
    · have hroom : Request.answerLength ≤ response.length :=
        Nat.not_lt.mp fun hshort => hout ⟨hadmits, hshort⟩
      obtain ⟨status, m, net', hidle, -, hhandle⟩ := handleRequest_of_admits now net hadmits
      obtain ⟨answer, hanswer, -⟩ := respond_of_idle hidle h status hroom
      rw [hhandle, hanswer] at hfailed
      cases hfailed
    · obtain ⟨error, hreceive⟩ := Endpoint.receive_of_not_admits hadmits width
      exact handleRequest_of_refused now response net hreceive

namespace Scene

/-- The request for the revocation of the one neighbor of `serving`. -/
def neighborRequest : Request 8 := ⟨.repeated 8, []⟩

/-- Message 5 with `neighborRequest` comes to the node. -/
theorem exists_neighborRequest :
    ∃ message, Envelope.wrapped serving.node.endpoint.key (Header.mk 5 Header.confirmable).nonce []
        neighborRequest.payload = some message ∧
      serving.node.endpoint.Admits ⟨5, Header.confirmable⟩ message serving.node.engine ∧
      serving.node.endpoint.receive 8 ⟨5, Header.confirmable⟩ message serving.node.engine =
        (.ok neighborRequest, { serving.node.endpoint with lastId := some 5 }, .idle) := by
  have hlength : neighborRequest.payload.length ≤ Request.maxPayload := by decide
  obtain ⟨message, hsealed⟩ := Envelope.exists_wrapped serving.node.endpoint.key
    (Header.mk 5 Header.confirmable).nonce []
    (Nat.le_trans hlength (show Request.maxPayload ≤ Ccm.maxPayload by decide))
  have hnewer : serving.node.endpoint.Newer 5 := Endpoint.isFresh_iff_newer.mp rfl
  exact ⟨message, hsealed, ⟨rfl, ⟨_, hlength, hsealed⟩, hnewer⟩,
    Endpoint.receive_of_request ⟨hlength, hsealed⟩ hnewer⟩

/-- The answer has nine bytes and the response buffer eight. With nine, the request would have left
the same behind. -/
theorem failed_request_harmless_iff_eightBytes :
    ∃ message,
      serving.node.endpoint.Admits ⟨5, Header.confirmable⟩ message serving.node.engine ∧
      (List.replicate 8 (0 : UInt8)).length < Request.answerLength ∧
      let outcome := serving.node.handleRequest ⟨10⟩ ⟨5, Header.confirmable⟩ message
        (List.replicate 8 0) serving.net
      outcome.1 = .error .bufferTooSmall ∧ outcome.2.1 = List.replicate 8 0 ∧
      outcome.2.2.1.endpoint.lastId = some 5 ∧
      (¬ ∃ journal, outcome.2.2 = (serving.node.withJournal journal, serving.net)) ∧
      ∃ answer, serving.node.handleRequest ⟨10⟩ ⟨5, Header.confirmable⟩ message
        (List.replicate 9 0) serving.net =
          (.ok (some Request.answerLength), answer, outcome.2.2) := by
  obtain ⟨message, -, hadmits, -⟩ := exists_neighborRequest
  have hshort : (List.replicate 8 (0 : UInt8)).length < Request.answerLength := by decide
  obtain ⟨hharmless, hfailure, hlost⟩ := failed_request_harmless_iff ⟨10⟩ ⟨5, Header.confirmable⟩
    message (List.replicate 8 0) serving.node serving.net
  obtain ⟨herror, hendpoint, hlonger⟩ := hlost hadmits hshort
  refine ⟨message, hadmits, hshort, herror, (hfailure _ herror).2, ?_, fun hsame => ?_,
    hlonger _ (by decide)⟩
  · rw [hendpoint]
  · exact hharmless.mp (fun _ _ => hsame) ⟨hadmits, hshort⟩

/-- A request fails because its answer does not fit, and yet the neighbor is listed and removed, a
new group key is sent, and the id of the request is used up. -/
theorem done_and_failed_eightBytes :
    ∃ message,
      Envelope.wrapped serving.node.endpoint.key (Header.mk 5 Header.confirmable).nonce []
        neighborRequest.payload = some message ∧
      let outcome := serving.node.handleRequest ⟨10⟩ ⟨5, Header.confirmable⟩ message
        (List.replicate 8 0) serving.net
      outcome.1 = .error .bufferTooSmall ∧
      serving.node.revocations.entries.toList = [] ∧
      outcome.2.2.1.revocations.entries.toList = [.repeated 8] ∧
      serving.net.neighbors.permanentPeers = [.repeated 8] ∧
      outcome.2.2.2.neighbors.entries = [] ∧
      serving.node.groupKeys.rotations = 0 ∧ outcome.2.2.1.groupKeys.rotations = 1 ∧
      serving.node.endpoint.lastId = none ∧ outcome.2.2.1.endpoint.lastId = some 5 := by
  obtain ⟨message, hsealed, -, hreceive⟩ := exists_neighborRequest
  refine ⟨message, hsealed, ?_⟩
  have hshort : (List.replicate 8 (0 : UInt8)).length < Request.answerLength := by decide
  simp only [handleRequest, hreceive, respond_of_short _ _ _ hshort, true_and]
  exact ⟨rfl, rfl, rfl, rfl, rfl, rfl, rfl, rfl⟩

end Scene

end Node

end MeshSecurity
