import MeshSecurity.Proofs.RejectedRequests
import MeshSecurity.Proofs.RequestAcceptance

/-!
# A request does what a direct revocation does

A request that is authentic, fresh and well-formed revokes its peer just as a direct call would, and
installs its secret if that succeeds. The receiver uses up the id, the journal tells of the request,
and the answer carries the status of the revocation. Nothing else distinguishes the two.
-/

namespace MeshSecurity

variable {width capacity size : Nat} {σ τ ρ ℓ π : Type}

namespace Endpoint

theorem receive_of_sealed {h : Header} {message : List UInt8} {e : Endpoint}
    {request : Request width}
    (hsealed : Envelope.wrapped e.key h.nonce [] request.payload = some message)
    (hshort : request.payload.length ≤ Request.maxPayload) (hfresh : e.isFresh h.id = true) :
    e.receive width h message .idle = (.ok request, { e with lastId := some h.id }, .idle) :=
  receive_of_request ⟨hshort, hsealed⟩ (isFresh_iff_newer.mp hfresh)

end Endpoint

namespace Node

/-- The node with another receiver. -/
def withEndpoint (e : Endpoint) (n : Node width capacity σ τ ρ) : Node width capacity σ τ ρ :=
  { n with endpoint := e }

/-- What is given as an answer is the sealed digit of the status. -/
theorem opens_of_respond {h : Header} {status : StatusCode} {response : List UInt8}
    {n : Node width capacity σ τ ρ} {length : Nat}
    (hok : (n.respond h status response).1 = .ok (some length)) :
    Envelope.unwrapped n.endpoint.key h.ack.nonce []
      ((n.respond h status response).2.1.take length) = some [status.digit] := by
  unfold respond Endpoint.answer at hok ⊢
  dsimp only at hok ⊢
  split at hok
  · rename_i total hresult
    cases hok
    obtain ⟨-, -, -, hsealed⟩ := (Envelope.wrap_sealing _ _ _ _ _ _).of_ok hresult
    exact Envelope.unwrapped_eq_some_iff.mpr hsealed
  · cases hok

theorem respond_of_idle {n : Node width capacity σ τ ρ} (hidle : n.engine = .idle) (h : Header)
    (status : StatusCode) {response : List UInt8}
    (hroom : Request.answerLength ≤ response.length) :
    ∃ response', n.respond h status response = (.ok (some Request.answerLength), response', n) ∧
      Envelope.unwrapped n.endpoint.key h.ack.nonce [] (response'.take Request.answerLength) =
        some [status.digit] := by
  obtain ⟨answer, hanswer⟩ := Envelope.exists_wrapped n.endpoint.key h.ack.nonce []
    (show [status.digit].length ≤ Ccm.maxPayload from Nat.le_add_left 1 65534)
  have hlength : answer.length = Request.answerLength := Ccm.length_of_wrap _ _ hanswer
  have hwrap := Envelope.wrap_of_some hanswer hroom
  refine ⟨Envelope.overwrite response answer, ?_, ?_⟩
  · have hnode := respond_node h status n response
    unfold respond Endpoint.answer at hnode ⊢
    rw [hidle, hwrap] at hnode ⊢
    dsimp only at hnode ⊢
    rw [hnode, hlength]
  · rw [Envelope.overwrite, ← hlength, List.take_left]
    exact Envelope.unwrapped_eq_some_iff.mpr hanswer

variable [PairwiseScheme σ width] [RecordStore τ] [RandomSource ρ] [LinkLayer ℓ width]
  [Routing π width]

/-- Revokes a peer directly and then has the scheme install the secret that comes with it, if there
is one and the revocation succeeded. The scheme may refuse it. -/
def revokeAndInstall (now : Instant) (request : Request width) (n : Node width capacity σ τ ρ)
    (net : Network width size ℓ π) :
    Except Error RevocationReport × Node width capacity σ τ ρ × Network width size ℓ π :=
  match n.revoke now request.peer true net with
  | (.ok report, n, net) =>
    (.ok report,
      if request.secret = [] then n
      else { n with scheme := (PairwiseScheme.update request.peer request.secret n.scheme).2 },
      net)
  | (.error e, n, net) => (.error e, n, net)

/-- The status by which the result of a revocation is told. -/
def resultStatus : Except Error RevocationReport → StatusCode
  | .ok _ => .success
  | .error e => e.statusCode

omit [RecordStore τ] [RandomSource ρ] in
theorem installSecret_eq (now : Instant) (request : Request width)
    (n : Node width capacity σ τ ρ) :
    ∃ journal, n.installSecret now request =
      (if request.secret = [] then n
        else { n with
          scheme := (PairwiseScheme.update request.peer request.secret n.scheme).2
        }).withJournal journal := by
  unfold installSecret
  by_cases hsecret : request.secret = []
  · rw [if_pos hsecret, if_pos (List.isEmpty_iff.mpr hsecret)]
    exact ⟨n.journal, rfl⟩
  · rw [if_neg hsecret, if_neg (mt List.isEmpty_iff.mp hsecret)]
    dsimp only
    split
    · exact ⟨n.journal, rfl⟩
    · exact ⟨_, rfl⟩

theorem carryOut_eq (now : Instant) (request : Request width) (n : Node width capacity σ τ ρ)
    (net : Network width size ℓ π) :
    ∃ journal, n.carryOut now request net =
      (resultStatus (n.revokeAndInstall now request net).1,
        (n.revokeAndInstall now request net).2.1.withJournal journal,
        (n.revokeAndInstall now request net).2.2) := by
  unfold carryOut revokeAndInstall
  generalize n.revoke now request.peer true net = revoked
  obtain ⟨result, n₁, net₁⟩ := revoked
  cases result with
  | ok report =>
    obtain ⟨journal, hinstall⟩ := installSecret_eq now request n₁
    exact ⟨journal, by dsimp only; rw [hinstall]; rfl⟩
  | error e => exact ⟨n₁.journal, rfl⟩

theorem revokeAndInstall_withEndpoint (now : Instant) (request : Request width) (e : Endpoint)
    (n : Node width capacity σ τ ρ) (net : Network width size ℓ π) :
    (n.withEndpoint e).revokeAndInstall now request net =
      ((n.revokeAndInstall now request net).1,
        (n.revokeAndInstall now request net).2.1.withEndpoint e,
        (n.revokeAndInstall now request net).2.2) := by
  have hrevoke : (n.withEndpoint e).revoke now request.peer true net =
      ((n.revoke now request.peer true net).1,
        (n.revoke now request.peer true net).2.1.withEndpoint e,
        (n.revoke now request.peer true net).2.2) := by
    have hconfig : (n.withEndpoint e).config = n.config := rfl
    unfold revoke
    rw [hconfig]
    split
    · rfl
    · rfl
  unfold revokeAndInstall
  rw [hrevoke]
  generalize n.revoke now request.peer true net = revoked
  obtain ⟨result, n₁, net₁⟩ := revoked
  cases result with
  | ok report =>
    dsimp only
    split
    · rfl
    · rfl
  | error e => rfl

theorem revokeAndInstall_engine (now : Instant) (request : Request width)
    (n : Node width capacity σ τ ρ) (net : Network width size ℓ π) :
    (n.revokeAndInstall now request net).2.1.engine = n.engine := by
  obtain ⟨journal, hcarry⟩ := carryOut_eq now request n net
  obtain ⟨state, scheme, hframe⟩ := carryOut_frame now request n net
  rw [hcarry] at hframe
  exact congrArg (·.engine) hframe

/-- A request sealed under the management key that comes with a fresh id leaves node and network as
a direct revocation and the installation of its secret do, the journal and the last accepted id
apart. The answer opens as the status of that revocation. -/
theorem request_as_direct_revocation (now : Instant) {h : Header} {request : Request width}
    {response : List UInt8} {n : Node width capacity σ τ ρ} (net : Network width size ℓ π)
    (hshort : width + request.secret.length ≤ Request.maxPayload)
    (hfresh : n.endpoint.isFresh h.id = true) (hidle : n.engine = .idle)
    (hroom : Request.answerLength ≤ response.length) :
    ∃ message, Envelope.wrapped n.endpoint.key h.nonce [] request.payload = some message ∧
      ∃ response' journal,
        n.handleRequest now h message response net =
          (.ok (some Request.answerLength), response',
            ((n.revokeAndInstall now request net).2.1.withJournal journal).withEndpoint
              { n.endpoint with lastId := some h.id },
            (n.revokeAndInstall now request net).2.2) ∧
        Envelope.unwrapped n.endpoint.key h.ack.nonce [] (response'.take Request.answerLength) =
          some [(resultStatus (n.revokeAndInstall now request net).1).digit] := by
  have hpayload : request.payload.length ≤ Request.maxPayload := by
    rwa [Request.payload, List.length_append, Address.length_toList]
  obtain ⟨message, hsealed⟩ := Envelope.exists_wrapped n.endpoint.key h.nonce []
    (Nat.le_trans hpayload (show Request.maxPayload ≤ Ccm.maxPayload by decide))
  refine ⟨message, hsealed, ?_⟩
  have hreceive := Endpoint.receive_of_sealed hsealed hpayload hfresh
  have hreceived : { n with
      endpoint := { n.endpoint with lastId := some h.id }
      engine := .idle } = n.withEndpoint { n.endpoint with lastId := some h.id } := by
    rw [← hidle]
    rfl
  obtain ⟨journal, hcarry⟩ :=
    carryOut_eq now request (n.withEndpoint { n.endpoint with lastId := some h.id }) net
  rw [revokeAndInstall_withEndpoint] at hcarry
  have hengine := (revokeAndInstall_engine now request n net).trans hidle
  unfold handleRequest
  rw [hidle, hreceive]
  dsimp only at hreceived hcarry ⊢
  rw [hreceived, hcarry]
  generalize n.revokeAndInstall now request net = direct at hengine ⊢
  obtain ⟨result, m, net'⟩ := direct
  dsimp only at hengine ⊢
  -- what is written to the journal before the answer does not concern the answer
  have hidle' : (note .info now ["request ", toString h.id.toNat, " answered with status ",
      toString (resultStatus result).code.toNat] ((m.withEndpoint
        { n.endpoint with lastId := some h.id }).withJournal journal)).engine = .idle := hengine
  obtain ⟨response', hrespond, hopens⟩ := respond_of_idle hidle' h (resultStatus result) hroom
  rw [hrespond]
  exact ⟨response', _, rfl, hopens⟩

/-- A node of a network that shares one key. -/
def sharing : Node 8 4 (SharedKey 8) (MemoryStore 64) Generator :=
  .assemble .standard false ⟨Vector.replicate 16 1⟩ .empty (Vector.replicate 16 0x5A)
    (.constant ⟨7⟩) (.provisioned (Vector.replicate 16 0x11))

/-- A permanent neighbor is revoked, and a new key for the others comes with that. -/
theorem request_as_direct_revocation_newKey :
    let request : Request 8 := ⟨.repeated 8, List.replicate 16 9⟩
    let direct := sharing.revokeAndInstall ⟨20⟩ request Scene.serving.net
    8 + request.secret.length ≤ Request.maxPayload ∧ sharing.endpoint.isFresh 3 = true ∧
      sharing.engine = .idle ∧ Request.answerLength ≤ (List.replicate 9 (0 : UInt8)).length ∧
      direct.2.1.scheme.key = Vector.replicate 16 9 ∧ resultStatus direct.1 = .success ∧
      ∃ message, Envelope.wrapped sharing.endpoint.key (Header.mk 3 0).nonce [] request.payload =
          some message ∧
        ∃ response' journal,
          sharing.handleRequest ⟨20⟩ ⟨3, 0⟩ message (List.replicate 9 0) Scene.serving.net =
            (.ok (some Request.answerLength), response',
              (direct.2.1.withJournal journal).withEndpoint
                { sharing.endpoint with lastId := some 3 },
              direct.2.2) ∧
          Envelope.unwrapped sharing.endpoint.key (Header.mk 3 0).ack.nonce []
            (response'.take Request.answerLength) = some [(resultStatus direct.1).digit] := by
  intro request direct
  have hshort : 8 + request.secret.length ≤ Request.maxPayload := by decide
  have hroom : Request.answerLength ≤ (List.replicate 9 (0 : UInt8)).length := by decide
  exact ⟨hshort, rfl, rfl, hroom, rfl, rfl,
    request_as_direct_revocation ⟨20⟩ Scene.serving.net hshort rfl rfl hroom⟩

end Node

end MeshSecurity
