import MeshSecurity.Proofs.RequestEquivalence

/-!
# Replies under one nonce

A reply is sealed under the nonce of the acknowledgement, which tells the id of the request and
nothing else. An id is used up once, but the refusal of a stale message is a reply too, and it is
sealed under the nonce of a reply that may have told another status. This is the only way in which
two replies share a nonce: the later one is such a refusal.
-/

namespace MeshSecurity

variable {width capacity size : Nat} {σ τ ρ ℓ π : Type}

namespace Header

/-- All acknowledgements are of one type, so the nonce of one tells its id. -/
theorem nonce_ack_inj {g h : Header} : g.ack.nonce = h.ack.nonce ↔ g.id = h.id :=
  (nonce_mk_inj (by decide) (by decide)).trans (and_iff_left rfl)

end Header

namespace Endpoint

theorem receive_error {h : Header} {message : List UInt8} {e : Endpoint} {engine : Engine}
    {error : Error}
    (herror : (e.receive width h message engine).1 = .error error) :
    error = .authenticationFailed ∨ error = .engineBusy ∨ error = .staleMessage ∨
      error = .malformedRequest := by
  obtain ⟨busy⟩ := engine
  cases busy with
  | true =>
    obtain ⟨refusal, hrefusal, hreceive⟩ := refused_of_busy width h message e
    rw [hreceive] at herror
    cases herror
    rcases hrefusal with rfl | rfl
    · exact .inl rfl
    · exact .inr (.inl rfl)
  | false =>
    have hverdict : Verdict e h message (.error error : Except Error (Request width)) :=
      receive_eq_iff_verdict.mp herror
    cases hverdict with
    | forged hforged => exact .inl rfl
    | stale hcarries hstale => exact .inr (.inr (.inl rfl))
    | malformed hcarries hnewer hshort => exact .inr (.inr (.inr rfl))

theorem not_newer_of_stale {h : Header} {message : List UInt8} {e : Endpoint} {engine : Engine}
    (hstale : (e.receive width h message engine).1 = .error .staleMessage) : ¬ e.Newer h.id := by
  obtain ⟨busy⟩ := engine
  cases busy with
  | true =>
    obtain ⟨refusal, hrefusal, hreceive⟩ := refused_of_busy width h message e
    rw [hreceive] at hstale
    cases hstale
    rcases hrefusal with hother | hother
    · cases hother
    · cases hother
  | false =>
    have hverdict : Verdict e h message (.error .staleMessage : Except Error (Request width)) :=
      receive_eq_iff_verdict.mp hstale
    cases hverdict with
    | stale hcarries hstale => exact hstale

/-- What later deliveries leave of a receiver: its key stays, and no id becomes newer again. -/
structure Ages (e e' : Endpoint) : Prop where
  key : e'.key = e.key
  newer : ∀ id, e'.Newer id → e.Newer id

theorem Ages.refl (e : Endpoint) : Ages e e := ⟨rfl, fun _ hnewer => hnewer⟩

theorem Ages.trans {e e' e'' : Endpoint} (h : Ages e e') (h' : Ages e' e'') : Ages e e'' :=
  ⟨h'.key.trans h.key, fun id hnewer => h.newer id (h'.newer id hnewer)⟩

theorem ages_after (width : Nat) (d : Delivery) (e : Endpoint) : Ages e (e.after width d) :=
  ⟨after_key width d e, fun _ hnewer => hnewer.of_after⟩

end Endpoint

namespace Node

/-- Whether a reply to a request with header `h` tells `plain`: it is what `plain` is sealed as
under the nonce of the acknowledgement. -/
def Tells (key : Key) (h : Header) (plain : List UInt8) : Answer → Prop
  | .responded (.ok (some length)) response =>
    Envelope.wrapped key h.ack.nonce [] plain = some (response.take length)
  | _ => False

theorem eq_digit_of_tells {h : Header} {status : StatusCode} {response plain : List UInt8}
    {n : Node width capacity σ τ ρ}
    (htells : Tells n.endpoint.key h plain
      (.responded (n.respond h status response).1 (n.respond h status response).2.1)) :
    plain = [status.digit] := by
  cases hresult : (n.respond h status response).1 with
  | error e =>
    rw [hresult] at htells
    exact htells.elim
  | ok answered =>
    rw [hresult] at htells
    cases answered with
    | none => exact htells.elim
    | some length =>
      have hplain := Envelope.unwrapped_eq_some_iff.mpr htells
      rw [opens_of_respond hresult] at hplain
      exact (Option.some.inj hplain).symm

variable [PairwiseScheme σ width] [RecordStore τ] [RandomSource ρ] [LinkLayer ℓ width]
  [Routing π width]

/-- Where forgeries are not answered, a reply tells the failure of a stale message, or it comes with
the id of the request being used up. -/
theorem tells_cases {now : Instant} {h : Header} {message response plain : List UInt8}
    {n : Node width capacity σ τ ρ} {net : Network width size ℓ π}
    (hsilent : n.answersForgeries = false)
    (htells : Tells n.endpoint.key h plain
      (.responded (n.handleRequest now h message response net).1
        (n.handleRequest now h message response net).2.1)) :
    Endpoint.usesUp (n.endpoint.receive width h message n.engine).1 = true ∨
    ((n.endpoint.receive width h message n.engine).1 = .error .staleMessage ∧
      plain = [StatusCode.failure.digit]) := by
  obtain ⟨state, config, answersForgeries, scheme, endpoint, engine⟩ := n
  dsimp only at hsilent
  subst hsilent
  have hkey := Endpoint.after_key width ⟨h, message, engine⟩ endpoint
  have hkind (error : Error)
      (herror : (endpoint.receive width h message engine).1 = .error error) :=
    Endpoint.receive_error herror
  unfold Endpoint.after at hkey
  unfold handleRequest at htells
  dsimp only at hkey htells ⊢
  generalize endpoint.receive width h message engine = received at hkey hkind htells ⊢
  obtain ⟨result, endpoint', engine'⟩ := received
  dsimp only at hkey hkind htells ⊢
  cases result with
  | ok request => exact .inl rfl
  | error error =>
    rw [← hkey] at htells
    rcases hkind error rfl with rfl | rfl | rfl | rfl
    · exact htells.elim
    · exact htells.elim
    · exact .inr ⟨rfl, eq_digit_of_tells htells⟩
    · exact .inl rfl

omit [PairwiseScheme σ width] [RecordStore τ] [RandomSource ρ] [LinkLayer ℓ width]
  [Routing π width] in
theorem tells_respond {n : Node width capacity σ τ ρ} (hidle : n.engine = .idle) (h : Header)
    (status : StatusCode) {response : List UInt8}
    (hroom : Request.answerLength ≤ response.length) :
    Tells n.endpoint.key h [status.digit]
      (.responded (n.respond h status response).1 (n.respond h status response).2.1) := by
  obtain ⟨response', hrespond, hopens⟩ := respond_of_idle hidle h status hroom
  rw [hrespond]
  exact Envelope.unwrapped_eq_some_iff.mp hopens

theorem tells_of_accepted (now : Instant) {h : Header} {message response : List UInt8}
    {n : Node width capacity σ τ ρ} (net : Network width size ℓ π) {request : Request width}
    (hreceive : n.endpoint.receive width h message n.engine =
      (.ok request, { n.endpoint with lastId := some h.id }, .idle))
    (hroom : Request.answerLength ≤ response.length) :
    Tells n.endpoint.key h
      [({ n with
          endpoint := { n.endpoint with lastId := some h.id }
          engine := .idle }.carryOut now request net).1.digit]
      (.responded (n.handleRequest now h message response net).1
        (n.handleRequest now h message response net).2.1) := by
  obtain ⟨state, scheme, hcarry⟩ := carryOut_frame now request
    { n with endpoint := { n.endpoint with lastId := some h.id }, engine := .idle } net
  unfold handleRequest
  rw [hreceive]
  dsimp only
  generalize carryOut now request
    { n with endpoint := { n.endpoint with lastId := some h.id }, engine := .idle } net =
      carried at hcarry ⊢
  obtain ⟨status, m, net'⟩ := carried
  dsimp only at hcarry ⊢
  subst hcarry
  exact tells_respond rfl h status hroom

theorem tells_of_stale {now : Instant} {h : Header} {message response : List UInt8}
    {n : Node width capacity σ τ ρ} {net : Network width size ℓ π}
    (hreceive : n.endpoint.receive width h message n.engine =
      (.error .staleMessage, n.endpoint, .idle))
    (hroom : Request.answerLength ≤ response.length) :
    Tells n.endpoint.key h [StatusCode.failure.digit]
      (.responded (n.handleRequest now h message response net).1
        (n.handleRequest now h message response net).2.1) := by
  unfold handleRequest
  rw [hreceive]
  exact tells_respond rfl h .failure hroom

namespace Scene

/-- Runs of any calls. Between two calls others may read the journal, hold or release the cipher
engine, and change the network, which is only lent. -/
inductive Reaches (s : Scene width capacity size σ τ ρ ℓ π) :
    Scene width capacity size σ τ ρ ℓ π → Prop
  | start : Reaches s s
  | call {t} (hrun : Reaches s t) (op : Operation width) : Reaches s (t.perform op).2
  | meanwhile {t} (hrun : Reaches s t) (journal : Journal) (engine : Engine)
      (net : Network width size ℓ π) : Reaches s ⟨{ t.node with journal, engine }, net⟩

theorem endpoint_perform (s : Scene width capacity size σ τ ρ ℓ π) (op : Operation width) :
    (s.perform op).2.node.endpoint = s.endpointAfter op := by
  obtain ⟨state, scheme, hperform⟩ := perform_frame s op
  rw [hperform]

theorem ages_perform (s : Scene width capacity size σ τ ρ ℓ π) (op : Operation width) :
    s.node.endpoint.Ages (s.perform op).2.node.endpoint := by
  rw [endpoint_perform]
  cases op with
  | request now h message response => exact Endpoint.ages_after width _ _
  | _ => exact Endpoint.Ages.refl _

theorem Reaches.ages {s t : Scene width capacity size σ τ ρ ℓ π} (hrun : Reaches s t) :
    s.node.endpoint.Ages t.node.endpoint := by
  induction hrun with
  | start => exact Endpoint.Ages.refl _
  | call hrun op ih => exact ih.trans (ages_perform _ op)
  | meanwhile hrun journal engine net ih => exact ih

theorem Reaches.answersForgeries {s t : Scene width capacity size σ τ ρ ℓ π}
    (hrun : Reaches s t) : t.node.answersForgeries = s.node.answersForgeries := by
  induction hrun with
  | start => rfl
  | call hrun op ih => exact (sameManner_perform _ op).1.trans ih
  | meanwhile hrun journal engine net ih => exact ih

/-- After a reply, the id of the request is not newer, whatever the reply tells. -/
theorem not_newer_of_tells {s : Scene width capacity size σ τ ρ ℓ π} {now : Instant} {h : Header}
    {message response plain : List UInt8} (hsilent : s.node.answersForgeries = false)
    (htells : Tells s.node.endpoint.key h plain
      (s.perform (.request now h message response)).1) :
    ¬ (s.perform (.request now h message response)).2.node.endpoint.Newer h.id := by
  intro hnewer
  rw [endpoint_perform] at hnewer
  change (s.node.endpoint.after width ⟨h, message, s.node.engine⟩).Newer h.id at hnewer
  rcases tells_cases hsilent htells with hused | ⟨hstale, -⟩
  · obtain ⟨-, hafter⟩ := Endpoint.used_of_usesUp (d := ⟨h, message, s.node.engine⟩) hused
    rw [hafter] at hnewer
    exact UInt16.lt_irrefl h.id (hnewer h.id rfl)
  · exact Endpoint.not_newer_of_stale hstale hnewer.of_after

omit [PairwiseScheme σ width] [RecordStore τ] [RandomSource ρ] [LinkLayer ℓ width]
  [Routing π width] in
theorem receive_of_carries {s : Scene width capacity size σ τ ρ ℓ π} {h : Header}
    {message : List UInt8} {request : Request width} (hidle : s.node.engine = .idle)
    (hcarries : Endpoint.Carries s.node.endpoint.key h request.payload message)
    (hnewer : s.node.endpoint.Newer h.id) :
    s.node.endpoint.receive width h message s.node.engine =
      (.ok request, { s.node.endpoint with lastId := some h.id }, .idle) := by
  rw [hidle]
  exact Endpoint.receive_of_request hcarries hnewer

/-- A request that was accepted draws another reply whenever the same message comes again and finds
the engine idle, under the same nonce: it tells a failure. -/
theorem tells_again {s t : Scene width capacity size σ τ ρ ℓ π} {now now' : Instant} {h : Header}
    {message response response' : List UInt8} {request : Request width}
    (hidle : s.node.engine = .idle)
    (hcarries : Endpoint.Carries s.node.endpoint.key h request.payload message)
    (hnewer : s.node.endpoint.Newer h.id)
    (hrun : Reaches (s.perform (.request now h message response)).2 t)
    (hidle' : t.node.engine = .idle) (hroom : Request.answerLength ≤ response'.length) :
    Tells t.node.endpoint.key h [StatusCode.failure.digit]
      (t.perform (.request now' h message response')).1 := by
  have hages := (ages_perform s (.request now h message response)).trans hrun.ages
  have hendpoint : (s.perform (.request now h message response)).2.node.endpoint =
      { s.node.endpoint with lastId := some h.id } := by
    rw [endpoint_perform]
    exact congrArg (·.2.1) (receive_of_carries hidle hcarries hnewer)
  have hstale : ¬ t.node.endpoint.Newer h.id := by
    intro hagain
    have hlast := hrun.ages.newer h.id hagain
    rw [hendpoint] at hlast
    exact UInt16.lt_irrefl h.id (hlast h.id rfl)
  have hrefused : t.node.endpoint.receive width h message t.node.engine =
      (.error .staleMessage, t.node.endpoint, .idle) := by
    rw [hidle']
    exact Endpoint.receive_of_stale (hages.key.symm ▸ hcarries) hstale
  exact tells_of_stale hrefused hroom

/-- Of two replies that a run gives under one nonce, the later one refuses a stale message and tells
its failure. So two replies under one nonce tell different statuses only where this is the later of
them. -/
theorem later_reply_refuses_stale {s t : Scene width capacity size σ τ ρ ℓ π}
    {now now' : Instant} {h h' : Header} {message message' response response' : List UInt8}
    {plain plain' : List UInt8} (hsilent : s.node.answersForgeries = false)
    (hfirst : Tells s.node.endpoint.key h plain
      (s.perform (.request now h message response)).1)
    (hrun : Reaches (s.perform (.request now h message response)).2 t)
    (hlater : Tells t.node.endpoint.key h' plain'
      (t.perform (.request now' h' message' response')).1)
    (hnonce : h'.ack.nonce = h.ack.nonce) :
    (t.node.endpoint.receive width h' message' t.node.engine).1 = .error .staleMessage ∧
      plain' = [StatusCode.failure.digit] := by
  have hsilent' : t.node.answersForgeries = false :=
    hrun.answersForgeries.trans ((sameManner_perform s _).1.trans hsilent)
  rcases tells_cases hsilent' hlater with hused | hrefused
  · obtain ⟨hnewer, -⟩ := Endpoint.used_of_usesUp (d := ⟨h', message', t.node.engine⟩) hused
    change t.node.endpoint.Newer h'.id at hnewer
    rw [Header.nonce_ack_inj.mp hnonce] at hnewer
    exact absurd (hrun.ages.newer h.id hnewer) (not_newer_of_tells hsilent hfirst)
  · exact hrefused

/-- The request for the revocation of a node that is no neighbor. -/
def strangerRequest : Request 8 := ⟨.repeated 9, []⟩

/-- Message 5 as it comes to the node. -/
def messageFive (message : List UInt8) : Operation 8 :=
  .request ⟨10⟩ ⟨5, Header.confirmable⟩ message (List.replicate 9 0)

theorem exists_messageFive :
    ∃ message, Endpoint.Carries serving.node.endpoint.key ⟨5, Header.confirmable⟩
      strangerRequest.payload message := by
  have hlength : strangerRequest.payload.length ≤ Request.maxPayload := by decide
  obtain ⟨message, hsealed⟩ := Envelope.exists_wrapped serving.node.endpoint.key
    (Header.mk 5 Header.confirmable).nonce []
    (Nat.le_trans hlength (show Request.maxPayload ≤ Ccm.maxPayload by decide))
  exact ⟨message, hlength, hsealed⟩

theorem tells_messageFive {message : List UInt8}
    (hcarries : Endpoint.Carries serving.node.endpoint.key ⟨5, Header.confirmable⟩
      strangerRequest.payload message) :
    Tells serving.node.endpoint.key ⟨5, Header.confirmable⟩ [StatusCode.success.digit]
      (serving.perform (messageFive message)).1 := by
  have hroom : Request.answerLength ≤ (List.replicate 9 (0 : UInt8)).length := by decide
  have hstatus : ({ serving.node with
      endpoint := { serving.node.endpoint with lastId := some 5 }
      engine := .idle }.carryOut ⟨10⟩ strangerRequest serving.net).1 = .success := rfl
  have htells := tells_of_accepted ⟨10⟩ serving.net
    (receive_of_carries (s := serving) rfl hcarries (Endpoint.isFresh_iff_newer.mp rfl)) hroom
  rw [hstatus] at htells
  exact htells

theorem tells_messageFive_again {message : List UInt8}
    (hcarries : Endpoint.Carries serving.node.endpoint.key ⟨5, Header.confirmable⟩
      strangerRequest.payload message)
    {t : Scene 8 4 4 (RefusingScheme 8) (MemoryStore 64) Generator (Radio 8) (ParentSet 8)}
    (hrun : Reaches (serving.perform (messageFive message)).2 t)
    (hidle : t.node.engine = .idle) :
    Tells t.node.endpoint.key ⟨5, Header.confirmable⟩ [StatusCode.failure.digit]
      (t.perform (messageFive message)).1 := by
  have hroom : Request.answerLength ≤ (List.replicate 9 (0 : UInt8)).length := by decide
  exact tells_again rfl hcarries (Endpoint.isFresh_iff_newer.mp rfl) hrun hidle hroom

/-- The message comes again after a rotation of the group key. -/
theorem later_reply_refuses_stale_rotated :
    serving.node.answersForgeries = false ∧
    ∃ message,
      let t := ((serving.perform (messageFive message)).2.perform (.rotate ⟨15⟩)).2
      Tells serving.node.endpoint.key ⟨5, Header.confirmable⟩ [StatusCode.success.digit]
        (serving.perform (messageFive message)).1 ∧
      Reaches (serving.perform (messageFive message)).2 t ∧
      Tells t.node.endpoint.key ⟨5, Header.confirmable⟩ [StatusCode.failure.digit]
        (t.perform (messageFive message)).1 ∧
      (t.node.endpoint.receive 8 ⟨5, Header.confirmable⟩ message t.node.engine).1 =
        .error .staleMessage := by
  obtain ⟨message, hcarries⟩ := exists_messageFive
  have hrun : Reaches (serving.perform (messageFive message)).2
      ((serving.perform (messageFive message)).2.perform (.rotate ⟨15⟩)).2 := .call .start _
  have hidle : ((serving.perform (messageFive message)).2.perform (.rotate ⟨15⟩)).2.node.engine =
      .idle :=
    ((sameManner_perform _ _).2.trans (sameManner_perform serving _).2).trans rfl
  have hfirst := tells_messageFive hcarries
  have hagain := tells_messageFive_again hcarries hrun hidle
  exact ⟨rfl, message, hfirst, hrun, hagain,
    (later_reply_refuses_stale rfl hfirst hrun hagain rfl).1⟩

/-- A confirmable request is answered with success and, when it comes again, with a failure. Both
replies are sealed under the nonce of acknowledgement 5. -/
theorem replies_differ_messageFive :
    serving.node.answersForgeries = false ∧
    ∃ message,
      Envelope.wrapped serving.node.endpoint.key (Header.mk 5 Header.confirmable).nonce []
        strangerRequest.payload = some message ∧
      Tells serving.node.endpoint.key ⟨5, Header.confirmable⟩ [StatusCode.success.digit]
        (serving.perform (messageFive message)).1 ∧
      Tells (serving.perform (messageFive message)).2.node.endpoint.key ⟨5, Header.confirmable⟩
        [StatusCode.failure.digit]
        ((serving.perform (messageFive message)).2.perform (messageFive message)).1 ∧
      [StatusCode.success.digit] ≠ [StatusCode.failure.digit] := by
  obtain ⟨message, hcarries⟩ := exists_messageFive
  have hidle : (serving.perform (messageFive message)).2.node.engine = .idle :=
    (sameManner_perform serving _).2.trans rfl
  exact ⟨rfl, message, hcarries.2, tells_messageFive hcarries,
    tells_messageFive_again hcarries .start hidle, by decide⟩

end Scene

end Node

end MeshSecurity
