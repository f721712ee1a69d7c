import MeshSecurity.Node.Run
import MeshSecurity.Proofs.BufferContents
import MeshSecurity.Proofs.RequestReplay

/-!
# The steps of a node

For each call: the parts of the node that it can change, with all others as they were. What a call
leaves alone is read off from these, and no call is opened again for it.
-/

namespace MeshSecurity

variable {width capacity size : Nat} {σ τ ρ ℓ π : Type}

namespace Endpoint

theorem receive_engine (width : Nat) (h : Header) (message : List UInt8) (e : Endpoint)
    (engine : Engine) : (e.receive width h message engine).2.2 = engine := by
  obtain ⟨busy⟩ := engine
  cases busy with
  | true =>
    obtain ⟨error, hreceive⟩ := receive_of_busy width h message e
    rw [hreceive]
  | false =>
    change (e.receive width h message .idle).2.2 = .idle
    rw [receive_of_idle]
    cases e.authentic h message with
    | none => rfl
    | some payload => rfl

end Endpoint

namespace Node

/-! ## HELLO dissemination and group key -/

theorem foldl_noteEvent_frame (now : Instant) (events : List TrickleEvent)
    (n : Node width capacity σ τ ρ) :
    ∃ journal, events.foldl (noteEvent now) n = { n with journal } := by
  induction events generalizing n with
  | nil => exact ⟨n.journal, rfl⟩
  | cons event events ih =>
    obtain ⟨journal, hnotes⟩ := ih (n.noteEvent now event)
    exact ⟨journal, hnotes⟩

section Random

variable [RandomSource ρ]

theorem resetTrickle_frame (now : Instant) (n : Node width capacity σ τ ρ) :
    ∃ trickle random journal, (n.resetTrickle now).2 = { n with trickle, random, journal } := by
  unfold resetTrickle
  dsimp only
  split
  · exact ⟨_, _, _, rfl⟩
  · exact ⟨_, _, _, rfl⟩
  · exact ⟨_, _, _, rfl⟩

theorem newNeighbor_frame (now : Instant) (n : Node width capacity σ τ ρ)
    (net : Network width size ℓ π) :
    ∃ trickle random journal, (n.newNeighbor now net).2 = { n with trickle, random, journal } := by
  unfold newNeighbor
  dsimp only
  split
  · exact ⟨_, _, _, rfl⟩
  · exact ⟨_, _, _, rfl⟩
  · exact ⟨_, _, _, rfl⟩

variable [LinkLayer ℓ width]

theorem startTrickle_frame (now : Instant) (n : Node width capacity σ τ ρ)
    (net : Network width size ℓ π) :
    ∃ trickle random journal,
      (n.startTrickle now net).2.1 = { n with trickle, random, journal } := by
  unfold startTrickle
  dsimp only
  split
  · obtain ⟨journal, hnotes⟩ := foldl_noteEvent_frame now _ _
    exact ⟨_, _, journal, hnotes⟩
  · exact ⟨_, _, _, rfl⟩

theorem poll_frame (now : Instant) (n : Node width capacity σ τ ρ)
    (net : Network width size ℓ π) :
    ∃ trickle random journal, (n.poll now net).2.1 = { n with trickle, random, journal } := by
  unfold poll
  dsimp only
  split
  · obtain ⟨journal, hnotes⟩ := foldl_noteEvent_frame now _ _
    exact ⟨_, _, journal, hnotes⟩
  · exact ⟨_, _, _, rfl⟩

end Random

/-! ## Pairwise secrets -/

section Scheme

variable [PairwiseScheme σ width]

theorem helloSecret_frame (sender : Address width) (n : Node width capacity σ τ ρ) :
    ∃ scheme, (n.helloSecret sender).2 = { n with scheme } := by
  unfold helloSecret
  split
  · exact ⟨_, rfl⟩
  · exact ⟨_, rfl⟩

theorem ackSecret_frame (sender : Address width) (n : Node width capacity σ τ ρ) :
    ∃ scheme, (n.ackSecret sender).2 = { n with scheme } := by
  unfold ackSecret
  split
  · exact ⟨_, rfl⟩
  · exact ⟨_, rfl⟩

theorem installSecret_frame (now : Instant) (request : Request width)
    (n : Node width capacity σ τ ρ) :
    ∃ scheme journal, n.installSecret now request = { n with scheme, journal } := by
  unfold installSecret
  dsimp only
  split
  · exact ⟨_, _, rfl⟩
  · split
    · exact ⟨_, _, rfl⟩
    · exact ⟨_, _, rfl⟩

end Scheme

/-! ## Revocation -/

theorem respond_node (h : Header) (status : StatusCode) (n : Node width capacity σ τ ρ)
    (response : List UInt8) : (n.respond h status response).2.2 = n := by
  have hengine : (n.endpoint.answer h.ack status response n.engine).engine = n.engine :=
    (Envelope.wrap_sealing _ _ _ _ _ _).engine_eq
  unfold respond
  dsimp only
  rw [hengine]

section Stored

variable [RecordStore τ]

theorem init_frame [PairwiseScheme σ width] (now : Instant) (n : Node width capacity σ τ ρ) :
    ∃ scheme revocations journal,
      (n.init now).2 = { n with scheme, revocations, journal } := by
  unfold init
  dsimp only
  split
  · exact ⟨_, _, _, rfl⟩
  · split
    · exact ⟨_, _, _, rfl⟩
    · exact ⟨_, _, _, rfl⟩

theorem clearRevocations_frame (now : Instant) (n : Node width capacity σ τ ρ) :
    ∃ revocations journal, (n.clearRevocations now).2 = { n with revocations, journal } := by
  unfold clearRevocations
  dsimp only
  split
  · exact ⟨_, _, rfl⟩
  · exact ⟨_, _, rfl⟩

variable [RandomSource ρ] [LinkLayer ℓ width] [Routing π width]

theorem revoke_frame (now : Instant) (peer : Address width) (listing : Bool)
    (n : Node width capacity σ τ ρ) (net : Network width size ℓ π) :
    ∃ state, (n.revoke now peer listing net).2.1 = { n with toRevocationState := state } := by
  unfold revoke
  split
  · exact ⟨_, rfl⟩
  · exact ⟨_, rfl⟩

variable [PairwiseScheme σ width]

theorem carryOut_frame (now : Instant) (request : Request width)
    (n : Node width capacity σ τ ρ) (net : Network width size ℓ π) :
    ∃ state scheme,
      (n.carryOut now request net).2.1 = { n with toRevocationState := state, scheme } := by
  obtain ⟨state, hrevoke⟩ := revoke_frame now request.peer true n net
  unfold carryOut
  split
  · rename_i report n₁ net₁ hresult
    obtain ⟨scheme, journal, hinstall⟩ := installSecret_frame now request n₁
    rw [hresult] at hrevoke
    dsimp only at hrevoke ⊢
    rw [hinstall, hrevoke]
    exact ⟨{ state with journal }, scheme, rfl⟩
  · rename_i hresult
    rw [hresult] at hrevoke
    exact ⟨state, n.scheme, hrevoke⟩

theorem handleRequest_frame (now : Instant) (h : Header) (message response : List UInt8)
    (n : Node width capacity σ τ ρ) (net : Network width size ℓ π) :
    ∃ state scheme, (n.handleRequest now h message response net).2.2.1 =
      { n with
        toRevocationState := state
        scheme
        endpoint := n.endpoint.after width ⟨h, message, n.engine⟩ } := by
  have hengine := Endpoint.receive_engine width h message n.endpoint n.engine
  unfold handleRequest Endpoint.after
  dsimp only
  rw [hengine]
  split
  · rename_i request hresult
    obtain ⟨state, scheme, hcarry⟩ := carryOut_frame now request
      { n with endpoint := (n.endpoint.receive width h message n.engine).2.1 } net
    dsimp only
    rw [respond_node, hcarry]
    exact ⟨_, scheme, rfl⟩
  · split
    · dsimp only
      rw [respond_node]
      exact ⟨_, _, rfl⟩
    · exact ⟨_, _, rfl⟩
  · exact ⟨_, _, rfl⟩
  · dsimp only
    rw [respond_node]
    exact ⟨_, _, rfl⟩

end Stored

/-! ## Calls of any kind -/

/-- Whether a call can change the revocation list. -/
def Operation.touchesList : Operation width → Bool
  | .init _ | .revoke .. | .request .. | .clear _ => true
  | _ => false

namespace Scene

variable [PairwiseScheme σ width] [RecordStore τ] [RandomSource ρ] [LinkLayer ℓ width]
  [Routing π width]

theorem perform_frame_of_untouched {op : Operation width} (huntouched : op.touchesList = false)
    (s : Scene width capacity size σ τ ρ ℓ π) :
    ∃ scheme groupKeys trickle random journal, (s.perform op).2.node =
      { s.node with scheme, groupKeys, trickle, random, journal } := by
  cases op with
  | start now =>
    obtain ⟨trickle, random, journal, h⟩ := startTrickle_frame now s.node s.net
    exact ⟨_, _, trickle, random, journal, h⟩
  | stop now => exact ⟨_, _, _, _, _, rfl⟩
  | poll now =>
    obtain ⟨trickle, random, journal, h⟩ := poll_frame now s.node s.net
    exact ⟨_, _, trickle, random, journal, h⟩
  | reset now =>
    obtain ⟨trickle, random, journal, h⟩ := resetTrickle_frame now s.node
    exact ⟨_, _, trickle, random, journal, h⟩
  | newNeighbor now =>
    obtain ⟨trickle, random, journal, h⟩ := newNeighbor_frame now s.node s.net
    exact ⟨_, _, trickle, random, journal, h⟩
  | hearFrom peer => exact ⟨_, _, _, _, _, rfl⟩
  | acceptsHello sender => exact ⟨_, _, _, _, _, rfl⟩
  | helloSecret sender =>
    obtain ⟨scheme, h⟩ := helloSecret_frame sender s.node
    exact ⟨scheme, _, _, _, _, h⟩
  | ackSecret sender =>
    obtain ⟨scheme, h⟩ := ackSecret_frame sender s.node
    exact ⟨scheme, _, _, _, _, h⟩
  | rotate now => exact ⟨_, _, _, _, _, rfl⟩
  | init now => cases huntouched
  | revoke now peer listing => cases huntouched
  | request now h message response => cases huntouched
  | clear now => cases huntouched

/-- The receiver after a call: a request is a delivery to it, and no other call concerns it. -/
def endpointAfter (s : Scene width capacity size σ τ ρ ℓ π) : Operation width → Endpoint
  | .request _ h message _ => s.node.endpoint.after width ⟨h, message, s.node.engine⟩
  | _ => s.node.endpoint

theorem perform_frame (s : Scene width capacity size σ τ ρ ℓ π) (op : Operation width) :
    ∃ state scheme, (s.perform op).2.node =
      { s.node with
        toRevocationState := state
        scheme
        endpoint := s.endpointAfter op } := by
  cases htouches : op.touchesList with
  | false =>
    obtain ⟨scheme, groupKeys, trickle, random, journal, h⟩ := perform_frame_of_untouched htouches s
    have hendpoint : s.endpointAfter op = s.node.endpoint := by
      cases op with
      | request now h message response => cases htouches
      | _ => rfl
    rw [hendpoint]
    exact ⟨_, scheme, h⟩
  | true =>
    cases op with
    | init now =>
      obtain ⟨scheme, revocations, journal, h⟩ := init_frame now s.node
      exact ⟨_, scheme, h⟩
    | revoke now peer listing =>
      obtain ⟨state, h⟩ := revoke_frame now peer listing s.node s.net
      exact ⟨state, s.node.scheme, h⟩
    | request now h message response =>
      exact handleRequest_frame now h message response s.node s.net
    | clear now =>
      obtain ⟨revocations, journal, h⟩ := clearRevocations_frame now s.node
      exact ⟨_, s.node.scheme, h⟩
    | _ => cases htouches

end Scene

end Node

end MeshSecurity
