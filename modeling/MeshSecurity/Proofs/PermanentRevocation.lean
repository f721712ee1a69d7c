import MeshSecurity.Proofs.RequestEquivalence
import MeshSecurity.Proofs.RevocationReports

/-!
# Revocation is permanent

No call but the two that replace the whole list takes an address off it: every other one leaves the
list alone or adds one address at its end. So a peer whose revocation was confirmed, by its result
or by the answer to a request, stays revoked as long as the list is neither loaded nor cleared.
-/

namespace MeshSecurity

variable {width capacity size : Nat} {σ τ ρ ℓ π : Type}

theorem StatusCode.digit_inj {a b : StatusCode} : a.digit = b.digit ↔ a = b := by
  cases a <;> cases b <;> decide

theorem Error.statusCode_ne_success (e : Error) : e.statusCode ≠ .success := by
  cases e <;> decide

/-! ## Accepted requests -/

namespace Endpoint

theorem unwrapped_of_authentic {h : Header} {message payload : List UInt8} {e : Endpoint}
    (hauthentic : e.authentic h message = some payload) :
    Envelope.unwrapped e.key h.nonce [] message = some payload := by
  unfold authentic at hauthentic
  split at hauthentic
  · exact hauthentic
  · cases hauthentic

theorem payload_of_accept_ok {h : Header} {payload : List UInt8} {e : Endpoint}
    {request : Request width} (hok : (e.accept width h payload).1 = .ok request) :
    request.payload = payload := by
  cases hfresh : e.isFresh h.id with
  | false =>
    rw [accept_of_stale hfresh] at hok
    cases hok
  | true =>
    rw [accept, if_pos hfresh] at hok
    cases hread : Request.ofPayload? width payload with
    | none =>
      rw [hread] at hok
      cases hok
    | some accepted =>
      rw [hread] at hok
      cases hok
      exact Request.ofPayload?_eq_some_iff.mp hread

theorem opens_of_receive_ok {h : Header} {message : List UInt8} {e : Endpoint} {engine : Engine}
    {request : Request width} (hok : (e.receive width h message engine).1 = .ok request) :
    Envelope.unwrapped e.key h.nonce [] message = some request.payload := by
  obtain ⟨busy⟩ := engine
  cases busy with
  | true =>
    obtain ⟨error, hreceive⟩ := receive_of_busy width h message e
    rw [hreceive] at hok
    cases hok
  | false =>
    change (e.receive width h message .idle).1 = _ at hok
    rw [receive_of_idle] at hok
    cases hauthentic : e.authentic h message with
    | none =>
      rw [hauthentic] at hok
      cases hok
    | some payload =>
      rw [hauthentic] at hok
      rw [payload_of_accept_ok hok]
      exact unwrapped_of_authentic hauthentic

end Endpoint

/-! ## What is added to the list -/

namespace RevocationState

variable [RecordStore τ] [RandomSource ρ] [LinkLayer ℓ width] [Routing π width]

/-- A full list stops the revocation; otherwise the peer is the last one listed, whatever becomes
of the revocation. -/
theorem revoke_entries (c : RevocationConfig) (now : Instant) (peer : Address width)
    (s : RevocationState width capacity τ ρ) (net : Network width size ℓ π) :
    ((s.revoke c now peer true net).1 = .error .capacityExceeded ∧
      (s.revoke c now peer true net).2.1.revocations = s.revocations) ∨
    (s.revoke c now peer true net).2.1.revocations.entries.toList =
      s.revocations.entries.toList ++ [peer] := by
  have hremove (report : RevocationReport) (t : RevocationState width capacity τ ρ) :
      (t.removePeer c now peer report net).2.1.revocations = t.revocations := by
    obtain ⟨groupKeys, trickle, random, journal, hframe⟩ := removePeer_frame c now peer report t net
    rw [hframe]
  unfold revoke
  rw [if_pos rfl]
  rcases s.enlist_cases now peer .blank with
    ⟨n, list, hrevoke, henlist⟩ | ⟨list, hrevoke, henlist⟩ | ⟨list, hrevoke, henlist⟩
  · obtain ⟨hentries, -⟩ := RevocationList.revoke_of_room hrevoke (by simp)
    rw [henlist]
    dsimp only
    rw [hremove]
    exact .inr hentries
  · obtain ⟨hentries, -⟩ := RevocationList.revoke_of_room hrevoke (by simp)
    rw [henlist]
    dsimp only
    rw [hremove]
    exact .inr hentries
  · have hfull := RevocationList.revoke_eq_of_full (by rw [hrevoke])
    rw [hrevoke] at hfull
    rw [henlist]
    exact .inl ⟨rfl, hfull⟩

end RevocationState

namespace Node

def listed (n : Node width capacity σ τ ρ) : List (Address width) := n.revocations.entries.toList

/-- Whether an answer opens as the report of a success. -/
def ReportsSuccess (key : Key) (h : Header) (result : Except Error (Option Nat))
    (response : List UInt8) : Prop :=
  ∃ length, result = .ok (some length) ∧
    Envelope.unwrapped key h.ack.nonce [] (response.take length) =
      some [StatusCode.success.digit]

theorem not_reportsSuccess_respond {h : Header} {status : StatusCode} {response : List UInt8}
    {n : Node width capacity σ τ ρ} (hstatus : status ≠ .success) :
    ¬ ReportsSuccess n.endpoint.key h (n.respond h status response).1
      (n.respond h status response).2.1 := by
  rintro ⟨length, hok, hopens⟩
  rw [opens_of_respond hok, Option.some.injEq, List.singleton_inj] at hopens
  exact hstatus (StatusCode.digit_inj.mp hopens)

section Stored

variable [RecordStore τ] [RandomSource ρ] [LinkLayer ℓ width] [Routing π width]

theorem listed_revoke (now : Instant) (peer : Address width) (n : Node width capacity σ τ ρ)
    (net : Network width size ℓ π) :
    ((n.revoke now peer true net).2.1.listed = n.listed ∧
      ((n.revoke now peer true net).1 = .error .capacityExceeded ∨
        (n.revoke now peer true net).1 = .error .revocationDisabled)) ∨
    (n.revoke now peer true net).2.1.listed = n.listed ++ [peer] := by
  unfold revoke
  split
  · rcases n.toRevocationState.revoke_entries n.config.revocation now peer net with
      ⟨hfull, hsame⟩ | hlisted
    · exact .inl ⟨congrArg (·.entries.toList) hsame, .inl hfull⟩
    · exact .inr hlisted
  · exact .inl ⟨rfl, .inr rfl⟩

theorem listed_revoke_unlisted (now : Instant) (peer : Address width)
    (n : Node width capacity σ τ ρ) (net : Network width size ℓ π) :
    (n.revoke now peer false net).2.1.listed = n.listed := by
  obtain ⟨groupKeys, trickle, random, journal, hremove⟩ :=
    RevocationState.removePeer_frame n.config.revocation now peer .blank n.toRevocationState net
  unfold revoke
  split
  · exact congrArg (·.revocations.entries.toList) hremove
  · rfl

variable [PairwiseScheme σ width]

theorem listed_carryOut (now : Instant) (request : Request width)
    (n : Node width capacity σ τ ρ) (net : Network width size ℓ π) :
    ((n.carryOut now request net).2.1.listed = n.listed ∧
      (n.carryOut now request net).1 ≠ .success) ∨
    (n.carryOut now request net).2.1.listed = n.listed ++ [request.peer] := by
  have hrevoke := listed_revoke now request.peer n net
  unfold carryOut
  generalize n.revoke now request.peer true net = revoked at hrevoke ⊢
  obtain ⟨result, n₁, net₁⟩ := revoked
  cases result with
  | ok report =>
    obtain ⟨scheme, journal, hinstall⟩ := installSecret_frame now request n₁
    rcases hrevoke with ⟨-, hfull | hdisabled⟩ | hlisted
    · cases hfull
    · cases hdisabled
    · dsimp only
      rw [hinstall]
      exact .inr hlisted
  | error e =>
    rcases hrevoke with ⟨hsame, -⟩ | hlisted
    · exact .inl ⟨hsame, e.statusCode_ne_success⟩
    · exact .inr hlisted

/-- A request that opens adds its peer to the list, or the list stays and no success is reported. -/
theorem listed_handleRequest (now : Instant) (h : Header) (message response : List UInt8)
    (n : Node width capacity σ τ ρ) (net : Network width size ℓ π) :
    ((n.handleRequest now h message response net).2.2.1.listed = n.listed ∧
      ¬ ReportsSuccess n.endpoint.key h (n.handleRequest now h message response net).1
        (n.handleRequest now h message response net).2.1) ∨
    ∃ request : Request width,
      Envelope.unwrapped n.endpoint.key h.nonce [] message = some request.payload ∧
      (n.handleRequest now h message response net).2.2.1.listed = n.listed ++ [request.peer] := by
  obtain ⟨state, config, answersForgeries, scheme, endpoint, engine⟩ := n
  have hkey := Endpoint.after_key width ⟨h, message, engine⟩ endpoint
  have hopens (request : Request width)
      (hok : (endpoint.receive width h message engine).1 = .ok request) :=
    Endpoint.opens_of_receive_ok hok
  unfold Endpoint.after at hkey
  unfold handleRequest
  dsimp only at hkey ⊢
  generalize endpoint.receive width h message engine = received at hkey hopens ⊢
  obtain ⟨result, endpoint', engine'⟩ := received
  dsimp only at hkey hopens ⊢
  rw [← hkey]
  split
  · rename_i request
    have hcarry := listed_carryOut now request
      ⟨state, config, answersForgeries, scheme, endpoint', engine'⟩ net
    obtain ⟨state', scheme', hframe⟩ := carryOut_frame now request
      ⟨state, config, answersForgeries, scheme, endpoint', engine'⟩ net
    generalize carryOut now request
      ⟨state, config, answersForgeries, scheme, endpoint', engine'⟩ net = carried at hcarry hframe ⊢
    obtain ⟨status, n, net'⟩ := carried
    dsimp only at hcarry hframe ⊢
    have hendpoint : n.endpoint = endpoint' := congrArg (·.endpoint) hframe
    rw [respond_node]
    rcases hcarry with ⟨hsame, hstatus⟩ | hlisted
    · rw [← hendpoint]
      exact .inl ⟨hsame, not_reportsSuccess_respond hstatus⟩
    · exact .inr ⟨request, hkey ▸ hopens request rfl, hlisted⟩
  · split
    · dsimp only
      rw [respond_node]
      exact .inl ⟨rfl, not_reportsSuccess_respond (by decide)⟩
    · refine .inl ⟨rfl, ?_⟩
      rintro ⟨length, hnone, -⟩
      cases hnone
  · refine .inl ⟨rfl, ?_⟩
    rintro ⟨length, herror, -⟩
    cases herror
  · rename_i e _ _
    dsimp only
    rw [respond_node]
    exact .inl ⟨rfl, not_reportsSuccess_respond e.statusCode_ne_success⟩

end Stored

/-! ## Runs that keep the list -/

/-- Whether a call replaces the whole list, by what is stored or by nothing. -/
def Operation.replacesList : Operation width → Bool
  | .init _ => true
  | .clear _ => true
  | _ => false

namespace Scene

variable [PairwiseScheme σ width] [RecordStore τ] [RandomSource ρ] [LinkLayer ℓ width]
  [Routing π width]

theorem listed_perform {op : Operation width} (hkept : op.replacesList = false)
    (s : Scene width capacity size σ τ ρ ℓ π) :
    s.node.listed <+: (s.perform op).2.node.listed := by
  cases htouches : op.touchesList with
  | false =>
    obtain ⟨scheme, groupKeys, trickle, random, journal, hperform⟩ :=
      perform_frame_of_untouched htouches s
    rw [hperform]
    exact List.prefix_rfl
  | true =>
    cases op with
    | revoke now peer listing =>
      cases listing with
      | false =>
        have hsame : (s.perform (.revoke now peer false)).2.node.listed = s.node.listed :=
          listed_revoke_unlisted now peer s.node s.net
        exact hsame.symm ▸ List.prefix_rfl
      | true =>
        rcases listed_revoke now peer s.node s.net with ⟨hsame, -⟩ | hlisted
        · exact hsame.symm ▸ List.prefix_rfl
        · exact hlisted.symm ▸ List.prefix_append _ _
    | request now h message response =>
      rcases listed_handleRequest now h message response s.node s.net with
        ⟨hsame, -⟩ | ⟨request, -, hlisted⟩
      · exact hsame.symm ▸ List.prefix_rfl
      · exact hlisted.symm ▸ List.prefix_append _ _
    | init now => cases hkept
    | clear now => cases hkept
    | _ => cases htouches

/-- Runs of calls that do not replace the list. Between two calls others may read the journal, hold
or release the cipher engine, and change the network, which is only lent. -/
inductive KeepingRun (s : Scene width capacity size σ τ ρ ℓ π) :
    Scene width capacity size σ τ ρ ℓ π → Prop
  | start : KeepingRun s s
  | call {t} (hrun : KeepingRun s t) {op : Operation width} (hkept : op.replacesList = false) :
      KeepingRun s (t.perform op).2
  | meanwhile {t} (hrun : KeepingRun s t) (journal : Journal) (engine : Engine)
      (net : Network width size ℓ π) : KeepingRun s ⟨{ t.node with journal, engine }, net⟩

theorem KeepingRun.listed {s t : Scene width capacity size σ τ ρ ℓ π} (hrun : KeepingRun s t) :
    s.node.listed <+: t.node.listed := by
  induction hrun with
  | start => exact List.prefix_rfl
  | call hrun hkept ih => exact ih.trans (listed_perform hkept _)
  | meanwhile hrun journal engine net ih => exact ih

/-- The calls and results by which the revocation of a peer is confirmed: it was revoked, though its
record may not be stored, its neighbor entry be inconsistent or the new key not be drawn, or a
sealed request for it was answered with success. -/
inductive Confirms (key : Key) (peer : Address width) : Operation width → Answer → Prop
  | revoked {now report} : Confirms key peer (.revoke now peer true) (.report (.ok report))
  | keyNotDrawn {now} :
      Confirms key peer (.revoke now peer true) (.report (.error .randomFailure))
  | inconsistent {now} :
      Confirms key peer (.revoke now peer true) (.report (.error .inconsistentNeighbor))
  | requested {now h message response result response' secret}
      (hrequest :
        Envelope.unwrapped key h.nonce [] message = some (Request.payload ⟨peer, secret⟩))
      (hsuccess : ReportsSuccess key h result response') :
      Confirms key peer (.request now h message response) (.responded result response')

theorem listed_of_confirms {s : Scene width capacity size σ τ ρ ℓ π} {op : Operation width}
    {peer : Address width}
    (hconfirms : Confirms s.node.endpoint.key peer op (s.perform op).1) :
    (s.perform op).2.node.listed = s.node.listed ++ [peer] := by
  have hrevoke (now : Instant) {result : Except Error RevocationReport}
      (hresult : (s.node.revoke now peer true s.net).1 = result)
      (hfull : result ≠ .error .capacityExceeded) (hoff : result ≠ .error .revocationDisabled) :
      (s.perform (.revoke now peer true)).2.node.listed = s.node.listed ++ [peer] := by
    rcases listed_revoke now peer s.node s.net with ⟨-, herror | herror⟩ | hlisted
    · exact absurd (hresult.symm.trans herror) hfull
    · exact absurd (hresult.symm.trans herror) hoff
    · exact hlisted
  generalize hanswer : (s.perform op).1 = answer at hconfirms
  cases hconfirms with
  | revoked => exact hrevoke _ (Answer.report.inj hanswer) (by simp) (by simp)
  | keyNotDrawn => exact hrevoke _ (Answer.report.inj hanswer) (by simp) (by simp)
  | inconsistent => exact hrevoke _ (Answer.report.inj hanswer) (by simp) (by simp)
  | @requested now h message response result response' secret hrequest hsuccess =>
    have hresult : (s.node.handleRequest now h message response s.net).1 = result :=
      (Answer.responded.inj hanswer).1
    have hresponse : (s.node.handleRequest now h message response s.net).2.1 = response' :=
      (Answer.responded.inj hanswer).2
    rcases listed_handleRequest now h message response s.node s.net with
      ⟨-, hfailed⟩ | ⟨request, hopens, hlisted⟩
    · rw [hresult, hresponse] at hfailed
      exact absurd hsuccess hfailed
    · -- the request that was read and the one that was meant have the same payload
      have hread := Request.ofPayload?_eq_some_iff.mpr
        (Option.some.inj (hopens.symm.trans hrequest))
      rw [Request.ofPayload?_eq_some_iff.mpr rfl, Option.some.injEq] at hread
      rw [← hread] at hlisted
      exact hlisted

/-- A listed peer is refused, and the scheme is not even asked. -/
theorem refused_of_listed {s : Scene width capacity size σ τ ρ ℓ π} {peer : Address width}
    (hlisted : peer ∈ s.node.listed) :
    s.perform (.acceptsHello peer) = (.accepts false, s) ∧
      s.perform (.helloSecret peer) = (.secret (.error .peerNotFound), s) ∧
      s.perform (.ackSecret peer) = (.secret (.error .peerNotFound), s) := by
  have hrevoked : s.node.revocations.isRevoked peer = true := List.contains_iff_mem.mpr hlisted
  refine ⟨?_, ?_, ?_⟩
  · rw [perform, acceptsHelloFrom, hrevoked]
    rfl
  · rw [perform, helloSecret, if_pos hrevoked]
  · rw [perform, ackSecret, if_pos hrevoked]

/-- From the call on by which the revocation of a peer is confirmed, the peer is refused as long as
no call replaces the list, and the list only grows. -/
theorem revocation_permanent {s t u : Scene width capacity size σ τ ρ ℓ π} {op : Operation width}
    {peer : Address width}
    (hconfirms : Confirms s.node.endpoint.key peer op (s.perform op).1)
    (hfirst : KeepingRun (s.perform op).2 t) (hlater : KeepingRun t u) :
    (u.perform (.acceptsHello peer) = (.accepts false, u) ∧
      u.perform (.helloSecret peer) = (.secret (.error .peerNotFound), u) ∧
      u.perform (.ackSecret peer) = (.secret (.error .peerNotFound), u)) ∧
    s.node.listed ++ [peer] <+: t.node.listed ∧ t.node.listed <+: u.node.listed := by
  have hprefix : s.node.listed ++ [peer] <+: t.node.listed :=
    listed_of_confirms hconfirms ▸ hfirst.listed
  have hlisted : peer ∈ t.node.listed := hprefix.subset List.mem_concat_self
  exact ⟨refused_of_listed (hlater.listed.subset hlisted), hprefix, hlater.listed⟩

/-- A neighbor is revoked and then, while the radio holds the engine, another node. -/
theorem revocation_permanent_anotherNode :
    let op : Operation 8 := .revoke ⟨10⟩ (.repeated 8) true
    let t := (serving.perform op).2
    let held : Scene 8 4 4 (RefusingScheme 8) (MemoryStore 64) Generator (Radio 8) (ParentSet 8) :=
      ⟨{ t.node with engine := ⟨true⟩ }, t.net⟩
    let u := (held.perform (.revoke ⟨20⟩ (.repeated 9) true)).2
    Confirms serving.node.endpoint.key (.repeated 8) op (serving.perform op).1 ∧
      KeepingRun (serving.perform op).2 t ∧ KeepingRun t u ∧
      u.node.listed = [.repeated 8, .repeated 9] ∧
      u.perform (.acceptsHello (.repeated 8)) = (.accepts false, u) ∧
      u.perform (.helloSecret (.repeated 8)) = (.secret (.error .peerNotFound), u) ∧
      u.perform (.ackSecret (.repeated 8)) = (.secret (.error .peerNotFound), u) := by
  intro op t held u
  have hanswer : (serving.perform op).1 =
    .report (.ok ⟨some 1, false, some .permanent, .notParent, some 0, false⟩) := rfl
  have hconfirms : Confirms serving.node.endpoint.key (.repeated 8) op (serving.perform op).1 := by
    rw [hanswer]
    exact .revoked
  have hfirst : KeepingRun (serving.perform op).2 t := .start
  have hlater : KeepingRun t u := (hfirst.meanwhile t.node.journal ⟨true⟩ t.net).call rfl
  obtain ⟨hrefused, -, -⟩ := revocation_permanent hconfirms hfirst hlater
  exact ⟨hconfirms, hfirst, hlater, rfl, hrefused⟩

end Scene

end Node

end MeshSecurity
