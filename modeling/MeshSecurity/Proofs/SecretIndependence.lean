import Mathlib.Data.List.Forall2
import MeshSecurity.Proofs.AlikeSecrets
import MeshSecurity.Proofs.GroupKeyIndependence
import MeshSecurity.Proofs.ReplyNonces

/-!
# Secrets do not show

Two runs whose nodes differ in the group key, in the secret of the key scheme and in the replacement
secrets that come with requests cannot be told apart: all that is recorded, answered, stored and
sent is the same in both, the bytes of a secret that a call gives out apart.
-/

namespace MeshSecurity

variable {width capacity size : Nat} {σ τ ρ ℓ π : Type}

namespace Node

/-- The node with another state of its scheme and another group key. -/
def withSecrets (scheme : σ) (current : Option Key) (n : Node width capacity σ τ ρ) :
    Node width capacity σ τ ρ :=
  { n with toRevocationState := n.toRevocationState.withGroupKey current, scheme }

variable (scheme : σ) (current : Option Key) (now : Instant) (n : Node width capacity σ τ ρ)
  (net : Network width size ℓ π)

theorem foldl_noteEvent_withSecrets (events : List TrickleEvent) :
    events.foldl (noteEvent now) (n.withSecrets scheme current) =
      (events.foldl (noteEvent now) n).withSecrets scheme current := by
  induction events generalizing n with
  | nil => rfl
  | cons event events ih => exact ih (n.noteEvent now event)

section Random

variable [RandomSource ρ]

theorem resetTrickle_withSecrets :
    (n.withSecrets scheme current).resetTrickle now =
      ((n.resetTrickle now).1, (n.resetTrickle now).2.withSecrets scheme current) := by
  unfold resetTrickle
  dsimp only [withSecrets, RevocationState.withGroupKey]
  split
  · rfl
  · rfl
  · rfl

theorem newNeighbor_withSecrets :
    (n.withSecrets scheme current).newNeighbor now net =
      ((n.newNeighbor now net).1, (n.newNeighbor now net).2.withSecrets scheme current) := by
  unfold newNeighbor
  dsimp only [withSecrets, RevocationState.withGroupKey, noteTrickle]
  split
  · rfl
  · rfl
  · rfl

variable [LinkLayer ℓ width]

theorem startTrickle_withSecrets :
    (n.withSecrets scheme current).startTrickle now net =
      ((n.startTrickle now net).1, (n.startTrickle now net).2.1.withSecrets scheme current,
        (n.startTrickle now net).2.2) := by
  unfold startTrickle
  dsimp only [withSecrets, RevocationState.withGroupKey]
  generalize n.trickle.start now n.random net = started
  obtain ⟨result, trickle, random, net'⟩ := started
  cases result with
  | ok events =>
    have hnotes := foldl_noteEvent_withSecrets scheme current now { n with trickle, random } events
    exact Prod.ext rfl (Prod.ext hnotes rfl)
  | error e => rfl

theorem poll_withSecrets :
    (n.withSecrets scheme current).poll now net =
      ((n.poll now net).1, (n.poll now net).2.1.withSecrets scheme current,
        (n.poll now net).2.2) := by
  unfold poll
  dsimp only [withSecrets, RevocationState.withGroupKey]
  generalize n.trickle.poll now n.random net = polled
  obtain ⟨result, trickle, random, net'⟩ := polled
  cases result with
  | ok events =>
    have hnotes := foldl_noteEvent_withSecrets scheme current now { n with trickle, random } events
    exact Prod.ext rfl (Prod.ext hnotes rfl)
  | error e => rfl

theorem rotateGroupKey_withSecrets :
    ∃ current', (n.withSecrets scheme current).rotateGroupKey now net =
      ((n.rotateGroupKey now net).1, (n.rotateGroupKey now net).2.1.withSecrets scheme current',
        (n.rotateGroupKey now net).2.2) := by
  obtain ⟨current', hrotate⟩ :=
    n.groupKeys.rotate_withCurrent current now n.random net n.journal
  unfold rotateGroupKey
  dsimp only [withSecrets, RevocationState.withGroupKey]
  rw [hrotate]
  exact ⟨current', rfl⟩

end Random

section Stored

variable [RecordStore τ]

theorem clearRevocations_withSecrets :
    (n.withSecrets scheme current).clearRevocations now =
      ((n.clearRevocations now).1, (n.clearRevocations now).2.withSecrets scheme current) := by
  unfold clearRevocations
  dsimp only [withSecrets, RevocationState.withGroupKey]
  split
  · rfl
  · rfl

theorem revoke_withSecrets [RandomSource ρ] [LinkLayer ℓ width] [Routing π width]
    (peer : Address width) (listing : Bool) :
    ∃ current', (n.withSecrets scheme current).revoke now peer listing net =
      ((n.revoke now peer listing net).1,
        (n.revoke now peer listing net).2.1.withSecrets scheme current',
        (n.revoke now peer listing net).2.2) := by
  obtain ⟨current', hrevoke⟩ := n.toRevocationState.revoke_withGroupKey current now net
    n.config.revocation peer listing
  have hconfig : (n.withSecrets scheme current).config = n.config := rfl
  have hstate : (n.withSecrets scheme current).toRevocationState =
      n.toRevocationState.withGroupKey current := rfl
  unfold revoke
  rw [hconfig, hstate, hrevoke]
  split
  · exact ⟨current', rfl⟩
  · exact ⟨current, rfl⟩

end Stored

/-- Two nodes that differ in the group key and in the state of the scheme, where the two states of
the scheme are alike. -/
def Alike (alike : σ → σ → Prop) (n n' : Node width capacity σ τ ρ) : Prop :=
  ∃ scheme current, alike n.scheme scheme ∧ n' = n.withSecrets scheme current

section Scheme

variable [PairwiseScheme σ width] {alike : σ → σ → Prop} (veil : Veil alike)
  {n n' : Node width capacity σ τ ρ}
include veil

theorem helloSecret_alike (sender : Address width) (h : Alike alike n n') :
    SecretsAlike (n.helloSecret sender).1 (n'.helloSecret sender).1 ∧
      Alike alike (n.helloSecret sender).2 (n'.helloSecret sender).2 := by
  obtain ⟨scheme, current, hscheme, rfl⟩ := h
  have hrevoked : (n.withSecrets scheme current).revocations = n.revocations := rfl
  obtain ⟨hsecret, hscheme'⟩ := veil.helloSecret sender hscheme
  unfold helloSecret
  rw [hrevoked]
  split
  · exact ⟨rfl, scheme, current, hscheme, rfl⟩
  · exact ⟨hsecret, _, current, hscheme', rfl⟩

theorem ackSecret_alike (sender : Address width) (h : Alike alike n n') :
    SecretsAlike (n.ackSecret sender).1 (n'.ackSecret sender).1 ∧
      Alike alike (n.ackSecret sender).2 (n'.ackSecret sender).2 := by
  obtain ⟨scheme, current, hscheme, rfl⟩ := h
  have hrevoked : (n.withSecrets scheme current).revocations = n.revocations := rfl
  obtain ⟨hsecret, hscheme'⟩ := veil.ackSecret sender hscheme
  unfold ackSecret
  rw [hrevoked]
  split
  · exact ⟨rfl, scheme, current, hscheme, rfl⟩
  · exact ⟨hsecret, _, current, hscheme', rfl⟩

theorem init_alike [RecordStore τ] (h : Alike alike n n') :
    (n'.init now).1 = (n.init now).1 ∧ Alike alike (n.init now).2 (n'.init now).2 := by
  obtain ⟨scheme, current, hscheme, rfl⟩ := h
  obtain ⟨hresult, hscheme'⟩ := veil.init hscheme
  unfold init
  dsimp only [withSecrets, RevocationState.withGroupKey]
  rw [hresult]
  split
  · exact ⟨rfl, _, current, hscheme', rfl⟩
  · split
    · exact ⟨rfl, _, current, hscheme', rfl⟩
    · exact ⟨rfl, _, current, hscheme', rfl⟩

theorem installSecret_alike {request request' : Request width}
    (hrequest : Endpoint.RequestsAlike request request') (h : Alike alike n n') :
    Alike alike (n.installSecret now request) (n'.installSecret now request') := by
  obtain ⟨scheme, current, hscheme, rfl⟩ := h
  obtain ⟨hresult, hscheme'⟩ := veil.update request.peer hrequest.secret hscheme
  have hempty : request'.secret.isEmpty = request.secret.isEmpty := by
    rw [Bool.eq_iff_iff, List.isEmpty_iff_length_eq_zero, List.isEmpty_iff_length_eq_zero,
      hrequest.secret]
  unfold installSecret
  dsimp only [withSecrets, RevocationState.withGroupKey]
  rw [hempty, hrequest.peer, hresult]
  split
  · exact ⟨scheme, current, hscheme, rfl⟩
  · split
    · exact ⟨_, current, hscheme', rfl⟩
    · exact ⟨_, current, hscheme', rfl⟩

variable [RecordStore τ] [RandomSource ρ] [LinkLayer ℓ width] [Routing π width]

theorem carryOut_alike {request request' : Request width}
    (hrequest : Endpoint.RequestsAlike request request') (h : Alike alike n n') :
    (n'.carryOut now request' net).1 = (n.carryOut now request net).1 ∧
      Alike alike (n.carryOut now request net).2.1 (n'.carryOut now request' net).2.1 ∧
      (n'.carryOut now request' net).2.2 = (n.carryOut now request net).2.2 := by
  obtain ⟨scheme, current, hscheme, rfl⟩ := h
  obtain ⟨current', hrevoke⟩ := revoke_withSecrets scheme current now n net request.peer true
  obtain ⟨state, hframe⟩ := revoke_frame now request.peer true n net
  unfold carryOut
  rw [hrequest.peer, hrevoke]
  generalize n.revoke now request.peer true net = revoked at hframe
  obtain ⟨result, m, net'⟩ := revoked
  dsimp only at hframe
  have hrevoked : Alike alike m (m.withSecrets scheme current') :=
    ⟨scheme, current', by rw [hframe]; exact hscheme, rfl⟩
  cases result with
  | error e => exact ⟨rfl, hrevoked, rfl⟩
  | ok report => exact ⟨rfl, installSecret_alike now veil hrequest hrevoked, rfl⟩

/-- A request with another secret is handled alike. -/
theorem handleRequest_alike {h : Header} {message message' : List UInt8}
    (response : List UInt8)
    (hmessages : Endpoint.MessagesAlike width n.endpoint.key h message message')
    (hnode : Alike alike n n') :
    (n'.handleRequest now h message' response net).1 =
        (n.handleRequest now h message response net).1 ∧
      (n'.handleRequest now h message' response net).2.1 =
        (n.handleRequest now h message response net).2.1 ∧
      Alike alike (n.handleRequest now h message response net).2.2.1
        (n'.handleRequest now h message' response net).2.2.1 ∧
      (n'.handleRequest now h message' response net).2.2.2 =
        (n.handleRequest now h message response net).2.2.2 := by
  obtain ⟨scheme, current, hscheme, rfl⟩ := hnode
  obtain ⟨hresult, hstate⟩ := Endpoint.receive_alike hmessages n.engine
  have hengine : (n.withSecrets scheme current).engine = n.engine := rfl
  have hendpoint : (n.withSecrets scheme current).endpoint = n.endpoint := rfl
  unfold handleRequest
  rw [hengine, hendpoint]
  generalize n.endpoint.receive width h message n.engine = received at hresult hstate ⊢
  generalize n.endpoint.receive width h message' n.engine = received' at hresult hstate ⊢
  obtain ⟨result, endpoint, engine⟩ := received
  obtain ⟨result', state'⟩ := received'
  dsimp only at hresult hstate ⊢
  subst hstate
  have hreceived : Alike alike { n with endpoint, engine }
      { n.withSecrets scheme current with endpoint, engine } :=
    ⟨scheme, current, hscheme, rfl⟩
  cases result with
  | ok request =>
    cases result' with
    | error e => exact hresult.elim
    | ok request' =>
      have hcarried := carryOut_alike now net veil hresult hreceived
      dsimp only
      generalize carryOut now request { n with endpoint, engine } net = carried at hcarried ⊢
      generalize carryOut now request' { n.withSecrets scheme current with endpoint, engine } net =
        carried' at hcarried ⊢
      obtain ⟨status, m, net⟩ := carried
      obtain ⟨status', m', net'⟩ := carried'
      obtain ⟨hstatus, ⟨scheme', current', hscheme', hm'⟩, hnet⟩ := hcarried
      dsimp only at hstatus hscheme' hm' hnet ⊢
      subst hstatus hm' hnet
      exact ⟨rfl, rfl, ⟨scheme', current', hscheme', rfl⟩, rfl⟩
  | error e =>
    cases result' with
    | ok request' => exact hresult.elim
    | error e' =>
      have hsame : e' = e := hresult
      subst hsame
      cases e' with
      | authenticationFailed =>
        obtain ⟨state, config, answersForgeries, own, endpoint, engine⟩ := n
        cases answersForgeries with
        | true => exact ⟨rfl, rfl, ⟨scheme, current, hscheme, rfl⟩, rfl⟩
        | false => exact ⟨rfl, rfl, ⟨scheme, current, hscheme, rfl⟩, rfl⟩
      | _ => exact ⟨rfl, rfl, ⟨scheme, current, hscheme, rfl⟩, rfl⟩

end Scheme

/-- Whether a call uses the scheme. -/
def Operation.usesScheme : Operation width → Bool
  | .init _ => true
  | .helloSecret _ => true
  | .ackSecret _ => true
  | .request .. => true
  | _ => false

namespace Scene

/-- Whether two calls are equal or bring alike messages to a node with the management key `key`. -/
inductive CallsAlike (key : Key) : Operation width → Operation width → Prop
  | same (op : Operation width) : CallsAlike key op op
  | request (now : Instant) {h : Header} {message message' : List UInt8} (response : List UInt8)
      (hmessages : Endpoint.MessagesAlike width key h message message') :
      CallsAlike key (.request now h message response) (.request now h message' response)

/-- Whether two answers are equal, the bytes of a secret apart. -/
def AnswersAlike : Answer → Answer → Prop
  | .secret result, .secret result' => SecretsAlike result result'
  | answer, answer' => answer' = answer

theorem AnswersAlike.refl (answer : Answer) : AnswersAlike answer answer := by
  cases answer with
  | secret result => exact SecretsAlike.refl result
  | _ => rfl

/-- The scene with another state of the scheme and another group key of the node. -/
def withSecrets (scheme : σ) (current : Option Key) (s : Scene width capacity size σ τ ρ ℓ π) :
    Scene width capacity size σ τ ρ ℓ π :=
  { s with node := s.node.withSecrets scheme current }

/-- Two scenes that differ in the group key and in the state of the scheme, where the two states of
the scheme are alike. -/
structure Alike (alike : σ → σ → Prop) (s s' : Scene width capacity size σ τ ρ ℓ π) : Prop where
  node : Node.Alike alike s.node s'.node
  net : s'.net = s.net

variable [PairwiseScheme σ width] [RecordStore τ] [RandomSource ρ] [LinkLayer ℓ width]
  [Routing π width] {alike : σ → σ → Prop}

/-- Of the calls that do not use the scheme, none reads a secret. -/
theorem perform_withSecrets (scheme : σ) (current : Option Key)
    (s : Scene width capacity size σ τ ρ ℓ π) {op : Operation width}
    (hunused : op.usesScheme = false) :
    ∃ current', (s.withSecrets scheme current).perform op =
      ((s.perform op).1, (s.perform op).2.withSecrets scheme current') := by
  cases op with
  | start now =>
    have h := startTrickle_withSecrets scheme current now s.node s.net
    exact ⟨current, by rw [perform, withSecrets, h]; rfl⟩
  | stop now => exact ⟨current, rfl⟩
  | poll now =>
    have h := poll_withSecrets scheme current now s.node s.net
    exact ⟨current, by rw [perform, withSecrets, h]; rfl⟩
  | reset now =>
    have h := resetTrickle_withSecrets scheme current now s.node
    exact ⟨current, by rw [perform, withSecrets, h]; rfl⟩
  | newNeighbor now =>
    have h := newNeighbor_withSecrets scheme current now s.node s.net
    exact ⟨current, by rw [perform, withSecrets, h]; rfl⟩
  | hearFrom peer => exact ⟨current, rfl⟩
  | acceptsHello sender => exact ⟨current, rfl⟩
  | revoke now peer listing =>
    obtain ⟨current', h⟩ := revoke_withSecrets scheme current now s.node s.net peer listing
    exact ⟨current', by rw [perform, withSecrets, h]; rfl⟩
  | clear now =>
    have h := clearRevocations_withSecrets scheme current now s.node
    exact ⟨current, by rw [perform, withSecrets, h]; rfl⟩
  | rotate now =>
    obtain ⟨current', h⟩ := rotateGroupKey_withSecrets scheme current now s.node s.net
    exact ⟨current', by rw [perform, withSecrets, h]; rfl⟩
  | init now => cases hunused
  | helloSecret sender => cases hunused
  | ackSecret sender => cases hunused
  | request now h message response => cases hunused

theorem scheme_perform_of_unused (s : Scene width capacity size σ τ ρ ℓ π) {op : Operation width}
    (hunused : op.usesScheme = false) : (s.perform op).2.node.scheme = s.node.scheme := by
  obtain ⟨current, hperform⟩ := perform_withSecrets s.node.scheme s.node.groupKeys.current s hunused
  have hself : s.withSecrets s.node.scheme s.node.groupKeys.current = s := rfl
  rw [hself] at hperform
  rw [hperform]
  rfl

theorem request_alike (veil : Veil alike) {s s' : Scene width capacity size σ τ ρ ℓ π}
    (hscenes : Alike alike s s') (now : Instant) {h : Header} {message message' : List UInt8}
    (response : List UInt8)
    (hmessages : Endpoint.MessagesAlike width s.node.endpoint.key h message message') :
    AnswersAlike (s.perform (.request now h message response)).1
        (s'.perform (.request now h message' response)).1 ∧
      Alike alike (s.perform (.request now h message response)).2
        (s'.perform (.request now h message' response)).2 := by
  obtain ⟨hresult, hresponse, hnode, hnet⟩ :=
    handleRequest_alike now s.net veil response hmessages hscenes.node
  unfold perform
  dsimp only
  rw [hscenes.net, hresult, hresponse]
  exact ⟨rfl, hnode, hnet⟩

/-- One call keeps two scenes alike. -/
theorem perform_alike (veil : Veil alike) {s s' : Scene width capacity size σ τ ρ ℓ π}
    (hscenes : Alike alike s s') {op op' : Operation width}
    (hcalls : CallsAlike s.node.endpoint.key op op') :
    AnswersAlike (s.perform op).1 (s'.perform op').1 ∧
      Alike alike (s.perform op).2 (s'.perform op').2 := by
  cases hcalls with
  | request now response hmessages => exact request_alike veil hscenes now response hmessages
  | same op =>
    cases huses : op.usesScheme with
    | false =>
      obtain ⟨⟨scheme, current, hscheme, hnode⟩, hnet⟩ := hscenes
      have hscene : s' = s.withSecrets scheme current := congrArg₂ Scene.mk hnode hnet
      obtain ⟨current', hperform⟩ := perform_withSecrets scheme current s huses
      rw [hscene, hperform]
      refine ⟨.refl _, ⟨scheme, current', ?_, rfl⟩, rfl⟩
      rw [scheme_perform_of_unused s huses]
      exact hscheme
    | true =>
      cases op with
      | init now =>
        obtain ⟨hresult, hnode⟩ := init_alike now veil hscenes.node
        exact ⟨congrArg Answer.done hresult, hnode, hscenes.net⟩
      | helloSecret sender =>
        obtain ⟨hresult, hnode⟩ := helloSecret_alike veil sender hscenes.node
        exact ⟨hresult, hnode, hscenes.net⟩
      | ackSecret sender =>
        obtain ⟨hresult, hnode⟩ := ackSecret_alike veil sender hscenes.node
        exact ⟨hresult, hnode, hscenes.net⟩
      | request now h message response =>
        exact request_alike veil hscenes now response (.same message)
      | _ => cases huses

/-- Whether two steps are alike: calls that are, or the same doings of others. -/
inductive StepsAlike (key : Key) : Step width size ℓ π → Step width size ℓ π → Prop
  | call {op op' : Operation width} (hcalls : CallsAlike key op op') :
      StepsAlike key (.call op) (.call op')
  | meanwhile (change : Network width size ℓ π → Network width size ℓ π)
      (read : Journal → Journal) :
      StepsAlike key (.meanwhile change read) (.meanwhile change read)

theorem advance_alike (veil : Veil alike) {s s' : Scene width capacity size σ τ ρ ℓ π}
    (hscenes : Alike alike s s') {step step' : Step width size ℓ π}
    (hsteps : StepsAlike s.node.endpoint.key step step') :
    List.Forall₂ AnswersAlike (s.advance step).1 (s'.advance step').1 ∧
      Alike alike (s.advance step).2 (s'.advance step').2 := by
  cases hsteps with
  | call hcalls =>
    obtain ⟨hanswers, hscenes'⟩ := perform_alike veil hscenes hcalls
    exact ⟨.cons hanswers .nil, hscenes'⟩
  | meanwhile change read =>
    obtain ⟨⟨scheme, current, hscheme, hnode⟩, hnet⟩ := hscenes
    refine ⟨.nil, ⟨scheme, current, hscheme, ?_⟩, congrArg change hnet⟩
    rw [advance, hnode]
    rfl

theorem key_advance (s : Scene width capacity size σ τ ρ ℓ π) (step : Step width size ℓ π) :
    (s.advance step).2.node.endpoint.key = s.node.endpoint.key := by
  cases step with
  | call op => exact (ages_perform s op).key
  | meanwhile change read => rfl

/-- Whole runs keep two scenes alike. -/
theorem live_alike (veil : Veil alike) {s s' : Scene width capacity size σ τ ρ ℓ π}
    (hscenes : Alike alike s s') {steps steps' : List (Step width size ℓ π)}
    (hsteps : List.Forall₂ (StepsAlike s.node.endpoint.key) steps steps') :
    List.Forall₂ AnswersAlike (live steps s).1 (live steps' s').1 ∧
      Alike alike (live steps s).2 (live steps' s').2 := by
  induction steps generalizing s s' steps' with
  | nil =>
    cases hsteps
    exact ⟨.nil, hscenes⟩
  | cons step steps ih =>
    cases hsteps with
    | cons hstep hrest =>
      obtain ⟨hanswers, hscenes'⟩ := advance_alike veil hscenes hstep
      rw [← key_advance s step] at hrest
      obtain ⟨hanswers', hlast⟩ := ih hscenes' hrest
      rw [live_cons, live_cons]
      exact ⟨List.rel_append hanswers hanswers', hlast⟩

/-- Two runs of the same steps, replacement secrets apart, cannot be told apart, whatever the group
keys of the two nodes and the secrets of their schemes are: the calls yield the same, the bytes of
secrets apart, and all but these secrets is the same in the end, the journal included. This holds
of a shared key and of the rows of Blom's scheme. -/
theorem secrets_unobservable {lambda : Nat} {key : Key} {steps steps' : List (Step width size ℓ π)}
    (hsteps : List.Forall₂ (StepsAlike key) steps steps') :
    (∀ (s : Scene width capacity size (SharedKey width) τ ρ ℓ π) (scheme : SharedKey width)
        (current : Option Key),
      s.node.endpoint.key = key →
        List.Forall₂ AnswersAlike (live steps s).1
          (live steps' (s.withSecrets scheme current)).1 ∧
        ∃ scheme' current', (live steps' (s.withSecrets scheme current)).2 =
          (live steps s).2.withSecrets scheme' current') ∧
    ∀ (s : Scene width capacity size (Blom width lambda) τ ρ ℓ π) (scheme : Blom width lambda)
        (current : Option Key),
      s.node.endpoint.key = key → s.node.scheme.SameShape scheme →
        List.Forall₂ AnswersAlike (live steps s).1
          (live steps' (s.withSecrets scheme current)).1 ∧
        ∃ scheme' current', (live steps s).2.node.scheme.SameShape scheme' ∧
          (live steps' (s.withSecrets scheme current)).2 =
            (live steps s).2.withSecrets scheme' current' := by
  constructor
  · intro s scheme current hkey
    subst hkey
    have hscenes : Alike (fun _ _ => True) s (s.withSecrets scheme current) :=
      ⟨⟨scheme, current, trivial, rfl⟩, rfl⟩
    obtain ⟨hanswers, ⟨scheme', current', -, hnode⟩, hnet⟩ :=
      live_alike SharedKey.veil hscenes hsteps
    exact ⟨hanswers, scheme', current', congrArg₂ Scene.mk hnode hnet⟩
  · intro s scheme current hkey hshape
    subst hkey
    have hscenes : Alike Blom.SameShape s (s.withSecrets scheme current) :=
      ⟨⟨scheme, current, hshape, rfl⟩, rfl⟩
    obtain ⟨hanswers, ⟨scheme', current', hshape', hnode⟩, hnet⟩ :=
      live_alike Blom.veil hscenes hsteps
    exact ⟨hanswers, scheme', current', hshape', congrArg₂ Scene.mk hnode hnet⟩

/-- A rotation of the group key, a message, and a HELLO. -/
def rekeyingSteps (message : List UInt8) : List (Step 8 4 (Radio 8) (ParentSet 8)) :=
  [.call (.rotate ⟨15⟩), .call (.request ⟨20⟩ ⟨3, 0⟩ message (List.replicate 9 0)),
    .call (.helloSecret (.repeated 2))]

/-- The scene of `serving` with another key scheme. -/
def servingWith (scheme : σ) :
    Scene 8 4 4 σ (MemoryStore 64) Generator (Radio 8) (ParentSet 8) where
  node := .assemble .standard false scheme .empty Endpoint.demonstrationKey (.constant ⟨7⟩)
    (.provisioned (Vector.replicate 16 0x11))
  net := serving.net

theorem exists_rekeying (byte : UInt8) :
    ∃ message, Envelope.wrapped Endpoint.demonstrationKey (Header.mk 3 0).nonce []
      (Request.mk (.repeated 8) (List.replicate 16 byte) : Request 8).payload = some message := by
  apply Envelope.exists_wrapped
  simp only [Request.payload, List.length_append, List.length_replicate]
  decide

/-- Other keys from the beginning, and another key in the request for a permanent neighbor. -/
theorem secrets_unobservable_rekeying :
    let s := servingWith (SharedKey.mk (Vector.replicate 16 3) : SharedKey 8)
    let s' := s.withSecrets ⟨Vector.replicate 16 4⟩ (some (Vector.replicate 16 5))
    let t := servingWith (Blom.ofRow (Vector.replicate 5 6) .byLastByte : Blom 8 5)
    let row' : Blom 8 5 := .ofRow (Vector.replicate 5 7) .byLastByte
    let t' := t.withSecrets row' none
    ∃ message message',
      List.Forall₂ (StepsAlike Endpoint.demonstrationKey) (rekeyingSteps message)
        (rekeyingSteps message') ∧
      message ≠ message' ∧
      s.node.endpoint.key = Endpoint.demonstrationKey ∧
      List.Forall₂ AnswersAlike (live (rekeyingSteps message) s).1
        (live (rekeyingSteps message') s').1 ∧
      (∃ scheme current, (live (rekeyingSteps message') s').2 =
        (live (rekeyingSteps message) s).2.withSecrets scheme current) ∧
      t.node.endpoint.key = Endpoint.demonstrationKey ∧ t.node.scheme.SameShape row' ∧
      List.Forall₂ AnswersAlike (live (rekeyingSteps message) t).1
        (live (rekeyingSteps message') t').1 ∧
      ∃ scheme current, (live (rekeyingSteps message) t).2.node.scheme.SameShape scheme ∧
        (live (rekeyingSteps message') t').2 =
          (live (rekeyingSteps message) t).2.withSecrets scheme current := by
  intro s s' t row' t'
  obtain ⟨message, hmessage⟩ := exists_rekeying 1
  obtain ⟨message', hmessage'⟩ := exists_rekeying 2
  have hmessages : Endpoint.MessagesAlike 8 Endpoint.demonstrationKey ⟨3, 0⟩ message message' :=
    .sealed (by rfl) hmessage hmessage'
  have hsteps : List.Forall₂ (StepsAlike Endpoint.demonstrationKey) (rekeyingSteps message)
      (rekeyingSteps message') :=
    .cons (.call (.same _)) (.cons (.call (.request _ _ hmessages))
      (.cons (.call (.same _)) .nil))
  have hother : message ≠ message' := by
    rintro rfl
    have hpayload := Option.some.inj ((Envelope.unwrapped_eq_some_iff.mpr hmessage).symm.trans
      (Envelope.unwrapped_eq_some_iff.mpr hmessage'))
    exact absurd hpayload (by decide)
  have hshape : t.node.scheme.SameShape row' := Blom.sameShape_ofRow _ _ _
  obtain ⟨hshared, hblom⟩ := @secrets_unobservable 8 4 4 (MemoryStore 64) Generator (Radio 8)
    (ParentSet 8) _ _ _ _ 5 _ _ _ hsteps
  obtain ⟨hanswers, hlast⟩ := hshared s ⟨Vector.replicate 16 4⟩ (some (Vector.replicate 16 5)) rfl
  obtain ⟨hanswers', hlast'⟩ := hblom t row' none rfl hshape
  exact ⟨message, message', hsteps, hother, rfl, hanswers, hlast, rfl, hshape, hanswers', hlast'⟩

end Scene

end Node

end MeshSecurity
