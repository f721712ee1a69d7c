import MeshSecurity.Pairwise.Blom
import MeshSecurity.Proofs.RequestAcceptance

/-!
# Secrets that differ in their bytes alone

A receiver treats two requests alike whose secrets have the same length, and a key scheme succeeds
with one as it does with the other. What a scheme knows beyond its secret, such as the numbers of
its peers, is the same in states that are alike.
-/

namespace MeshSecurity

variable {width : Nat} {σ : Type}

/-! ## Messages with replacement secrets -/

namespace Endpoint

/-- Whether two messages are equal or sealed forms of requests for one peer, with secrets of the
same length. -/
inductive MessagesAlike (width : Nat) (key : Key) (h : Header) :
    List UInt8 → List UInt8 → Prop
  | same (message : List UInt8) : MessagesAlike width key h message message
  | sealed {peer : Address width} {secret secret' message message' : List UInt8}
      (hlength : secret'.length = secret.length)
      (hmessage : Envelope.wrapped key h.nonce [] (Request.mk peer secret).payload = some message)
      (hmessage' :
        Envelope.wrapped key h.nonce [] (Request.mk peer secret').payload = some message') :
      MessagesAlike width key h message message'

/-- Two requests for one peer, with secrets of the same length. -/
structure RequestsAlike (request request' : Request width) : Prop where
  peer : request'.peer = request.peer
  secret : request'.secret.length = request.secret.length

/-- Two results of a receiver that are the same error or requests with equally long secrets. -/
def ReceivedAlike : Except Error (Request width) → Except Error (Request width) → Prop
  | .ok request, .ok request' => RequestsAlike request request'
  | .error e, .error e' => e' = e
  | _, _ => False

theorem receive_busy_congr {message message' : List UInt8}
    (hlength : message'.length = message.length) (width : Nat) (h : Header) (e : Endpoint) :
    e.receive width h message' ⟨true⟩ = e.receive width h message ⟨true⟩ := by
  unfold receive Envelope.unwrap
  simp only [hlength]
  rfl

theorem ReceivedAlike.refl (result : Except Error (Request width)) :
    ReceivedAlike result result := by
  cases result with
  | ok request => exact ⟨rfl, rfl⟩
  | error e => rfl

theorem receive_alike {h : Header} {message message' : List UInt8} {e : Endpoint}
    (hmessages : MessagesAlike width e.key h message message') (engine : Engine) :
    ReceivedAlike (e.receive width h message engine).1 (e.receive width h message' engine).1 ∧
      (e.receive width h message' engine).2 = (e.receive width h message engine).2 := by
  cases hmessages with
  | same => exact ⟨.refl _, rfl⟩
  | @sealed peer secret secret' _ _ hsecret hmessage hmessage' =>
    have hpayload : (Request.mk peer secret').payload.length =
        (Request.mk peer secret).payload.length := by
      simp [Request.payload, hsecret]
    have hlength : message'.length = message.length := by
      rw [Ccm.length_of_wrap _ _ hmessage, Ccm.length_of_wrap _ _ hmessage', hpayload]
    by_cases hlong : Request.maxSealed < message.length
    · unfold receive
      rw [if_pos hlong, if_pos (hlength ▸ hlong)]
      exact ⟨rfl, rfl⟩
    · have hcarries : Carries e.key h _ message :=
        carries_iff.mpr ⟨Nat.not_lt.mp hlong, hmessage⟩
      have hcarries' : Carries e.key h _ message' :=
        carries_iff.mpr ⟨hlength ▸ Nat.not_lt.mp hlong, hmessage'⟩
      obtain ⟨busy⟩ := engine
      cases busy with
      | true =>
        rw [receive_busy_congr hlength]
        exact ⟨.refl _, rfl⟩
      | false =>
        change ReceivedAlike (e.receive width h message .idle).1
            (e.receive width h message' .idle).1 ∧
          (e.receive width h message' .idle).2 = (e.receive width h message .idle).2
        by_cases hnewer : e.Newer h.id
        · rw [receive_of_request hcarries hnewer, receive_of_request hcarries' hnewer]
          exact ⟨⟨rfl, hsecret⟩, rfl⟩
        · rw [receive_of_stale hcarries hnewer, receive_of_stale hcarries' hnewer]
          exact ⟨rfl, rfl⟩

end Endpoint

/-! ## Schemes whose secrets do not show -/

/-- Two results that are the same error or secrets of the same length. -/
def SecretsAlike : Except Error (List UInt8) → Except Error (List UInt8) → Prop
  | .ok secret, .ok secret' => secret'.length = secret.length
  | .error e, .error e' => e' = e
  | _, _ => False

theorem SecretsAlike.refl (result : Except Error (List UInt8)) : SecretsAlike result result := by
  cases result with
  | ok secret => rfl
  | error e => rfl

/-- A relation between states of a scheme that differ in secrets: its operations keep it, and they
succeed in one state as in the other. -/
structure Veil [PairwiseScheme σ width] (alike : σ → σ → Prop) : Prop where
  init {a b : σ} (h : alike a b) :
    (PairwiseScheme.init b).1 = (PairwiseScheme.init a).1 ∧
      alike (PairwiseScheme.init a).2 (PairwiseScheme.init b).2
  helloSecret (sender : Address width) {a b : σ} (h : alike a b) :
    SecretsAlike (PairwiseScheme.helloSecret sender a).1 (PairwiseScheme.helloSecret sender b).1 ∧
      alike (PairwiseScheme.helloSecret sender a).2 (PairwiseScheme.helloSecret sender b).2
  ackSecret (sender : Address width) {a b : σ} (h : alike a b) :
    SecretsAlike (PairwiseScheme.ackSecret sender a).1 (PairwiseScheme.ackSecret sender b).1 ∧
      alike (PairwiseScheme.ackSecret sender a).2 (PairwiseScheme.ackSecret sender b).2
  update (peer : Address width) {secret secret' : List UInt8}
    (hlength : secret'.length = secret.length) {a b : σ} (h : alike a b) :
    (PairwiseScheme.update peer secret' b).1 = (PairwiseScheme.update peer secret a).1 ∧
      alike (PairwiseScheme.update peer secret a).2 (PairwiseScheme.update peer secret' b).2

namespace SharedKey

theorem install_alike {secret secret' : List UInt8} (hlength : secret'.length = secret.length)
    (s s' : SharedKey width) : (s'.install secret').1 = (s.install secret).1 := by
  have hsome : (Bytes.ofList? 16 secret').isSome = (Bytes.ofList? 16 secret).isSome := by
    rw [Bool.eq_iff_iff, Bytes.ofList?_isSome_iff, Bytes.ofList?_isSome_iff, hlength]
  unfold install
  cases hread : Bytes.ofList? 16 secret with
  | some key =>
    rw [hread] at hsome
    obtain ⟨key', hread'⟩ := Option.isSome_iff_exists.mp hsome
    rw [hread']
  | none =>
    rw [hread, Option.isSome_none, Option.isSome_eq_false_iff, Option.isNone_iff_eq_none] at hsome
    rw [hsome]

/-- One shared key is like any other. -/
theorem veil : Veil fun _ _ : SharedKey width => True where
  init _ := ⟨rfl, trivial⟩
  helloSecret _ a b _ :=
    ⟨show b.key.toList.length = a.key.toList.length by simp, trivial⟩
  ackSecret _ a b _ :=
    ⟨show b.key.toList.length = a.key.toList.length by simp, trivial⟩
  update _ _ _ hlength a b _ := ⟨install_alike hlength a b, trivial⟩

end SharedKey

namespace Blom

variable {lambda : Nat}

/-- Whether two nodes number their peers alike and have computed secrets for the same peers. Their
rows may be any. -/
structure SameShape (b b' : Blom width lambda) : Prop where
  numbering : b'.numbering = b.numbering
  cache (i : Fin lambda) : (b'.cache.get i).isSome = (b.cache.get i).isSome

/-- At first, no secrets have been computed from any row. -/
theorem sameShape_ofRow (row row' : Vector UInt16 lambda) (numbering : PeerNumbering width) :
    SameShape (ofRow row numbering) (ofRow row' numbering) := ⟨rfl, fun _ => rfl⟩

theorem SameShape.store {b b' : Blom width lambda} (h : SameShape b b') {peer : Nat}
    (hpeer : peer < lambda) (secret secret' : Bytes 2) :
    SameShape { b with cache := b.cache.set peer (some secret) hpeer }
      { b' with cache := b'.cache.set peer (some secret') hpeer } where
  numbering := h.numbering
  cache i := by
    have hcache := h.cache i
    change ((b'.cache.set peer (some secret') hpeer)[i.val]).isSome =
      ((b.cache.set peer (some secret) hpeer)[i.val]).isSome
    rw [Vector.getElem_set, Vector.getElem_set]
    split
    · rfl
    · exact hcache

theorem secretFor_alike (peer : UInt16) {b b' : Blom width lambda} (h : SameShape b b') :
    SecretsAlike ((b.secretFor peer).1.map Vector.toList)
        ((b'.secretFor peer).1.map Vector.toList) ∧
      SameShape (b.secretFor peer).2 (b'.secretFor peer).2 := by
  unfold secretFor
  by_cases hpeer : peer.toNat < lambda
  · rw [dif_pos hpeer, dif_pos hpeer]
    have hcache := h.cache ⟨peer.toNat, hpeer⟩
    cases hkept : b.cache.get ⟨peer.toNat, hpeer⟩ with
    | some secret =>
      rw [hkept] at hcache
      obtain ⟨secret', hkept'⟩ := Option.isSome_iff_exists.mp hcache
      rw [hkept']
      exact ⟨show secret'.toList.length = secret.toList.length by simp, h⟩
    | none =>
      rw [hkept, Option.isSome_none, Option.isSome_eq_false_iff, Option.isNone_iff_eq_none]
        at hcache
      rw [hcache]
      exact ⟨rfl, h.store hpeer _ _⟩
  · rw [dif_neg hpeer, dif_neg hpeer]
    exact ⟨rfl, h⟩

theorem secretForPeer_alike (peer : Address width) {b b' : Blom width lambda}
    (h : SameShape b b') :
    SecretsAlike (b.secretForPeer peer).1 (b'.secretForPeer peer).1 ∧
      SameShape (b.secretForPeer peer).2 (b'.secretForPeer peer).2 := by
  unfold secretForPeer
  rw [h.numbering]
  exact secretFor_alike (b.numbering peer lambda) h

theorem veil : Veil (@SameShape width lambda) where
  init h := ⟨rfl, h⟩
  helloSecret sender _ _ h := secretForPeer_alike sender h
  ackSecret sender _ _ h := secretForPeer_alike sender h
  update _ _ _ _ _ _ h := ⟨rfl, h⟩

end Blom

end MeshSecurity
