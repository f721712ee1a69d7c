import MeshSecurity.Proofs.MessageNonces
import MeshSecurity.Proofs.SealedMessages

/-!
# How often one message is accepted

A receiver accepts a message under every header that opens it and has a fresh id. So a message is
accepted at most once, in whatever order it is presented and under whatever headers, if and only
if all headers that open it have the same id. A header is authenticated through its nonce only,
and the nonce of a splittable id opens a message under a second id.
-/

namespace MeshSecurity

variable {width : Nat}

namespace Request

theorem ofPayload?_eq_some_iff {payload : List UInt8} {r : Request width} :
    ofPayload? width payload = some r ↔ r.payload = payload := by
  unfold ofPayload?
  constructor
  · intro h
    obtain ⟨peer, hpeer, rfl⟩ := Option.map_eq_some_iff.mp h
    have htake := Address.ofBytes?_eq_some_iff.mp hpeer
    change peer.toList ++ payload.drop width = payload
    rw [htake, List.take_append_drop]
  · rintro rfl
    have hpeer : r.payload.take width = r.peer.toList :=
      List.take_left' (Address.length_toList r.peer)
    have hsecret : r.payload.drop width = r.secret :=
      List.drop_left' (Address.length_toList r.peer)
    rw [hpeer, hsecret, Address.ofBytes?_toList]
    rfl

theorem isSome_ofPayload?_iff {payload : List UInt8} :
    (ofPayload? width payload).isSome ↔ width ≤ payload.length := by
  have hlength : (payload.take width).length = width ↔ width ≤ payload.length := by
    rw [List.length_take]
    omega
  rw [ofPayload?, Option.isSome_map, Address.ofBytes?, Option.isSome_map,
    Bytes.ofList?_isSome_iff, hlength]

end Request

namespace Endpoint

/-- The payload that a message carries for the receiver, if it is authentic and not too long. -/
def authentic (h : Header) (message : List UInt8) (e : Endpoint) : Option (List UInt8) :=
  if message.length ≤ Request.maxSealed then Envelope.unwrapped e.key h.nonce [] message else none

/-- With the engine at hand, authentic payloads are checked and all else is refused. -/
theorem receive_of_idle (width : Nat) (h : Header) (message : List UInt8) (e : Endpoint) :
    e.receive width h message .idle =
      match e.authentic h message with
      | some payload => ((e.accept width h payload).1, (e.accept width h payload).2, .idle)
      | none => (.error .authenticationFailed, e, .idle) := by
  unfold receive authentic
  dsimp only
  by_cases hlong : message.length ≤ Request.maxSealed
  · rw [if_neg (Nat.not_lt.mpr hlong), if_pos hlong]
    cases hopen : Envelope.unwrapped e.key h.nonce [] message with
    | some payload =>
      have hlength := Envelope.length_of_unwrapped hopen
      have hout : payload.length ≤ (List.replicate Request.maxPayload (0 : UInt8)).length := by
        rw [List.length_replicate]
        exact Nat.le_of_add_le_add_right (hlength ▸ hlong)
      rw [Envelope.unwrap_of_some hopen hout]
      simp only [Envelope.overwrite, List.take_left]
    | none =>
      obtain ⟨error, buffer, hbusy, hunwrap⟩ :=
        Envelope.unwrap_of_none hopen (List.replicate Request.maxPayload 0)
      simp only [hunwrap]
  · rw [if_pos (Nat.lt_of_not_le hlong), if_neg hlong]

/-- A busy engine stops every message that is not too long anyway. -/
theorem refused_of_busy (width : Nat) (h : Header) (message : List UInt8) (e : Endpoint) :
    ∃ error, (error = .authenticationFailed ∨ error = .engineBusy) ∧
      e.receive width h message ⟨true⟩ = (.error error, e, ⟨true⟩) := by
  unfold receive
  split
  · exact ⟨_, .inl rfl, rfl⟩
  · obtain ⟨error, buffer, hunwrap⟩ := Envelope.unwrap_of_busy e.key h.nonce [] message
      (List.replicate Request.maxPayload 0)
    simp only [hunwrap]
    cases error with
    | busy => exact ⟨_, .inr rfl, rfl⟩
    | _ => exact ⟨_, .inl rfl, rfl⟩

theorem receive_of_busy (width : Nat) (h : Header) (message : List UInt8) (e : Endpoint) :
    ∃ error, e.receive width h message ⟨true⟩ = (.error error, e, ⟨true⟩) := by
  obtain ⟨error, -, hreceive⟩ := refused_of_busy width h message e
  exact ⟨error, hreceive⟩

/-- A fresh id is used up, and the payload is a request if it is as long as an address. -/
theorem accept_of_fresh {h : Header} {e : Endpoint} (hfresh : e.isFresh h.id = true)
    (width : Nat) (payload : List UInt8) :
    (e.accept width h payload).2 = { e with lastId := some h.id } ∧
      ((e.accept width h payload).1.isOk ↔ width ≤ payload.length) := by
  rw [← Request.isSome_ofPayload?_iff, accept, if_pos hfresh]
  cases Request.ofPayload? width payload with
  | some request => exact ⟨rfl, Iff.rfl⟩
  | none => exact ⟨rfl, Iff.rfl⟩

theorem accept_of_stale {h : Header} {e : Endpoint} (hstale : e.isFresh h.id = false)
    (width : Nat) (payload : List UInt8) :
    e.accept width h payload = (.error .staleMessage, e) := by
  rw [accept, hstale, if_neg Bool.false_ne_true]

/-- A message as it arrives: the header it is presented under, and the engine it finds. -/
structure Delivery where
  header : Header
  message : List UInt8
  engine : Engine

def after (width : Nat) (d : Delivery) (e : Endpoint) : Endpoint :=
  (e.receive width d.header d.message d.engine).2.1

def takes (width : Nat) (d : Delivery) (e : Endpoint) : Bool :=
  (e.receive width d.header d.message d.engine).1.isOk

/-- How many of the deliveries of `message` are accepted in a sequence of deliveries. -/
def acceptances (width : Nat) (message : List UInt8) : List Delivery → Endpoint → Nat
  | [], _ => 0
  | d :: ds, e =>
    (if d.message = message ∧ e.takes width d then 1 else 0) +
      acceptances width message ds (e.after width d)

/-- Whether a message opens under a header as a request of acceptable length. -/
def Opens (width : Nat) (key : Key) (h : Header) (message : List UInt8) : Prop :=
  ∃ payload, width ≤ payload.length ∧ payload.length ≤ Request.maxPayload ∧
    Envelope.unwrapped key h.nonce [] message = some payload

theorem opens_iff_authentic {h : Header} {message : List UInt8} {e : Endpoint} :
    Opens width e.key h message ↔
      ∃ payload, width ≤ payload.length ∧ e.authentic h message = some payload := by
  unfold authentic Opens
  constructor
  · rintro ⟨payload, hwidth, hshort, hopen⟩
    have hlength := Envelope.length_of_unwrapped hopen
    refine ⟨payload, hwidth, ?_⟩
    rw [if_pos (hlength ▸ Nat.add_le_add_right hshort _), hopen]
  · rintro ⟨payload, hwidth, hauthentic⟩
    split at hauthentic
    · rename_i hlong
      have hlength := Envelope.length_of_unwrapped hauthentic
      exact ⟨payload, hwidth, Nat.le_of_add_le_add_right (hlength ▸ hlong), hauthentic⟩
    · cases hauthentic

/-- A delivery leaves the receiver as it is, or it is authentic and uses up a fresh id, and then it
is accepted if the payload is long enough. -/
theorem delivery_cases (width : Nat) (d : Delivery) (e : Endpoint) :
    (e.takes width d = false ∧ e.after width d = e) ∨
    ∃ payload, e.authentic d.header d.message = some payload ∧ e.isFresh d.header.id = true ∧
      e.after width d = { e with lastId := some d.header.id } ∧
      (e.takes width d = true ↔ width ≤ payload.length) := by
  obtain ⟨header, message, ⟨busy⟩⟩ := d
  unfold takes after
  dsimp only
  cases busy with
  | true =>
    obtain ⟨error, hreceive⟩ := receive_of_busy width header message e
    rw [hreceive]
    exact .inl ⟨rfl, rfl⟩
  | false =>
    have hreceive : e.receive width header message ⟨false⟩ = _ :=
      receive_of_idle width header message e
    rw [hreceive]
    cases hauthentic : e.authentic header message with
    | none => exact .inl ⟨rfl, rfl⟩
    | some payload =>
      cases hfresh : e.isFresh header.id with
      | false =>
        have hstale := accept_of_stale hfresh width payload
        simp only [hstale]
        exact .inl ⟨rfl, trivial⟩
      | true => exact .inr ⟨payload, rfl, rfl, accept_of_fresh hfresh width payload⟩

theorem accepted_of_takes {d : Delivery} {e : Endpoint} (h : e.takes width d = true) :
    Opens width e.key d.header d.message ∧ e.isFresh d.header.id = true ∧
      e.after width d = { e with lastId := some d.header.id } := by
  rcases delivery_cases width d e with
    ⟨hrefused, -⟩ | ⟨payload, hauthentic, hfresh, hafter, htakes⟩
  · rw [h] at hrefused
    cases hrefused
  · exact ⟨opens_iff_authentic.mpr ⟨payload, htakes.mp h, hauthentic⟩, hfresh, hafter⟩

theorem takes_of_opens {h : Header} {message : List UInt8} {e : Endpoint}
    (hopens : Opens width e.key h message) (hfresh : e.isFresh h.id = true) :
    e.takes width ⟨h, message, .idle⟩ = true := by
  obtain ⟨payload, hwidth, hauthentic⟩ := opens_iff_authentic.mp hopens
  have hreceive := receive_of_idle width h message e
  rw [hauthentic] at hreceive
  rw [takes, hreceive]
  exact (accept_of_fresh hfresh width payload).2.mpr hwidth

theorem after_key (width : Nat) (d : Delivery) (e : Endpoint) : (e.after width d).key = e.key := by
  rcases delivery_cases width d e with ⟨-, hafter⟩ | ⟨payload, -, -, hafter, -⟩
  · rw [hafter]
  · rw [hafter]

theorem isFresh_some {key : Key} {last id : UInt16} :
    isFresh id ⟨key, some last⟩ = true ↔ last < id := by
  simp [isFresh]

/-- An id that is no longer fresh never becomes fresh again. -/
theorem isFresh_of_after {d : Delivery} {e : Endpoint} {id : UInt16}
    (h : (e.after width d).isFresh id = true) : e.isFresh id = true := by
  rcases delivery_cases width d e with ⟨-, hafter⟩ | ⟨payload, -, hfresh, hafter, -⟩
  · rwa [hafter] at h
  · rw [hafter, isFresh_some] at h
    obtain ⟨key, last⟩ := e
    cases last with
    | none => rfl
    | some last =>
      rw [isFresh_some] at hfresh ⊢
      exact UInt16.lt_trans hfresh h

/-- Where one id opens a message, it is refused once that id is used up. -/
theorem acceptances_eq_zero {key : Key} {message : List UInt8} {id : UInt16}
    (hid : ∀ h, Opens width key h message → h.id = id) (ds : List Delivery) {e : Endpoint}
    (hkey : e.key = key) (hstale : ¬ e.isFresh id = true) :
    acceptances width message ds e = 0 := by
  induction ds generalizing e with
  | nil => rfl
  | cons d ds ih =>
    have hrefused : ¬ (d.message = message ∧ e.takes width d = true) := by
      rintro ⟨rfl, htakes⟩
      obtain ⟨hopens, hfresh, -⟩ := accepted_of_takes htakes
      rw [hid d.header (hkey ▸ hopens)] at hfresh
      exact hstale hfresh
    have hstale' : ¬ (e.after width d).isFresh id = true := fun h => hstale (isFresh_of_after h)
    rw [acceptances, if_neg hrefused, ih ((after_key width d e).trans hkey) hstale']

theorem acceptances_le_one {key : Key} {message : List UInt8} {id : UInt16}
    (hid : ∀ h, Opens width key h message → h.id = id) (ds : List Delivery) {e : Endpoint}
    (hkey : e.key = key) : acceptances width message ds e ≤ 1 := by
  induction ds generalizing e with
  | nil => exact Nat.zero_le 1
  | cons d ds ih =>
    have hkey' := (after_key width d e).trans hkey
    by_cases haccepted : d.message = message ∧ e.takes width d = true
    · obtain ⟨rfl, htakes⟩ := haccepted
      obtain ⟨hopens, -, hafter⟩ := accepted_of_takes htakes
      have hstale : ¬ (e.after width d).isFresh id = true := by
        rw [hafter, isFresh_some, hid d.header (hkey ▸ hopens)]
        exact UInt16.lt_irrefl id
      have hone : acceptances width d.message (d :: ds) e = 1 := by
        rw [acceptances, if_pos ⟨rfl, htakes⟩, acceptances_eq_zero hid ds hkey' hstale,
          Nat.add_zero]
      exact Nat.le_of_eq hone
    · rw [acceptances, if_neg haccepted, Nat.zero_add]
      exact ih hkey'

/-- A message is accepted under the lower of two ids and then again under the higher one. -/
theorem acceptances_eq_two {key : Key} {message : List UInt8} {g h : Header}
    (hg : Opens width key g message) (hh : Opens width key h message) (hlt : g.id < h.id) :
    acceptances width message [⟨g, message, .idle⟩, ⟨h, message, .idle⟩] (.ofKey key) = 2 := by
  have hfirst : (ofKey key).takes width ⟨g, message, .idle⟩ = true := takes_of_opens hg rfl
  have hafter : (ofKey key).after width ⟨g, message, .idle⟩ = ⟨key, some g.id⟩ :=
    (accepted_of_takes hfirst).2.2
  have hsecond : takes width ⟨h, message, .idle⟩ ⟨key, some g.id⟩ = true :=
    takes_of_opens hh (isFresh_some.mpr hlt)
  rw [acceptances, if_pos ⟨rfl, hfirst⟩, hafter, acceptances, if_pos ⟨rfl, hsecond⟩, acceptances]

/-- A message is accepted at most once exactly if one id alone opens it. -/
theorem accepted_once_iff_one_id {key : Key} {message : List UInt8} :
    (∀ ds, acceptances width message ds (.ofKey key) ≤ 1) ↔
      ∀ g h, Opens width key g message → Opens width key h message → g.id = h.id := by
  constructor
  · intro honce g h hg hh
    by_cases hlt : g.id < h.id
    · have htwice := acceptances_eq_two hg hh hlt
      have hle := honce [⟨g, message, .idle⟩, ⟨h, message, .idle⟩]
      omega
    · by_cases hgt : h.id < g.id
      · have htwice := acceptances_eq_two hh hg hgt
        have hle := honce [⟨h, message, .idle⟩, ⟨g, message, .idle⟩]
        omega
      · exact UInt16.le_antisymm (UInt16.not_lt.mp hgt) (UInt16.not_lt.mp hlt)
  · intro hsame ds
    by_cases hopens : ∃ g, Opens width key g message
    · obtain ⟨g, hg⟩ := hopens
      exact acceptances_le_one (fun h hh => hsame h g hh hg) ds rfl
    · have hid (h : Header) (hh : Opens width key h message) : h.id = 0 :=
        absurd ⟨h, hh⟩ hopens
      exact acceptances_le_one hid ds rfl

theorem opens_iff {key : Key} {h : Header} {payload message : List UInt8}
    (hlength : message.length = payload.length + Ccm.tagLength) :
    Opens width key h message ↔
      (width ≤ payload.length ∧ payload.length ≤ Request.maxPayload) ∧
        Envelope.unwrapped key h.nonce [] message ≠ none := by
  -- whatever the message opens as has the length of `payload`
  constructor
  · rintro ⟨payload', hwidth, hshort, hopen⟩
    have hsame : payload'.length = payload.length :=
      Nat.add_right_cancel ((Envelope.length_of_unwrapped hopen).symm.trans hlength)
    rw [hopen, ← hsame]
    exact ⟨⟨hwidth, hshort⟩, Option.some_ne_none _⟩
  · rintro ⟨⟨hwidth, hshort⟩, hsome⟩
    obtain ⟨payload', hopen⟩ := Option.ne_none_iff_exists'.mp hsome
    have hsame : payload'.length = payload.length :=
      Nat.add_right_cancel ((Envelope.length_of_unwrapped hopen).symm.trans hlength)
    exact ⟨payload', hsame ▸ hwidth, hsame ▸ hshort, hopen⟩

/-- A message that was sealed once, as confirmable and with a payload of acceptable length, is
accepted at most once in every sequence of deliveries exactly if its id is not splittable and no
header of another nonce and another id opens it. -/
theorem sealed_accepted_once_iff {key : Key} {id : UInt16} {payload message : List UInt8}
    (hsealed :
      Envelope.wrapped key (Header.mk id Header.confirmable).nonce [] payload = some message) :
    (∀ ds, acceptances width message ds (.ofKey key) ≤ 1) ↔
      (width ≤ payload.length ∧ payload.length ≤ Request.maxPayload →
        ¬ Header.IsSplittable id ∧
          ∀ h : Header, h.nonce ≠ (Header.mk id Header.confirmable).nonce → h.id ≠ id →
            Envelope.unwrapped key h.nonce [] message = none) := by
  have hlength := Ccm.length_of_wrap _ _ hsealed
  have hopen : Envelope.unwrapped key (Header.mk id Header.confirmable).nonce [] message =
      some payload := Ccm.unwrap_of_wrap _ _ hsealed
  rw [accepted_once_iff_one_id]
  constructor
  · intro hsame hform
    have hown (h : Header) (hsome : Envelope.unwrapped key h.nonce [] message ≠ none) :
        h.id = id := by
      refine hsame h ⟨id, Header.confirmable⟩ ((opens_iff hlength).mpr ⟨hform, hsome⟩)
        ((opens_iff hlength).mpr ⟨hform, ?_⟩)
      rw [hopen]
      exact Option.some_ne_none payload
    constructor
    · intro hsplittable
      obtain ⟨h, hid, hnonce⟩ := Header.isSplittable_iff.mp hsplittable
      refine hid (hown h ?_)
      rw [hnonce, hopen]
      exact Option.some_ne_none payload
    · intro h _ hid
      exact Classical.byContradiction fun hsome => hid (hown h hsome)
  · intro hform
    have hown (h : Header) (hopens : Opens width key h message) : h.id = id := by
      obtain ⟨hpayload, hsome⟩ := (opens_iff hlength).mp hopens
      obtain ⟨hsplittable, hothers⟩ := hform hpayload
      refine Decidable.byContradiction fun hid => ?_
      by_cases hnonce : h.nonce = (Header.mk id Header.confirmable).nonce
      · exact hsplittable (Header.isSplittable_iff.mpr ⟨h, hid, hnonce⟩)
      · exact hsome (hothers h hnonce hid)
    intro g h hg hh
    exact (hown g hg).trans (hown h hh).symm

def demonstrationKey : Key := Vector.replicate 16 0x5A

theorem sealed_accepted_once_iff_twelve :
    ∃ message,
      Envelope.wrapped demonstrationKey (Header.mk 12 Header.confirmable).nonce []
        (List.replicate 8 7) = some message ∧
      ((∀ ds, acceptances 8 message ds (.ofKey demonstrationKey) ≤ 1) ↔
        (8 ≤ (List.replicate 8 (7 : UInt8)).length ∧
            (List.replicate 8 (7 : UInt8)).length ≤ Request.maxPayload →
          ¬ Header.IsSplittable 12 ∧
            ∀ h : Header, h.nonce ≠ (Header.mk 12 Header.confirmable).nonce → h.id ≠ 12 →
              Envelope.unwrapped demonstrationKey h.nonce [] message = none)) :=
  ⟨_, rfl, sealed_accepted_once_iff rfl⟩

/-- What is sealed for message 12 is accepted twice: as message 1 of type 20, and as it is. -/
theorem accepted_twice_twelve :
    ∃ message,
      Envelope.wrapped demonstrationKey (Header.mk 12 Header.confirmable).nonce []
        (List.replicate 8 7) = some message ∧
      acceptances 8 message [⟨⟨1, 20⟩, message, .idle⟩, ⟨⟨12, 0⟩, message, .idle⟩]
        (.ofKey demonstrationKey) = 2 := by
  refine ⟨_, rfl, acceptances_eq_two ?_ ?_ (by decide)⟩
  · refine ⟨List.replicate 8 7, by decide, by decide, ?_⟩
    have hnonce : (Header.mk 1 20).nonce = (Header.mk 12 Header.confirmable).nonce :=
      Header.nonce_inj.mpr (by decide)
    rw [hnonce]
    exact Ccm.unwrap_of_wrap _ _ rfl
  · exact ⟨List.replicate 8 7, by decide, by decide, Ccm.unwrap_of_wrap _ _ rfl⟩

end Endpoint

end MeshSecurity
