import MeshSecurity.Proofs.JournalIndependence
import MeshSecurity.Proofs.NodeSteps
import MeshSecurity.Simulation.RefusingScheme

/-!
# Rejected requests have no influence

A request that fails authentication or comes too late leaves nothing behind but a record in the
journal, and no call reads the journal. So all rejected requests can be left out of a run: every
other call yields the same, and the run ends in the same state.
-/

namespace MeshSecurity

namespace Endpoint

/-- Whether a request is turned away: it is not authentic, or its id is not above the last one. -/
def rejects (h : Header) (message : List UInt8) (e : Endpoint) : Bool :=
  (e.authentic h message).isNone || !e.isFresh h.id

theorem receive_of_rejects {h : Header} {message : List UInt8} {e : Endpoint}
    (hrejects : e.rejects h message = true) (width : Nat) (engine : Engine) :
    ∃ error, e.receive width h message engine = (.error error, e, engine) := by
  obtain ⟨busy⟩ := engine
  cases busy with
  | true => exact receive_of_busy width h message e
  | false =>
    change ∃ error, e.receive width h message .idle = (.error error, e, .idle)
    rw [receive_of_idle]
    cases hauthentic : e.authentic h message with
    | none => exact ⟨_, rfl⟩
    | some payload =>
      have hstale : e.isFresh h.id = false := by simpa [rejects, hauthentic] using hrejects
      dsimp only
      rw [accept_of_stale hstale]
      exact ⟨_, rfl⟩

end Endpoint

namespace Node

variable {width capacity size : Nat} {σ τ ρ ℓ π : Type}

section Request

variable [PairwiseScheme σ width] [RecordStore τ] [RandomSource ρ] [LinkLayer ℓ width]
  [Routing π width]

/-- A message that the receiver refuses without any change leaves no trace but in the journal. -/
theorem handleRequest_of_refused (now : Instant) {h : Header} {message : List UInt8}
    (response : List UInt8) {n : Node width capacity σ τ ρ} (net : Network width size ℓ π)
    {error : Error}
    (hreceive : n.endpoint.receive width h message n.engine =
      (.error error, n.endpoint, n.engine)) :
    ∃ journal, (n.handleRequest now h message response net).2.2 = (n.withJournal journal, net) := by
  unfold handleRequest
  rw [hreceive]
  dsimp only
  split
  · rename_i hok
    cases hok
  · split
    · dsimp only
      rw [respond_node]
      exact ⟨_, rfl⟩
    · exact ⟨_, rfl⟩
  · exact ⟨n.journal, rfl⟩
  · dsimp only
    rw [respond_node]
    exact ⟨_, rfl⟩

theorem handleRequest_of_rejects (now : Instant) {h : Header} {message : List UInt8}
    (response : List UInt8) {n : Node width capacity σ τ ρ} (net : Network width size ℓ π)
    (hrejects : n.endpoint.rejects h message = true) :
    ∃ journal, (n.handleRequest now h message response net).2.2 = (n.withJournal journal, net) := by
  obtain ⟨error, hreceive⟩ := Endpoint.receive_of_rejects hrejects width n.engine
  exact handleRequest_of_refused now response net hreceive

/-- A forgery is dropped in silence. -/
theorem handleRequest_of_forged (now : Instant) {h : Header} {message : List UInt8}
    (response : List UInt8) {n : Node width capacity σ τ ρ} (net : Network width size ℓ π)
    (hsilent : n.answersForgeries = false) (hidle : n.engine = .idle)
    (hforged : n.endpoint.authentic h message = none) :
    (n.handleRequest now h message response net).1 = .ok none ∧
      (n.handleRequest now h message response net).2.1 = response := by
  have hreceive := Endpoint.receive_of_idle width h message n.endpoint
  rw [hforged] at hreceive
  obtain ⟨state, config, answersForgeries, scheme, endpoint, engine⟩ := n
  dsimp only at hsilent hidle hreceive
  subst hsilent hidle
  unfold handleRequest
  dsimp only
  rw [hreceive]
  exact ⟨rfl, rfl⟩

end Request

/-- Whether forgeries are answered, and the engine with which they are found out, are the same. -/
def SameManner (n n' : Node width capacity σ τ ρ) : Prop :=
  n'.answersForgeries = n.answersForgeries ∧ n'.engine = n.engine

theorem SameManner.trans {n n' n'' : Node width capacity σ τ ρ} (h : SameManner n n')
    (h' : SameManner n' n'') : SameManner n n'' :=
  ⟨h'.1.trans h.1, h'.2.trans h.2⟩

namespace Scene

variable [PairwiseScheme σ width] [RecordStore τ] [RandomSource ρ] [LinkLayer ℓ width]
  [Routing π width]

theorem sameManner_perform (s : Scene width capacity size σ τ ρ ℓ π) (op : Operation width) :
    SameManner s.node (s.perform op).2.node := by
  obtain ⟨state, scheme, hperform⟩ := perform_frame s op
  rw [hperform]
  exact ⟨rfl, rfl⟩

end Scene

/-! ## Runs with and without rejected requests -/

/-- A step in the life of a node: a call, or what others do between calls to the network that they
lend and to the journal. -/
inductive Step (width size : Nat) (ℓ π : Type)
  | call (op : Operation width)
  | meanwhile (change : Network width size ℓ π → Network width size ℓ π)
      (read : Journal → Journal)

namespace Scene

variable [PairwiseScheme σ width] [RecordStore τ] [RandomSource ρ] [LinkLayer ℓ width]
  [Routing π width]

def advance (s : Scene width capacity size σ τ ρ ℓ π) :
    Step width size ℓ π → List Answer × Scene width capacity size σ τ ρ ℓ π
  | .call op => ([(s.perform op).1], (s.perform op).2)
  | .meanwhile change read =>
    ([], ⟨s.node.withJournal (read s.node.journal), change s.net⟩)

/-- Takes steps one after the other and collects what the calls yield. -/
def live : List (Step width size ℓ π) → Scene width capacity size σ τ ρ ℓ π →
    List Answer × Scene width capacity size σ τ ρ ℓ π
  | [], s => ([], s)
  | step :: steps, s =>
    let (answers, s) := s.advance step
    let (rest, s) := live steps s
    (answers ++ rest, s)

/-- Whether a step is a request that is turned away. -/
def rejects (s : Scene width capacity size σ τ ρ ℓ π) : Step width size ℓ π → Bool
  | .call (.request _ h message _) => s.node.endpoint.rejects h message
  | _ => false

/-- The steps of a run without the requests that are turned away in it. -/
def unrejected : List (Step width size ℓ π) → Scene width capacity size σ τ ρ ℓ π →
    List (Step width size ℓ π)
  | [], _ => []
  | step :: steps, s =>
    (if s.rejects step then [] else [step]) ++ unrejected steps (s.advance step).2

/-- What the calls of a run yield, those apart that are requests turned away in it. -/
def unrejectedAnswers : List (Step width size ℓ π) → Scene width capacity size σ τ ρ ℓ π →
    List Answer
  | [], _ => []
  | step :: steps, s =>
    (if s.rejects step then [] else (s.advance step).1) ++
      unrejectedAnswers steps (s.advance step).2

theorem advance_withJournal (journal : Journal) (s : Scene width capacity size σ τ ρ ℓ π)
    (step : Step width size ℓ π) :
    ∃ journal', (s.withJournal journal).advance step =
      ((s.advance step).1, (s.advance step).2.withJournal journal') := by
  cases step with
  | call op =>
    obtain ⟨journal', hperform⟩ := perform_withJournal journal s op
    exact ⟨journal', by rw [advance, hperform]; rfl⟩
  | meanwhile change read => exact ⟨_, rfl⟩

theorem advance_of_rejects {s : Scene width capacity size σ τ ρ ℓ π} {step : Step width size ℓ π}
    (hrejects : s.rejects step = true) :
    ∃ journal, (s.advance step).2 = s.withJournal journal := by
  match step with
  | .call (.request now h message response) =>
    obtain ⟨journal, hrequest⟩ := handleRequest_of_rejects now response s.net hrejects
    exact ⟨journal, congrArg (fun outcome => Scene.mk outcome.1 outcome.2) hrequest⟩

theorem live_cons (step : Step width size ℓ π) (steps : List (Step width size ℓ π))
    (s : Scene width capacity size σ τ ρ ℓ π) :
    live (step :: steps) s = ((s.advance step).1 ++ (live steps (s.advance step).2).1,
      (live steps (s.advance step).2).2) :=
  rfl

theorem live_unrejected (steps : List (Step width size ℓ π)) (journal : Journal)
    (s : Scene width capacity size σ τ ρ ℓ π) :
    ∃ journal', live (unrejected steps s) (s.withJournal journal) =
      (unrejectedAnswers steps s, (live steps s).2.withJournal journal') := by
  -- both runs are in step except for the journal, also where the second one skips a request
  induction steps generalizing journal s with
  | nil => exact ⟨journal, rfl⟩
  | cons step steps ih =>
    rw [unrejected, unrejectedAnswers, live_cons]
    cases hrejects : s.rejects step with
    | true =>
      obtain ⟨journal', hadvance⟩ := advance_of_rejects hrejects
      rw [if_pos rfl, if_pos rfl, List.nil_append, List.nil_append, hadvance]
      exact ih journal (s.withJournal journal')
    | false =>
      obtain ⟨journal', hadvance⟩ := advance_withJournal journal s step
      obtain ⟨journal'', hrest⟩ := ih journal' (s.advance step).2
      refine ⟨journal'', ?_⟩
      rw [if_neg Bool.false_ne_true, if_neg Bool.false_ne_true, List.singleton_append, live_cons,
        hadvance, hrest]

theorem sameManner_live (steps : List (Step width size ℓ π))
    (s : Scene width capacity size σ τ ρ ℓ π) : SameManner s.node (live steps s).2.node := by
  induction steps generalizing s with
  | nil => exact ⟨rfl, rfl⟩
  | cons step steps ih =>
    have hstep : SameManner s.node (s.advance step).2.node := by
      cases step with
      | call op => exact sameManner_perform s op
      | meanwhile change read => exact ⟨rfl, rfl⟩
    exact hstep.trans (ih (s.advance step).2)

/-- A run without its rejected requests yields the same in all other calls and ends in the same
state, the journal apart. For each rejected request of the run alone: it leaves all as it was, the
journal apart, and if it is a forgery, it is not answered. -/
theorem rejected_requests_leave_no_trace (s : Scene width capacity size σ τ ρ ℓ π)
    (steps : List (Step width size ℓ π)) :
    (∃ journal, live (unrejected steps s) s =
      (unrejectedAnswers steps s, (live steps s).2.withJournal journal)) ∧
    ∀ (now : Instant) (h : Header) (message response : List UInt8),
      (live steps s).2.node.endpoint.rejects h message = true →
        (∃ journal, ((live steps s).2.perform (.request now h message response)).2 =
          (live steps s).2.withJournal journal) ∧
        (s.node.answersForgeries = false → s.node.engine = .idle →
          (live steps s).2.node.endpoint.authentic h message = none →
            ((live steps s).2.perform (.request now h message response)).1 =
              .responded (.ok none) response) := by
  constructor
  · exact live_unrejected steps s.node.journal s
  · intro now h message response hrejects
    constructor
    · have hstep : (live steps s).2.rejects (.call (.request now h message response)) = true :=
        hrejects
      exact advance_of_rejects hstep
    · intro hsilent hidle hforged
      obtain ⟨hsilent', hidle'⟩ := sameManner_live steps s
      obtain ⟨hresult, hresponse⟩ := handleRequest_of_forged now response (live steps s).2.net
        (hsilent'.trans hsilent) (hidle'.trans hidle) hforged
      rw [perform]
      dsimp only
      rw [hresult, hresponse]

/-- After a revocation, seven bytes are presented as message 3, which is less than a tag. -/
theorem rejected_requests_leave_no_trace_sevenBytes :
    let steps : List (Step 8 4 (Radio 8) (ParentSet 8)) := [.call (.revoke ⟨10⟩ (.repeated 8) true)]
    let t := (live steps serving).2
    let forgery : Operation 8 := .request ⟨20⟩ ⟨3, 0⟩ (List.replicate 7 0) (List.replicate 9 1)
    t.node.endpoint.rejects ⟨3, 0⟩ (List.replicate 7 0) = true ∧
      serving.node.answersForgeries = false ∧ serving.node.engine = .idle ∧
      t.node.endpoint.authentic ⟨3, 0⟩ (List.replicate 7 0) = none ∧
      (∃ journal, (t.perform forgery).2 = t.withJournal journal) ∧
      (t.perform forgery).1 = .responded (.ok none) (List.replicate 9 1) := by
  intro steps t forgery
  have hforged : t.node.endpoint.authentic ⟨3, 0⟩ (List.replicate 7 0) = none := rfl
  have hrejects : t.node.endpoint.rejects ⟨3, 0⟩ (List.replicate 7 0) = true := by
    rw [Endpoint.rejects, hforged]
    rfl
  obtain ⟨hunchanged, hunanswered⟩ := (rejected_requests_leave_no_trace serving steps).2 ⟨20⟩
    ⟨3, 0⟩ (List.replicate 7 0) (List.replicate 9 1) hrejects
  exact ⟨hrejects, rfl, rfl, hforged, hunchanged, hunanswered rfl rfl hforged⟩

end Scene

end Node

end MeshSecurity
