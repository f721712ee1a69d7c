import MeshSecurity.Node.Run

/-!
# The journal is written and never read

Whatever the journal of a node holds, its calls yield the same and leave the same behind, the
journal apart. Each step has a law of the same form: begun with another journal, it ends with
another journal.
-/

namespace MeshSecurity

variable {width capacity size : Nat} {σ τ ρ ℓ π : Type}

namespace GroupKeys

variable [LinkLayer ℓ width]

theorem sendTo_journal (now : Instant) (key : Key) (d : Distribution ℓ) (journal : Journal)
    (peer : Address width) :
    ∃ journal', sendTo now key { d with journal } peer =
      { sendTo now key d peer with journal := journal' } := by
  unfold sendTo
  dsimp only
  split
  · exact ⟨_, rfl⟩
  · exact ⟨_, rfl⟩

theorem foldl_sendTo_journal (now : Instant) (key : Key) (peers : List (Address width))
    (d : Distribution ℓ) (journal : Journal) :
    ∃ journal', peers.foldl (sendTo now key) { d with journal } =
      { peers.foldl (sendTo now key) d with journal := journal' } := by
  induction peers generalizing d journal with
  | nil => exact ⟨journal, rfl⟩
  | cons peer peers ih =>
    obtain ⟨journal', hfirst⟩ := sendTo_journal now key d journal peer
    rw [List.foldl_cons, List.foldl_cons, hfirst]
    exact ih _ journal'

theorem rotate_journal [RandomSource ρ] (now : Instant) (g : GroupKeys) (random : ρ)
    (net : Network width size ℓ π) (old new : Journal) :
    ∃ journal, g.rotate now random net new =
      ((g.rotate now random net old).1, (g.rotate now random net old).2.1,
        (g.rotate now random net old).2.2.1, (g.rotate now random net old).2.2.2.1, journal) := by
  unfold rotate
  split
  · exact ⟨_, rfl⟩
  · rename_i key random' hkey
    obtain ⟨journal, hdistribute⟩ := foldl_sendTo_journal now key net.neighbors.permanentPeers
      ⟨0, 0, net.link, old⟩ new
    have hsame : distribute now key net new = { distribute now key net old with journal } :=
      hdistribute
    rw [hsame]
    exact ⟨_, rfl⟩

end GroupKeys

namespace RevocationState

/-- The state with another journal. -/
def withJournal (journal : Journal) (s : RevocationState width capacity τ ρ) :
    RevocationState width capacity τ ρ :=
  { s with journal }

variable (journal : Journal) (now : Instant) (s : RevocationState width capacity τ ρ)
  (net : Network width size ℓ π)

theorem enlist_withJournal [RecordStore τ] (peer : Address width) (report : RevocationReport) :
    ∃ journal', (s.withJournal journal).enlist now peer report =
      ((s.enlist now peer report).1, (s.enlist now peer report).2.withJournal journal') := by
  unfold enlist
  dsimp only [withJournal]
  split
  · exact ⟨_, rfl⟩
  · exact ⟨_, rfl⟩
  · exact ⟨_, rfl⟩

theorem dropNeighbor_withJournal (entry : Neighbor width) (relation : Relation) :
    ∃ journal', (s.withJournal journal).dropNeighbor now entry relation net =
      ((s.dropNeighbor now entry relation net).1.withJournal journal',
        (s.dropNeighbor now entry relation net).2) := by
  unfold dropNeighbor
  dsimp only
  split
  · exact ⟨_, rfl⟩
  · exact ⟨_, rfl⟩

theorem dropParent_withJournal [Routing π width] (peer : Address width) :
    ∃ journal', (s.withJournal journal).dropParent now peer net =
      ((s.dropParent now peer net).1, (s.dropParent now peer net).2.1.withJournal journal',
        (s.dropParent now peer net).2.2) := by
  unfold dropParent
  split
  · exact ⟨_, rfl⟩
  · exact ⟨_, rfl⟩

section Renewal

variable [RandomSource ρ]

theorem renewGroupKey_withJournal [LinkLayer ℓ width] (c : RevocationConfig) :
    ∃ journal', (s.withJournal journal).renewGroupKey c now net =
      ((s.renewGroupKey c now net).1, (s.renewGroupKey c now net).2.1.withJournal journal',
        (s.renewGroupKey c now net).2.2) := by
  obtain ⟨journal', hrotate⟩ :=
    s.groupKeys.rotate_journal now s.random net s.journal journal
  unfold renewGroupKey
  dsimp only [withJournal]
  rw [hrotate]
  generalize s.groupKeys.rotate now s.random net s.journal = rotated
  obtain ⟨result, groupKeys, random, net', journal⟩ := rotated
  split
  · cases result with
    | ok sent => exact ⟨_, rfl⟩
    | error e => exact ⟨_, rfl⟩
  · exact ⟨_, rfl⟩

theorem resetTrickle_withJournal :
    ∃ journal', (s.withJournal journal).resetTrickle now =
      ((s.resetTrickle now).1, (s.resetTrickle now).2.withJournal journal') := by
  unfold resetTrickle
  dsimp only [withJournal]
  split
  · exact ⟨_, rfl⟩
  · exact ⟨_, rfl⟩

end Renewal

variable [RandomSource ρ] [LinkLayer ℓ width] [Routing π width]

theorem expel_withJournal (c : RevocationConfig) (entry : Neighbor width) (relation : Relation)
    (report : RevocationReport) :
    ∃ journal', (s.withJournal journal).expel c now entry relation report net =
      ((s.expel c now entry relation report net).1,
        (s.expel c now entry relation report net).2.1.withJournal journal',
        (s.expel c now entry relation report net).2.2) := by
  obtain ⟨journal₁, hneighbor⟩ := dropNeighbor_withJournal journal now s net entry relation
  unfold expel
  rw [hneighbor]
  generalize s.dropNeighbor now entry relation net = dropped
  obtain ⟨s, net⟩ := dropped
  obtain ⟨journal₂, hparent⟩ := dropParent_withJournal journal₁ now s net entry.address
  dsimp only
  rw [hparent]
  generalize s.dropParent now entry.address net = dropped
  obtain ⟨parent, s, net⟩ := dropped
  obtain ⟨journal₃, hkey⟩ := renewGroupKey_withJournal journal₂ now s net c
  dsimp only
  rw [hkey]
  generalize s.renewGroupKey c now net = renewed
  obtain ⟨result, s, net⟩ := renewed
  cases result with
  | error e => exact ⟨journal₃, rfl⟩
  | ok updatesSent =>
    obtain ⟨journal₄, hreset⟩ := resetTrickle_withJournal journal₃ now s
    dsimp only
    rw [hreset]
    exact ⟨_, rfl⟩

theorem removePeer_withJournal (c : RevocationConfig) (peer : Address width)
    (report : RevocationReport) :
    ∃ journal', (s.withJournal journal).removePeer c now peer report net =
      ((s.removePeer c now peer report net).1,
        (s.removePeer c now peer report net).2.1.withJournal journal',
        (s.removePeer c now peer report net).2.2) := by
  unfold removePeer
  split
  · exact ⟨_, rfl⟩
  · split
    · exact ⟨_, rfl⟩
    · exact expel_withJournal journal now s net c _ _ report

theorem revoke_withJournal [RecordStore τ] (c : RevocationConfig) (peer : Address width)
    (listing : Bool) :
    ∃ journal', (s.withJournal journal).revoke c now peer listing net =
      ((s.revoke c now peer listing net).1,
        (s.revoke c now peer listing net).2.1.withJournal journal',
        (s.revoke c now peer listing net).2.2) := by
  unfold revoke
  cases listing with
  | false => exact removePeer_withJournal journal now s net c peer .blank
  | true =>
    obtain ⟨journal₁, henlist⟩ := enlist_withJournal journal now s peer .blank
    rw [if_pos rfl, if_pos rfl, henlist]
    generalize s.enlist now peer .blank = enlisted
    obtain ⟨result, s⟩ := enlisted
    cases result with
    | error e => exact ⟨journal₁, rfl⟩
    | ok report => exact removePeer_withJournal journal₁ now s net c peer report

end RevocationState

namespace Node

/-- The node with another journal. -/
def withJournal (journal : Journal) (n : Node width capacity σ τ ρ) :
    Node width capacity σ τ ρ :=
  { n with toRevocationState := n.toRevocationState.withJournal journal }

variable (journal : Journal) (now : Instant) (n : Node width capacity σ τ ρ)
  (net : Network width size ℓ π)

theorem foldl_noteEvent_withJournal (events : List TrickleEvent) :
    ∃ journal', events.foldl (noteEvent now) (n.withJournal journal) =
      (events.foldl (noteEvent now) n).withJournal journal' := by
  induction events generalizing n journal with
  | nil => exact ⟨journal, rfl⟩
  | cons event events ih => exact ih _ (n.noteEvent now event)

section Random

variable [RandomSource ρ]

theorem resetTrickle_withJournal :
    ∃ journal', (n.withJournal journal).resetTrickle now =
      ((n.resetTrickle now).1, (n.resetTrickle now).2.withJournal journal') := by
  unfold resetTrickle
  dsimp only [withJournal, RevocationState.withJournal]
  split
  · exact ⟨_, rfl⟩
  · exact ⟨_, rfl⟩
  · exact ⟨_, rfl⟩

theorem newNeighbor_withJournal :
    ∃ journal', (n.withJournal journal).newNeighbor now net =
      ((n.newNeighbor now net).1, (n.newNeighbor now net).2.withJournal journal') := by
  unfold newNeighbor
  dsimp only [withJournal, RevocationState.withJournal, noteTrickle]
  split
  · exact ⟨_, rfl⟩
  · exact ⟨_, rfl⟩
  · exact ⟨_, rfl⟩

variable [LinkLayer ℓ width]

theorem startTrickle_withJournal :
    ∃ journal', (n.withJournal journal).startTrickle now net =
      ((n.startTrickle now net).1, (n.startTrickle now net).2.1.withJournal journal',
        (n.startTrickle now net).2.2) := by
  unfold startTrickle
  dsimp only [withJournal, RevocationState.withJournal]
  generalize n.trickle.start now n.random net = started
  obtain ⟨result, trickle, random, net'⟩ := started
  cases result with
  | ok events =>
    obtain ⟨journal', hnotes⟩ :=
      foldl_noteEvent_withJournal journal now { n with trickle, random } events
    exact ⟨journal', Prod.ext rfl (Prod.ext hnotes rfl)⟩
  | error e => exact ⟨_, rfl⟩

theorem poll_withJournal :
    ∃ journal', (n.withJournal journal).poll now net =
      ((n.poll now net).1, (n.poll now net).2.1.withJournal journal', (n.poll now net).2.2) := by
  unfold poll
  dsimp only [withJournal, RevocationState.withJournal]
  generalize n.trickle.poll now n.random net = polled
  obtain ⟨result, trickle, random, net'⟩ := polled
  cases result with
  | ok events =>
    obtain ⟨journal', hnotes⟩ :=
      foldl_noteEvent_withJournal journal now { n with trickle, random } events
    exact ⟨journal', Prod.ext rfl (Prod.ext hnotes rfl)⟩
  | error e => exact ⟨_, rfl⟩

theorem rotateGroupKey_withJournal :
    ∃ journal', (n.withJournal journal).rotateGroupKey now net =
      ((n.rotateGroupKey now net).1, (n.rotateGroupKey now net).2.1.withJournal journal',
        (n.rotateGroupKey now net).2.2) := by
  obtain ⟨journal', hrotate⟩ :=
    n.groupKeys.rotate_journal now n.random net n.journal journal
  unfold rotateGroupKey
  dsimp only [withJournal, RevocationState.withJournal]
  rw [hrotate]
  exact ⟨journal', rfl⟩

end Random

section Scheme

variable [PairwiseScheme σ width]

theorem helloSecret_withJournal (sender : Address width) :
    (n.withJournal journal).helloSecret sender =
      ((n.helloSecret sender).1, (n.helloSecret sender).2.withJournal journal) := by
  have hrevoked : (n.withJournal journal).revocations = n.revocations := rfl
  unfold helloSecret
  rw [hrevoked]
  split
  · rfl
  · rfl

theorem ackSecret_withJournal (sender : Address width) :
    (n.withJournal journal).ackSecret sender =
      ((n.ackSecret sender).1, (n.ackSecret sender).2.withJournal journal) := by
  have hrevoked : (n.withJournal journal).revocations = n.revocations := rfl
  unfold ackSecret
  rw [hrevoked]
  split
  · rfl
  · rfl

end Scheme

theorem installSecret_withJournal [PairwiseScheme σ width] (request : Request width) :
    ∃ journal', (n.withJournal journal).installSecret now request =
      (n.installSecret now request).withJournal journal' := by
  unfold installSecret
  dsimp only [withJournal, RevocationState.withJournal]
  split
  · exact ⟨_, rfl⟩
  · split
    · exact ⟨_, rfl⟩
    · exact ⟨_, rfl⟩

section Stored

variable [RecordStore τ]

theorem init_withJournal [PairwiseScheme σ width] :
    ∃ journal', (n.withJournal journal).init now =
      ((n.init now).1, (n.init now).2.withJournal journal') := by
  unfold init
  dsimp only [withJournal, RevocationState.withJournal]
  split
  · exact ⟨_, rfl⟩
  · split
    · exact ⟨_, rfl⟩
    · exact ⟨_, rfl⟩

theorem clearRevocations_withJournal :
    ∃ journal', (n.withJournal journal).clearRevocations now =
      ((n.clearRevocations now).1, (n.clearRevocations now).2.withJournal journal') := by
  unfold clearRevocations
  dsimp only [withJournal, RevocationState.withJournal]
  split
  · exact ⟨_, rfl⟩
  · exact ⟨_, rfl⟩

variable [RandomSource ρ] [LinkLayer ℓ width] [Routing π width]

theorem revoke_withJournal (peer : Address width) (listing : Bool) :
    ∃ journal', (n.withJournal journal).revoke now peer listing net =
      ((n.revoke now peer listing net).1,
        (n.revoke now peer listing net).2.1.withJournal journal',
        (n.revoke now peer listing net).2.2) := by
  obtain ⟨journal', hrevoke⟩ := n.toRevocationState.revoke_withJournal journal now net
    n.config.revocation peer listing
  have hconfig : (n.withJournal journal).config = n.config := rfl
  have hstate : (n.withJournal journal).toRevocationState =
      n.toRevocationState.withJournal journal := rfl
  unfold revoke
  rw [hconfig, hstate, hrevoke]
  split
  · exact ⟨journal', rfl⟩
  · exact ⟨_, rfl⟩

variable [PairwiseScheme σ width]

theorem carryOut_withJournal (request : Request width) :
    ∃ journal', (n.withJournal journal).carryOut now request net =
      ((n.carryOut now request net).1, (n.carryOut now request net).2.1.withJournal journal',
        (n.carryOut now request net).2.2) := by
  obtain ⟨journal₁, hrevoke⟩ := revoke_withJournal journal now n net request.peer true
  unfold carryOut
  rw [hrevoke]
  generalize n.revoke now request.peer true net = revoked
  obtain ⟨result, n, net⟩ := revoked
  cases result with
  | error e => exact ⟨journal₁, rfl⟩
  | ok report =>
    obtain ⟨journal₂, hinstall⟩ := installSecret_withJournal journal₁ now n request
    dsimp only
    rw [hinstall]
    exact ⟨journal₂, rfl⟩

theorem handleRequest_withJournal (h : Header) (message response : List UInt8) :
    ∃ journal', (n.withJournal journal).handleRequest now h message response net =
      ((n.handleRequest now h message response net).1,
        (n.handleRequest now h message response net).2.1,
        (n.handleRequest now h message response net).2.2.1.withJournal journal',
        (n.handleRequest now h message response net).2.2.2) := by
  obtain ⟨state, config, answersForgeries, scheme, endpoint, engine⟩ := n
  unfold handleRequest
  dsimp only [withJournal]
  generalize endpoint.receive width h message engine = received
  obtain ⟨result, endpoint, engine⟩ := received
  dsimp only
  split
  · rename_i request
    obtain ⟨journal', hcarry⟩ := carryOut_withJournal journal now
      ⟨state, config, answersForgeries, scheme, endpoint, engine⟩ net request
    rw [withJournal] at hcarry
    rw [hcarry]
    exact ⟨_, rfl⟩
  · cases answersForgeries with
    | true => exact ⟨_, rfl⟩
    | false => exact ⟨_, rfl⟩
  · exact ⟨_, rfl⟩
  · exact ⟨_, rfl⟩

end Stored

namespace Scene

/-- The scene with another journal of the node. -/
def withJournal (journal : Journal) (s : Scene width capacity size σ τ ρ ℓ π) :
    Scene width capacity size σ τ ρ ℓ π :=
  { s with node := s.node.withJournal journal }

variable [PairwiseScheme σ width] [RecordStore τ] [RandomSource ρ] [LinkLayer ℓ width]
  [Routing π width]

/-- No call reads the journal. -/
theorem perform_withJournal (journal : Journal) (s : Scene width capacity size σ τ ρ ℓ π)
    (op : Operation width) :
    ∃ journal', (s.withJournal journal).perform op =
      ((s.perform op).1, (s.perform op).2.withJournal journal') := by
  cases op with
  | init now =>
    obtain ⟨journal', h⟩ := init_withJournal journal now s.node
    exact ⟨journal', by rw [perform, withJournal, h]; rfl⟩
  | start now =>
    obtain ⟨journal', h⟩ := startTrickle_withJournal journal now s.node s.net
    exact ⟨journal', by rw [perform, withJournal, h]; rfl⟩
  | stop now => exact ⟨_, rfl⟩
  | poll now =>
    obtain ⟨journal', h⟩ := poll_withJournal journal now s.node s.net
    exact ⟨journal', by rw [perform, withJournal, h]; rfl⟩
  | reset now =>
    obtain ⟨journal', h⟩ := resetTrickle_withJournal journal now s.node
    exact ⟨journal', by rw [perform, withJournal, h]; rfl⟩
  | newNeighbor now =>
    obtain ⟨journal', h⟩ := newNeighbor_withJournal journal now s.node s.net
    exact ⟨journal', by rw [perform, withJournal, h]; rfl⟩
  | hearFrom peer => exact ⟨journal, rfl⟩
  | acceptsHello sender => exact ⟨journal, rfl⟩
  | helloSecret sender =>
    have h := helloSecret_withJournal journal s.node sender
    exact ⟨journal, by rw [perform, withJournal, h]; rfl⟩
  | ackSecret sender =>
    have h := ackSecret_withJournal journal s.node sender
    exact ⟨journal, by rw [perform, withJournal, h]; rfl⟩
  | revoke now peer listing =>
    obtain ⟨journal', h⟩ := revoke_withJournal journal now s.node s.net peer listing
    exact ⟨journal', by rw [perform, withJournal, h]; rfl⟩
  | request now header message response =>
    obtain ⟨journal', h⟩ :=
      handleRequest_withJournal journal now s.node s.net header message response
    exact ⟨journal', by rw [perform, withJournal, h]; rfl⟩
  | clear now =>
    obtain ⟨journal', h⟩ := clearRevocations_withJournal journal now s.node
    exact ⟨journal', by rw [perform, withJournal, h]; rfl⟩
  | rotate now =>
    obtain ⟨journal', h⟩ := rotateGroupKey_withJournal journal now s.node s.net
    exact ⟨journal', by rw [perform, withJournal, h]; rfl⟩

end Scene

end Node

end MeshSecurity
