import MeshSecurity.Proofs.RevocationReports
import MeshSecurity.Simulation.Recorded

/-!
# The distribution of a new group key

A rotation asks the link layer for one update to each permanent neighbor, in slot order, and for
nothing else. All updates carry the key that is current afterwards, and a refused one does not keep
the later ones back.
-/

namespace MeshSecurity

variable {width size : Nat} {ρ ℓ π : Type}

namespace NeighborTable

/-- A visit that keeps the permanent parts is a pass over the permanent neighbors. -/
theorem visitSlots_keep {σ : Type} (f : σ → Address width → σ)
    (slots : List (Option (Neighbor width))) (s : σ) :
    visitSlots (fun peer sender s => (sender, f s peer)) slots s =
      (slots, (((slots.filterMap id).filter (·.has .permanent)).map (·.address)).foldl f s) := by
  induction slots generalizing s with
  | nil => rfl
  | cons slot slots ih =>
    cases slot with
    | none =>
      rw [visitSlots, ih]
      rfl
    | some n =>
      obtain ⟨address, tentative, permanent⟩ := n
      cases permanent with
      | none =>
        simp only [visitSlots, ih]
        rfl
      | some sender =>
        simp only [visitSlots, ih]
        rfl

theorem visitPermanent_keep {σ : Type} (f : σ → Address width → σ)
    (t : NeighborTable width size) (s : σ) :
    t.visitPermanent (fun peer sender s => (sender, f s peer)) s =
      (t, t.permanentPeers.foldl f s) := by
  simp only [visitPermanent, visitSlots_keep]
  rfl

end NeighborTable

namespace GroupKeys

variable [LinkLayer ℓ width]

/-- The distribution with a link layer that has recorded `requests`. -/
def Distribution.recorded (requests : List (LinkRequest width)) (d : Distribution ℓ) :
    Distribution (Recorded ℓ width) :=
  ⟨d.sent, d.refused, ⟨d.link, requests⟩, d.journal⟩

theorem sendTo_recorded (now : Instant) (key : Key) (past : List (LinkRequest width))
    (d : Distribution ℓ) (peer : Address width) :
    sendTo now key (d.recorded past) peer = (sendTo now key d peer).recorded
      (past ++ [.update ⟨peer, key, (LinkLayer.sendUpdate peer key d.link).1⟩]) := by
  unfold sendTo
  cases hsend : LinkLayer.sendUpdate peer key d.link with
  | mk result link =>
    have hrecorded : LinkLayer.sendUpdate peer key (d.recorded past).link =
        (result, ⟨link, past ++ [.update ⟨peer, key, result⟩]⟩) := by
      simp only [LinkLayer.sendUpdate, Distribution.recorded]
      rw [hsend]
    rw [hrecorded]
    cases result <;> rfl

/-- Updates that were asked for one after the other: one to each of `peers`, all with `key`. -/
structure Updates (key : Key) (peers : List (Address width)) (updates : List (Update width)) :
    Prop where
  peers : updates.map (·.peer) = peers
  key : ∀ u ∈ updates, u.key = key

theorem foldl_sendTo_recorded (now : Instant) (key : Key) (peers : List (Address width))
    (d : Distribution ℓ) :
    ∃ updates, Updates key peers updates ∧
      (peers.foldl (sendTo now key) d).sent = d.sent + updates.countP (·.accepted) ∧
      ∀ past, peers.foldl (sendTo now key) (d.recorded past) =
        (peers.foldl (sendTo now key) d).recorded (past ++ updates.map .update) := by
  induction peers generalizing d with
  | nil =>
    refine ⟨[], ⟨rfl, fun u hu => absurd hu List.not_mem_nil⟩, rfl, fun past => ?_⟩
    rw [List.map_nil, List.append_nil]
    rfl
  | cons peer peers ih =>
    obtain ⟨updates, ⟨hpeers, hkey⟩, hsent, hrecorded⟩ := ih (sendTo now key d peer)
    let update : Update width := ⟨peer, key, (LinkLayer.sendUpdate peer key d.link).1⟩
    have hcount : (sendTo now key d peer).sent = d.sent + if update.accepted then 1 else 0 :=
      (sendTo_frame now key d peer).1
    refine ⟨update :: updates, ⟨?_, ?_⟩, ?_, fun past => ?_⟩
    · rw [List.map_cons, hpeers]
    · exact List.forall_mem_cons.mpr ⟨rfl, hkey⟩
    · rw [List.foldl_cons, hsent, hcount, List.countP_cons]
      omega
    · rw [List.foldl_cons, List.foldl_cons, sendTo_recorded, hrecorded, List.append_assoc]
      rfl

variable [RandomSource ρ]

/-- What a rotation comes to, and all that it asks of the link layer: without a fresh key nothing,
and otherwise one update to each permanent neighbor, in slot order, with the new key. -/
inductive Rotated (g : GroupKeys) (random : ρ) (net : Network width size ℓ π) (journal : Journal)
    (result : Except Error Nat) (g' : GroupKeys) (random' : ρ) (net' : Network width size ℓ π)
    (journal' : Journal) (requests : List (LinkRequest width)) : Prop
  | undrawn (hdraw : Key.generate random = (none, random'))
      (hresult : result = .error .randomFailure) (hkeys : g' = g) (hnet : net' = net)
      (hjournal : journal' = journal) (hrequests : requests = [])
  | renewed {key : Key} {updates : List (Update width)}
      (hdraw : Key.generate random = (some key, random'))
      (hupdates : Updates key net.neighbors.permanentPeers updates)
      (hrequests : requests = updates.map .update)
      (hresult : result = .ok (updates.countP (·.accepted)))
      (hcurrent : g'.current = some key) (hrotations : g'.rotations = g.rotations + 1)
      (hneighbors : net'.neighbors = net.neighbors) (hrouting : net'.routing = net.routing)

theorem rotate_recorded (now : Instant) (g : GroupKeys) (random : ρ)
    (net : Network width size ℓ π) (journal : Journal) :
    ∃ result g' random' net' journal' requests,
      g.rotate now random net journal = (result, g', random', net', journal') ∧
      (∀ past, g.rotate now random (net.recorded past) journal =
        (result, g', random', net'.recorded (past ++ requests), journal')) ∧
      Rotated g random net journal result g' random' net' journal' requests := by
  unfold rotate
  cases hdraw : Key.generate random with
  | mk key random' =>
    cases key with
    | none =>
      refine ⟨_, _, _, _, _, [], rfl, fun past => ?_, .undrawn hdraw rfl rfl rfl rfl rfl⟩
      rw [List.append_nil]
    | some key =>
      obtain ⟨updates, hupdates, hsent, hrecorded⟩ := foldl_sendTo_recorded now key
        net.neighbors.permanentPeers ⟨0, 0, net.link, journal⟩
      rw [Nat.zero_add] at hsent
      refine ⟨_, _, _, _, _, updates.map .update, rfl, fun past => ?_,
        .renewed hdraw hupdates rfl (congrArg _ hsent) rfl rfl rfl rfl⟩
      have hdistribute : distribute now key (net.recorded past) journal =
          (distribute now key net journal).recorded (past ++ updates.map .update) :=
        hrecorded past
      dsimp only
      rw [hdistribute]
      rfl

/-- A rotation reaches exactly the permanent neighbors. It asks the link layer for what it would
have asked for without the record, and where no address is held twice each permanent neighbor, one
that establishes a new key included, is in the list of those asked for once and nobody else is. The
distribution is the visit of the table that sends the key and leaves the visited part as it is. -/
theorem rotation_reaches_permanent (now : Instant) (g : GroupKeys) (random : ρ)
    {net : Network width size ℓ π} (hdistinct : net.neighbors.Distinct) (journal : Journal) :
    (∃ result g' random' net' journal' requests,
      g.rotate now random net journal = (result, g', random', net', journal') ∧
      (∀ past, g.rotate now random (net.recorded past) journal =
        (result, g', random', net'.recorded (past ++ requests), journal')) ∧
      Rotated g random net journal result g' random' net' journal' requests) ∧
    (∀ peer, net.neighbors.permanentPeers.count peer =
      if (net.neighbors.lookup peer).any (·.has .permanent) then 1 else 0) ∧
    ∀ key, net.neighbors.visitPermanent
        (fun peer sender d => (sender, sendTo now key d peer)) ⟨0, 0, net.link, journal⟩ =
      (net.neighbors, distribute now key net journal) :=
  ⟨rotate_recorded now g random net journal, net.neighbors.count_permanentPeers hdistinct,
    fun key => net.neighbors.visitPermanent_keep (sendTo now key) ⟨0, 0, net.link, journal⟩⟩

/-- The radio refuses the first of two permanent neighbors, which establishes a new key. -/
def partlyRefused : Network 8 4 (Radio 8) (ParentSet 8) :=
  { RevocationState.surroundings with link := .instructed none [.repeated 2] }

theorem rotation_reaches_permanent_partlyRefused :
    ∃ g' random' net' journal' requests, partlyRefused.neighbors.Distinct ∧
      (provisioned (Vector.replicate 16 0x11)).rotate ⟨9⟩ (Generator.constant ⟨7⟩)
        (partlyRefused.recorded []) .empty =
          (.ok 1, g', random', Network.recorded requests net', journal') ∧
      (∃ key, requests = [.update ⟨.repeated 2, key, .error .sendFailed⟩,
        .update ⟨.repeated 3, key, .ok ()⟩]) ∧
      Rotated (provisioned (Vector.replicate 16 0x11)) (Generator.constant ⟨7⟩) partlyRefused
        .empty (.ok 1) g' random' net' journal' requests ∧
      partlyRefused.neighbors.permanentPeers.count (.repeated 2) = 1 ∧
      partlyRefused.neighbors.permanentPeers.count (.repeated 4) = 0 := by
  have hdistinct : partlyRefused.neighbors.Distinct := by decide
  obtain ⟨⟨result, g', random', net', journal', requests, hrotate, hrecorded, hrotated⟩,
      hcount, -⟩ := rotation_reaches_permanent ⟨9⟩ (provisioned (Vector.replicate 16 0x11))
      (Generator.constant ⟨7⟩) hdistinct .empty
  have hresult : result = .ok 1 := (congrArg (·.1) hrotate).symm
  have hrequests : requests = [.update ⟨.repeated 2, _, .error .sendFailed⟩,
      .update ⟨.repeated 3, _, .ok ()⟩] :=
    (congrArg (·.2.2.2.1.link.requests) (hrecorded [])).symm
  subst hresult
  exact ⟨g', random', net', journal', requests, hdistinct, hrecorded [], ⟨_, hrequests⟩, hrotated,
    hcount (.repeated 2), hcount (.repeated 4)⟩

end GroupKeys

end MeshSecurity
