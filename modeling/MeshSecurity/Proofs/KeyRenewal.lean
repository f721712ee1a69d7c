import MeshSecurity.Node.Run
import MeshSecurity.Proofs.RevocationSteps
import MeshSecurity.Random.Generator
import MeshSecurity.Simulation.Interrupted
import MeshSecurity.Simulation.ParentSet
import MeshSecurity.Simulation.Radio
import MeshSecurity.Storage.Memory

/-!
# Revocations and the group key

Where group keys are in use, a revocation either leaves table and key alone, or it takes the peer
from the table and then renews the key, or it takes the peer from the table and fails to draw a
key. After the last a further revocation of the peer finds no neighbor, succeeds, and renews
nothing, so the peer keeps the current key. `key_renewed_iff` says that this is all that can go
wrong in a run: a successful revocation of a former neighbor comes without a new key exactly if
the draw failed when the peer was removed and no other revocation of the run renewed the key.
-/

namespace MeshSecurity

variable {width capacity size : Nat} {σ τ ρ ℓ π : Type}
variable [RecordStore τ] [RandomSource ρ] [LinkLayer ℓ width] [Routing π width]

namespace RevocationState

/-- What a revocation of `peer` may do to the group key and to the neighbor table. -/
inductive KeyEffect (peer : Address width) (s : RevocationState width capacity τ ρ)
    (net : Network width size ℓ π) : Except Error RevocationReport →
      RevocationState width capacity τ ρ → Network width size ℓ π → Prop
  | untouched {result t} (hkeys : t.groupKeys = s.groupKeys)
      (hresult : result ≠ .error .randomFailure)
      (habsent : ∀ report, result = .ok report →
        report.removed = none ∧ net.neighbors.lookup peer = none) :
      KeyEffect peer s net result t net
  | drawFailed {t net'} (hkeys : t.groupKeys = s.groupKeys)
      (hothers : ∀ p, p ≠ peer → net'.neighbors.lookup p = net.neighbors.lookup p) :
      KeyEffect peer s net (.error .randomFailure) t net'
  | renewed {report t net' key} (hremoved : report.removed.isSome)
      (hkey : (Key.generate s.random).1 = some key)
      (hkeys : t.groupKeys = ⟨some key, s.groupKeys.rotations + 1⟩)
      (hothers : ∀ p, p ≠ peer → net'.neighbors.lookup p = net.neighbors.lookup p) :
      KeyEffect peer s net (.ok report) t net'

omit [RecordStore τ] in
theorem expel_effect {c : RevocationConfig} (hc : c.groupKeys = true) (now : Instant)
    (entry : Neighbor width) (relation : Relation) (report : RevocationReport)
    (s : RevocationState width capacity τ ρ) (net : Network width size ℓ π) :
    KeyEffect entry.address s net (s.expel c now entry relation report net).1
      (s.expel c now entry relation report net).2.1
      (s.expel c now entry relation report net).2.2 := by
  obtain ⟨journal, neighbors, hdrop, hothers⟩ := s.dropNeighbor_frame now entry relation net
  obtain ⟨removal, journal', routing, hparent⟩ := dropParent_frame now entry.address
    { s with journal } { net with neighbors }
  rcases renewGroupKey_cases hc now { s with journal := journal' }
    { net with neighbors, routing } with ⟨key, random, journal'', hkey, hrenew⟩ |
      ⟨random, journal'', -, hrenew⟩
  · have hkey' : (Key.generate s.random).1 = some key := by rw [hkey]
    simp only [expel, hdrop, hparent, hrenew]
    obtain ⟨effective, trickle, random', journal''', hreset⟩ := resetTrickle_frame now
      { s with groupKeys := ⟨some key, s.groupKeys.rotations + 1⟩, random, journal := journal'' }
    rw [hreset]
    exact .renewed rfl hkey' rfl hothers
  · simp only [expel, hdrop, hparent, hrenew]
    exact .drawFailed rfl hothers

omit [RecordStore τ] in
theorem removePeer_effect {c : RevocationConfig} (hc : c.groupKeys = true) (now : Instant)
    (peer : Address width) {report : RevocationReport} (hreport : report.removed = none)
    (s : RevocationState width capacity τ ρ) (net : Network width size ℓ π) :
    KeyEffect peer s net (s.removePeer c now peer report net).1
      (s.removePeer c now peer report net).2.1 (s.removePeer c now peer report net).2.2 := by
  unfold removePeer
  cases hlookup : net.neighbors.lookup peer with
  | none =>
    refine .untouched rfl (by simp) fun r hr => ?_
    cases hr
    exact ⟨hreport, hlookup⟩
  | some entry =>
    have haddress := NeighborTable.address_of_lookup hlookup
    cases hrelation : entry.relation with
    | none =>
      simp only [hrelation]
      exact .untouched rfl (by simp) fun r hr => by cases hr
    | some relation =>
      simp only [hrelation]
      rw [← haddress]
      exact expel_effect hc now entry relation report s net

omit [RecordStore τ] [LinkLayer ℓ width] [Routing π width] in
/-- The effect is told by the group key and the random source at the begin alone. -/
theorem KeyEffect.congr {peer : Address width} {s s' : RevocationState width capacity τ ρ}
    {net : Network width size ℓ π} {result : Except Error RevocationReport}
    {t : RevocationState width capacity τ ρ} {net' : Network width size ℓ π}
    (h : KeyEffect peer s net result t net') (hkeys : s.groupKeys = s'.groupKeys)
    (hrandom : s.random = s'.random) : KeyEffect peer s' net result t net' := by
  cases h with
  | untouched hkeys' hresult habsent => exact .untouched (hkeys'.trans hkeys) hresult habsent
  | drawFailed hkeys' hothers => exact .drawFailed (hkeys'.trans hkeys) hothers
  | renewed hremoved hkey hkeys' hothers =>
    rw [hrandom] at hkey
    rw [hkeys] at hkeys'
    exact .renewed hremoved hkey hkeys' hothers

theorem revoke_effect {c : RevocationConfig} (hc : c.groupKeys = true) (now : Instant)
    (peer : Address width) (listing : Bool) (s : RevocationState width capacity τ ρ)
    (net : Network width size ℓ π) :
    KeyEffect peer s net (s.revoke c now peer listing net).1
      (s.revoke c now peer listing net).2.1 (s.revoke c now peer listing net).2.2 := by
  cases listing with
  | false => exact removePeer_effect hc now peer rfl s net
  | true =>
    rcases s.enlist_cases now peer .blank with ⟨n, list, -, h⟩ | ⟨list, -, h⟩ | ⟨list, -, h⟩
    · simp only [revoke, h]
      exact (removePeer_effect hc now peer (by rfl) _ net).congr rfl rfl
    · simp only [revoke, h]
      exact (removePeer_effect hc now peer (by rfl) _ net).congr rfl rfl
    · simp only [revoke, h]
      exact .untouched rfl (by simp) fun r hr => by cases hr

end RevocationState

namespace Node

theorem revoke_effect {n : Node width capacity σ τ ρ}
    (hc : n.config.revocation.groupKeys = true) (now : Instant) (peer : Address width)
    (listing : Bool) (net : Network width size ℓ π) :
    RevocationState.KeyEffect peer n.toRevocationState net (n.revoke now peer listing net).1
      (n.revoke now peer listing net).2.1.toRevocationState
      (n.revoke now peer listing net).2.2 := by
  unfold revoke
  split
  · exact RevocationState.revoke_effect hc now peer listing n.toRevocationState net
  · exact .untouched rfl (by simp) fun r hr => by cases hr

theorem revoke_config (now : Instant) (peer : Address width) (listing : Bool)
    (n : Node width capacity σ τ ρ) (net : Network width size ℓ π) :
    (n.revoke now peer listing net).2.1.config = n.config := by
  unfold revoke
  split <;> rfl

/-- A successful revocation that removed nothing found no neighbor. -/
theorem lookup_eq_none_of_revoke {n : Node width capacity σ τ ρ}
    (hc : n.config.revocation.groupKeys = true) {now : Instant} {peer : Address width}
    {listing : Bool} {net : Network width size ℓ π} {report : RevocationReport}
    (hok : (n.revoke now peer listing net).1 = .ok report) (hremoved : report.removed = none) :
    net.neighbors.lookup peer = none := by
  have heffect := revoke_effect hc now peer listing net
  rw [hok] at heffect
  generalize (n.revoke now peer listing net).2.1.toRevocationState = state at heffect
  generalize (n.revoke now peer listing net).2.2 = net' at heffect
  cases heffect with
  | untouched hkeys hresult habsent => exact (habsent report rfl).2
  | renewed hsome hkey hkeys hothers => simp [hremoved] at hsome

structure RevocationCall (width : Nat) where
  peer : Address width
  result : Except Error RevocationReport

/-- Whether the call removed a neighbor and came to its end, the renewal of the key included. -/
def RevocationCall.completed (c : RevocationCall width) : Bool :=
  match c.result with
  | .ok report => report.removed.isSome
  | .error _ => false

namespace Scene

def revoked (now : Instant) (peer : Address width) (listing : Bool)
    (s : Scene width capacity size σ τ ρ ℓ π) : Scene width capacity size σ τ ρ ℓ π :=
  ⟨(s.node.revoke now peer listing s.net).2.1, (s.node.revoke now peer listing s.net).2.2⟩

/-- Runs of revocations of any peers. Between two calls node, table, link layer and routing may
change in any way that keeps the group key and the configuration, and that neither enters `peer`
in the neighbor table nor takes it from there. -/
inductive RevocationRun (peer : Address width) (s : Scene width capacity size σ τ ρ ℓ π) :
    List (RevocationCall width) → Scene width capacity size σ τ ρ ℓ π → Prop
  | start : RevocationRun peer s [] s
  | revoke {calls t} (hrun : RevocationRun peer s calls t) (now : Instant) (q : Address width)
      (listing : Bool) :
      RevocationRun peer s (calls ++ [⟨q, (t.node.revoke now q listing t.net).1⟩])
        (t.revoked now q listing)
  | meanwhile {calls t u} (hrun : RevocationRun peer s calls t)
      (hkeys : u.node.groupKeys = t.node.groupKeys) (hconfig : u.node.config = t.node.config)
      (hpeer : (u.net.neighbors.lookup peer).isSome = (t.net.neighbors.lookup peer).isSome) :
      RevocationRun peer s calls u

/-- A rotation has completed in the run: the count of rotations has moved and the current key was
drawn in a scene of the run. -/
def Renewed (peer : Address width) (s : Scene width capacity size σ τ ρ ℓ π)
    (calls : List (RevocationCall width)) (t : Scene width capacity size σ τ ρ ℓ π) : Prop :=
  t.node.groupKeys.rotations ≠ s.node.groupKeys.rotations ∧
    ∃ earlier u key, RevocationRun peer s earlier u ∧ earlier <+: calls ∧
      (Key.generate u.node.random).1 = some key ∧ t.node.groupKeys.current = some key

/-- The draw failed in a revocation of `peer`, and no revocation of any peer was completed. -/
def Missed (peer : Address width) (calls : List (RevocationCall width)) : Prop :=
  (∃ call ∈ calls, call.peer = peer ∧ call.result = .error .randomFailure) ∧
    ∀ call ∈ calls, call.completed = false

/-- What holds all along a run: completed calls are the rotations, and `peer` is gone only after
one of them or after a failed draw. -/
structure RunInvariant (peer : Address width) (s : Scene width capacity size σ τ ρ ℓ π)
    (calls : List (RevocationCall width)) (t : Scene width capacity size σ τ ρ ℓ π) : Prop where
  config : t.node.config = s.node.config
  rotations : t.node.groupKeys.rotations =
    s.node.groupKeys.rotations + (calls.countP RevocationCall.completed).toUInt32
  unchanged : calls.countP RevocationCall.completed = 0 → t.node.groupKeys = s.node.groupKeys
  drawn : 0 < calls.countP RevocationCall.completed →
    ∃ earlier u key, RevocationRun peer s earlier u ∧ earlier <+: calls ∧
      (Key.generate u.node.random).1 = some key ∧ t.node.groupKeys.current = some key
  gone : (s.net.neighbors.lookup peer).isSome → (t.net.neighbors.lookup peer).isSome ∨
    0 < calls.countP RevocationCall.completed ∨
    ∃ call ∈ calls, call.peer = peer ∧ call.result = .error .randomFailure

theorem runInvariant_start (peer : Address width) (s : Scene width capacity size σ τ ρ ℓ π) :
    RunInvariant peer s [] s where
  config := rfl
  rotations := (UInt32.add_zero _).symm
  unchanged _ := rfl
  drawn h := absurd h (by simp)
  gone := .inl

theorem RunInvariant.meanwhile {peer : Address width}
    {s t u : Scene width capacity size σ τ ρ ℓ π} {calls : List (RevocationCall width)}
    (h : RunInvariant peer s calls t) (hkeys : u.node.groupKeys = t.node.groupKeys)
    (hconfig : u.node.config = t.node.config)
    (hpeer : (u.net.neighbors.lookup peer).isSome = (t.net.neighbors.lookup peer).isSome) :
    RunInvariant peer s calls u where
  config := hconfig.trans h.config
  rotations := by rw [hkeys, h.rotations]
  unchanged h0 := hkeys.trans (h.unchanged h0)
  drawn h0 := by rw [hkeys]; exact h.drawn h0
  gone h0 := by rw [hpeer]; exact h.gone h0

/-- A call that was not completed leaves the key, and `peer` unless its own draw failed. -/
theorem RunInvariant.idle {peer : Address width}
    {s t t' : Scene width capacity size σ τ ρ ℓ π} {calls : List (RevocationCall width)}
    (h : RunInvariant peer s calls t) {call : RevocationCall width}
    (hcall : call.completed = false) (hconfig : t'.node.config = t.node.config)
    (hkeys : t'.node.groupKeys = t.node.groupKeys)
    (hpeer : t'.net.neighbors.lookup peer = t.net.neighbors.lookup peer ∨
      call.peer = peer ∧ call.result = .error .randomFailure) :
    RunInvariant peer s (calls ++ [call]) t' := by
  have hcount : (calls ++ [call]).countP RevocationCall.completed =
      calls.countP RevocationCall.completed := by simp [hcall]
  refine ⟨hconfig.trans h.config, ?_, ?_, ?_, ?_⟩
  · rw [hcount, hkeys, h.rotations]
  · rw [hcount, hkeys]
    exact h.unchanged
  · rw [hcount, hkeys]
    intro hpos
    obtain ⟨earlier, u, key, hrun, hprefix, hkey, hcurrent⟩ := h.drawn hpos
    exact ⟨earlier, u, key, hrun, hprefix.trans (List.prefix_append _ _), hkey, hcurrent⟩
  · rw [hcount]
    intro hs
    rcases hpeer with hsame | hfailed
    · rw [hsame]
      rcases h.gone hs with hthere | hpos | ⟨c, hc, hfail⟩
      · exact .inl hthere
      · exact .inr (.inl hpos)
      · exact .inr (.inr ⟨c, List.mem_append_left _ hc, hfail⟩)
    · exact .inr (.inr ⟨call, by simp, hfailed⟩)

/-- A completed call is one more rotation, with the key drawn in the scene before it. -/
theorem RunInvariant.completed {peer : Address width}
    {s t t' : Scene width capacity size σ τ ρ ℓ π} {calls : List (RevocationCall width)}
    (h : RunInvariant peer s calls t) (hrun : RevocationRun peer s calls t)
    {call : RevocationCall width} (hcall : call.completed = true)
    (hconfig : t'.node.config = t.node.config) {key : Key}
    (hkey : (Key.generate t.node.random).1 = some key)
    (hkeys : t'.node.groupKeys = ⟨some key, t.node.groupKeys.rotations + 1⟩) :
    RunInvariant peer s (calls ++ [call]) t' := by
  have hcount : (calls ++ [call]).countP RevocationCall.completed =
      calls.countP RevocationCall.completed + 1 := by simp [hcall]
  refine ⟨hconfig.trans h.config, ?_, ?_, ?_, ?_⟩
  · rw [hcount, hkeys]
    change t.node.groupKeys.rotations + 1 = _
    rw [h.rotations, UInt32.add_assoc]
    exact congrArg (s.node.groupKeys.rotations + ·) (UInt32.ofNat_add _ 1).symm
  · rw [hcount]
    intro h0
    omega
  · intro _
    exact ⟨calls, t, key, hrun, List.prefix_append _ _, hkey, by rw [hkeys]⟩
  · rw [hcount]
    intro _
    exact .inr (.inl (by omega))

theorem RunInvariant.revoke {peer : Address width}
    {s t : Scene width capacity size σ τ ρ ℓ π} {calls : List (RevocationCall width)}
    (h : RunInvariant peer s calls t) (hrun : RevocationRun peer s calls t)
    (hc : t.node.config.revocation.groupKeys = true) (now : Instant) (q : Address width)
    (listing : Bool) :
    RunInvariant peer s (calls ++ [⟨q, (t.node.revoke now q listing t.net).1⟩])
      (t.revoked now q listing) := by
  have heffect := Node.revoke_effect hc now q listing t.net
  have hconfig : (t.revoked now q listing).node.config = t.node.config :=
    revoke_config now q listing t.node t.net
  have hkeysOf : (t.revoked now q listing).node.groupKeys =
      (t.node.revoke now q listing t.net).2.1.toRevocationState.groupKeys := rfl
  have hnetOf : (t.revoked now q listing).net = (t.node.revoke now q listing t.net).2.2 := rfl
  revert heffect hkeysOf hnetOf
  generalize (t.node.revoke now q listing t.net).1 = result
  generalize (t.node.revoke now q listing t.net).2.1.toRevocationState = state
  generalize (t.node.revoke now q listing t.net).2.2 = net
  intro heffect hkeysOf hnetOf
  -- other peers keep their entry, and the peer of the call loses it only with a draw
  have hother (hothers : ∀ p, p ≠ q → net.neighbors.lookup p = t.net.neighbors.lookup p)
      (hne : peer ≠ q) : (t.revoked now q listing).net.neighbors.lookup peer =
        t.net.neighbors.lookup peer := by rw [hnetOf, hothers peer hne]
  cases heffect with
  | untouched hkeys hresult habsent =>
    have hcall : RevocationCall.completed ⟨q, result⟩ = false := by
      cases result with
      | ok report => simp [RevocationCall.completed, (habsent report rfl).1]
      | error e => rfl
    exact h.idle hcall hconfig (hkeysOf.trans hkeys) (.inl (by rw [hnetOf]))
  | drawFailed hkeys hothers =>
    refine h.idle rfl hconfig (hkeysOf.trans hkeys) ?_
    by_cases hq : peer = q
    · exact .inr ⟨hq.symm, rfl⟩
    · exact .inl (hother hothers hq)
  | renewed hremoved hkey hkeys hothers =>
    exact h.completed hrun hremoved hconfig hkey (hkeysOf.trans hkeys)

theorem RevocationRun.invariant {peer : Address width}
    {s t : Scene width capacity size σ τ ρ ℓ π} {calls : List (RevocationCall width)}
    (hrun : RevocationRun peer s calls t) (hc : s.node.config.revocation.groupKeys = true) :
    RunInvariant peer s calls t := by
  induction hrun with
  | start => exact runInvariant_start peer s
  | revoke hrun now q listing ih =>
    exact ih.revoke hrun (by rw [ih.config]; exact hc) now q listing
  | meanwhile hrun hkeys hconfig hpeer ih => exact ih.meanwhile hkeys hconfig hpeer

theorem not_missed_of_completed {peer : Address width} {calls : List (RevocationCall width)}
    (hpos : 0 < calls.countP RevocationCall.completed) : ¬ Missed peer calls := by
  rintro ⟨-, hnone⟩
  obtain ⟨call, hcall, hdone⟩ := List.countP_pos_iff.mp hpos
  rw [hnone call hcall] at hdone
  cases hdone

theorem RunInvariant.renewed {peer : Address width} {s t : Scene width capacity size σ τ ρ ℓ π}
    {calls : List (RevocationCall width)} (h : RunInvariant peer s calls t)
    (hpos : 0 < calls.countP RevocationCall.completed)
    (hfew : calls.countP RevocationCall.completed < UInt32.size) : Renewed peer s calls t := by
  refine ⟨?_, h.drawn hpos⟩
  rw [h.rotations]
  intro heq
  -- fewer rotations than the counter has values do not bring it back to where it was
  have hzero := congrArg UInt32.toNat (UInt32.add_eq_left.mp heq)
  rw [Nat.toUInt32_eq, UInt32.toNat_ofNat', Nat.mod_eq_of_lt hfew] at hzero
  exact Nat.ne_of_gt hpos hzero

/-- A successful revocation of a former neighbor comes with a new key, unless the run missed to
renew it, and then the key is the one of the begin. -/
theorem key_renewed_iff {peer : Address width} {s t : Scene width capacity size σ τ ρ ℓ π}
    {calls : List (RevocationCall width)} (hrun : RevocationRun peer s calls t)
    (hc : s.node.config.revocation.groupKeys = true)
    (hneighbor : (s.net.neighbors.lookup peer).isSome)
    {now : Instant} {listing : Bool} {report : RevocationReport}
    (hok : (t.node.revoke now peer listing t.net).1 = .ok report)
    (hfew : (calls ++ [RevocationCall.mk peer (.ok report)]).countP RevocationCall.completed <
      UInt32.size) :
    (Renewed peer s (calls ++ [RevocationCall.mk peer (.ok report)]) (t.revoked now peer listing) ↔
      ¬ Missed peer (calls ++ [RevocationCall.mk peer (.ok report)])) ∧
    (Missed peer (calls ++ [RevocationCall.mk peer (.ok report)]) →
      (t.revoked now peer listing).node.groupKeys = s.node.groupKeys) := by
  have hbefore := hrun.invariant hc
  have hrun' := hrun.revoke now peer listing
  rw [hok] at hrun'
  have hafter := hrun'.invariant hc
  rcases Nat.eq_zero_or_pos ((calls ++ [RevocationCall.mk peer (.ok report)]).countP
    RevocationCall.completed) with hcount | hpos
  · have hnone := List.countP_eq_zero.mp hcount
    have hmissed : Missed peer (calls ++ [RevocationCall.mk peer (.ok report)]) := by
      refine ⟨?_, fun call hcall => by simpa using hnone call hcall⟩
      have hlast := hnone (RevocationCall.mk peer (.ok report)) (by simp)
      -- the last call found no neighbor, so an earlier one took the peer from the table
      have habsent := lookup_eq_none_of_revoke (by rw [hbefore.config]; exact hc) hok
        (by simpa [RevocationCall.completed] using hlast)
      rcases hbefore.gone hneighbor with hthere | hpos | ⟨call, hcall, hfail⟩
      · simp [habsent] at hthere
      · obtain ⟨call, hcall, hdone⟩ := List.countP_pos_iff.mp hpos
        exact absurd hdone (hnone call (List.mem_append_left _ hcall))
      · exact ⟨call, List.mem_append_left _ hcall, hfail⟩
    have hsame := hafter.unchanged hcount
    exact ⟨⟨fun hrenewed => absurd (by rw [hsame]) hrenewed.1, fun h => absurd hmissed h⟩,
      fun _ => hsame⟩
  · have hnot : ¬ Missed peer (calls ++ [RevocationCall.mk peer (.ok report)]) :=
      not_missed_of_completed hpos
    exact ⟨⟨fun _ => hnot, fun _ => hafter.renewed hpos hfew⟩, fun h => absurd h hnot⟩

def formerNeighbor : Address 8 := ⟨Vector.replicate 8 2⟩

/-- A node with a provisioned group key and one permanent neighbor, whose listed draws fail. -/
def interrupted (failing : List Nat) :
    Scene 8 4 4 Unit (MemoryStore 64) (InterruptedSource Generator) (Radio 8) (ParentSet 8) where
  node := .assemble .standard false () .empty (Vector.replicate 16 0x5A)
    ⟨.constant ⟨7⟩, .ofFailing failing⟩ (.provisioned (Vector.replicate 16 0x11))
  net :=
    ⟨(NeighborTable.empty.insert ⟨formerNeighbor, none, some .fresh⟩).2, .instructed none [],
      .ofParents []⟩

def afterFailedDraw :
    Scene 8 4 4 Unit (MemoryStore 64) (InterruptedSource Generator) (Radio 8) (ParentSet 8) :=
  (interrupted [0]).revoked ⟨50⟩ formerNeighbor true

theorem key_renewed_iff_afterFailedDraw :
    ∃ calls report,
      RevocationRun formerNeighbor (interrupted [0]) calls afterFailedDraw ∧
      (interrupted [0]).node.config.revocation.groupKeys = true ∧
      ((interrupted [0]).net.neighbors.lookup formerNeighbor).isSome ∧
      (afterFailedDraw.node.revoke ⟨60⟩ formerNeighbor true afterFailedDraw.net).1 = .ok report ∧
      (calls ++ [RevocationCall.mk formerNeighbor (.ok report)]).countP
        RevocationCall.completed < UInt32.size ∧
      (Renewed formerNeighbor (interrupted [0])
          (calls ++ [RevocationCall.mk formerNeighbor (.ok report)])
          (afterFailedDraw.revoked ⟨60⟩ formerNeighbor true) ↔
        ¬ Missed formerNeighbor (calls ++ [RevocationCall.mk formerNeighbor (.ok report)])) ∧
      (Missed formerNeighbor (calls ++ [RevocationCall.mk formerNeighbor (.ok report)]) →
        (afterFailedDraw.revoked ⟨60⟩ formerNeighbor true).node.groupKeys =
          (interrupted [0]).node.groupKeys) := by
  have hstart : RevocationRun formerNeighbor (interrupted [0]) [] (interrupted [0]) := .start
  have hrun := hstart.revoke ⟨50⟩ formerNeighbor true
  exact ⟨_, _, hrun, rfl, rfl, rfl, by decide, key_renewed_iff hrun rfl rfl rfl (by decide)⟩

/-- The peer is revoked with success, and the key that it holds stays the current one. -/
theorem key_kept_after_failed_draw :
    ((interrupted [0]).net.neighbors.lookup formerNeighbor).any (·.has .permanent) ∧
    ((interrupted [0]).node.revoke ⟨50⟩ formerNeighbor true (interrupted [0]).net).1 =
      .error .randomFailure ∧
    (∃ report,
      (afterFailedDraw.node.revoke ⟨60⟩ formerNeighbor true afterFailedDraw.net).1 = .ok report) ∧
    (afterFailedDraw.revoked ⟨60⟩ formerNeighbor true).node.groupKeys =
      (interrupted [0]).node.groupKeys :=
  ⟨rfl, rfl, ⟨_, rfl⟩, rfl⟩

end Scene

end Node

end MeshSecurity
