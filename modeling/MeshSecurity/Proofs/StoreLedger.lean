import Mathlib.Data.List.Basic
import MeshSecurity.Proofs.StoredRecords

/-!
# What a store holds in the course of a run

Since the list was last cleared, the store has taken of each record a part from its front on. It
holds these parts one after the other, and the list always has room for every address that can be
read off them. Which addresses that are, is a matter of these parts alone.
-/

namespace MeshSecurity.RevocationList

variable {width capacity : Nat}

/-- What a revocation stored: the first bytes of the record of a peer. -/
structure Write (width : Nat) where
  peer : Address width
  stored : Nat

namespace Write

def bytes (w : Write width) : List UInt8 := (record w.peer).take w.stored

def IsComplete (w : Write width) : Prop := w.stored = recordSize width

instance (w : Write width) : Decidable w.IsComplete :=
  inferInstanceAs (Decidable (w.stored = recordSize width))

theorem length_bytes {w : Write width} (h : w.stored ≤ recordSize width) :
    w.bytes.length = w.stored := by
  rw [bytes, List.length_take, length_record, Nat.min_eq_left h]

end Write

def bytesOf (ws : List (Write width)) : List UInt8 := ws.flatMap Write.bytes

theorem bytesOf_append (ws vs : List (Write width)) :
    bytesOf (ws ++ vs) = bytesOf ws ++ bytesOf vs := List.flatMap_append

theorem bytesOf_cons (w : Write width) (ws : List (Write width)) :
    bytesOf (w :: ws) = w.bytes ++ bytesOf ws := List.flatMap_cons

namespace Event

def write? : Event width → Option (Write width)
  | revoked peer _ stored => some ⟨peer, stored⟩
  | _ => none

/-- A revocation succeeds if its record was stored completely, and fails otherwise. -/
def Coherent : Event width → Prop
  | revoked _ result stored =>
    (stored = recordSize width ∧ ∃ n, result = .ok n) ∨
      (stored < recordSize width ∧ result = .error .recordNotStored) ∨
      (stored = 0 ∧ result = .error .capacityExceeded)
  | _ => True

end Event

def writes (history : List (Event width)) : List (Write width) :=
  (sinceClear history).filterMap Event.write?

theorem sinceClear_concat (history : List (Event width)) (e : Event width) :
    sinceClear (history ++ [e]) = if e.isClear then [] else sinceClear history ++ [e] := by
  cases h : e.isClear <;> simp [sinceClear, h]

theorem mem_of_mem_sinceClear {history : List (Event width)} {e : Event width}
    (h : e ∈ sinceClear history) : e ∈ history := by
  rw [sinceClear, List.mem_reverse] at h
  exact List.mem_reverse.mp (List.takeWhile_subset _ h)

theorem writes_revoked (history : List (Event width)) (peer : Address width)
    (result : Except Error Nat) (stored : Nat) :
    writes (history ++ [.revoked peer result stored]) = writes history ++ [⟨peer, stored⟩] := by
  simp [writes, sinceClear_concat, Event.isClear, Event.write?]

theorem writes_cleared (history : List (Event width)) (result : Except Error Unit) :
    writes (history ++ [.cleared result]) = [] := by
  simp [writes, sinceClear_concat, Event.isClear]

theorem writes_loaded (history : List (Event width)) (result : Except Error Nat) :
    writes (history ++ [.loaded result]) = writes history := by
  simp [writes, sinceClear_concat, Event.isClear, Event.write?]

theorem mem_requested_of_mem_writes {history : List (Event width)} {w : Write width}
    (h : w ∈ writes history) : w.peer ∈ requested history := by
  obtain ⟨e, he, hw⟩ := List.mem_filterMap.mp h
  cases e with
  | revoked peer result stored =>
    cases hw
    exact List.mem_filterMap.mpr ⟨_, mem_of_mem_sinceClear he, rfl⟩
  | cleared result => cases hw
  | loaded result => cases hw

theorem Event.acknowledged?_eq {e : Event width} (h : e.Coherent) :
    e.acknowledged? = (e.write?.filter (·.IsComplete)).map Write.peer := by
  cases e with
  | revoked peer result stored =>
    rcases h with ⟨rfl, n, rfl⟩ | ⟨hshort, rfl⟩ | ⟨rfl, rfl⟩
    · simp [acknowledged?, write?, Option.filter, Write.IsComplete]
    · simp [acknowledged?, write?, Option.filter, Write.IsComplete, Nat.ne_of_lt hshort]
    · simp [acknowledged?, write?, Option.filter, Write.IsComplete, recordSize]
  | cleared result => rfl
  | loaded result => rfl

theorem Event.undelimited?_eq (hwidth : 0 < width) {e : Event width} (h : e.Coherent) :
    e.undelimited? = (e.write?.filter (·.stored = width)).map Write.peer := by
  cases e with
  | revoked peer result stored =>
    rcases h with ⟨rfl, n, rfl⟩ | ⟨-, rfl⟩ | ⟨rfl, rfl⟩
    · simp [undelimited?, write?, Option.filter, recordSize]
    · by_cases haddress : stored = width <;> simp [undelimited?, write?, Option.filter, haddress]
    · simp [undelimited?, write?, Option.filter, Nat.ne_of_lt hwidth]
  | cleared result => rfl
  | loaded result => rfl

/-- The successful revocations are the complete writes. -/
theorem acknowledged_eq {history : List (Event width)} (h : ∀ e ∈ history, e.Coherent) :
    acknowledged history = ((writes history).filter (·.IsComplete)).map Write.peer := by
  rw [acknowledged, writes, List.filter_filterMap, List.map_filterMap]
  exact List.filterMap_congr fun e he => e.acknowledged?_eq (h e (mem_of_mem_sinceClear he))

theorem undelimited_eq (hwidth : 0 < width) {history : List (Event width)}
    (h : ∀ e ∈ history, e.Coherent) :
    undelimited history = ((writes history).filter (·.stored = width)).map Write.peer := by
  rw [undelimited, writes, List.filter_filterMap, List.map_filterMap]
  exact List.filterMap_congr fun e he => e.undelimited?_eq hwidth (h e (mem_of_mem_sinceClear he))

/-! ## The invariant -/

variable {τ : Type} {holds : τ → List UInt8 → Prop}

/-- What holds all along a run: the store holds what was written since the list was cleared, and
the list is long enough to be loaded from there. -/
structure Ledger (holds : τ → List UInt8 → Prop) (history : List (Event width))
    (l : RevocationList width capacity τ) : Prop where
  persistent : l.persistent = true
  holds : holds l.store (bytesOf (writes history))
  room : addressCount width (bytesOf (writes history)) ≤ l.entries.length
  coherent : ∀ e ∈ history, e.Coherent

theorem coherent_concat {history : List (Event width)} (h : ∀ e ∈ history, e.Coherent)
    {e : Event width} (he : e.Coherent) : ∀ e' ∈ history ++ [e], e'.Coherent := by
  rw [List.forall_mem_append]
  exact ⟨h, List.forall_mem_singleton.mpr he⟩

theorem ledger_ofStore (hwidth : 0 < width) {store : τ} (h : holds store []) :
    Ledger holds [] (ofStore store true : RevocationList width capacity τ) where
  persistent := rfl
  holds := h
  room := Nat.le_of_eq (addressCount_of_short hwidth)
  coherent := by simp

theorem Ledger.revoked {history : List (Event width)} {l l' : RevocationList width capacity τ}
    (h : Ledger holds history l) {peer : Address width} {result : Except Error Nat} {n : Nat}
    (hcoherent : (Event.revoked peer result n).Coherent)
    (hholds : holds l'.store (bytesOf (writes history) ++ (record peer).take n))
    (hpersistent : l'.persistent = true)
    (hlength : l'.entries.length = l.entries.length + 1 ∨
      n = 0 ∧ l'.entries.length = l.entries.length) :
    Ledger holds (history ++ [.revoked peer result n]) l' := by
  have hbytes : bytesOf (writes (history ++ [.revoked peer result n])) =
      bytesOf (writes history) ++ (record peer).take n := by
    rw [writes_revoked, bytesOf_append]
    simp [bytesOf, Write.bytes]
  refine ⟨hpersistent, ?_, ?_, coherent_concat h.coherent hcoherent⟩
  · rw [hbytes]
    exact hholds
  · rw [hbytes]
    rcases hlength with hlength | ⟨rfl, hlength⟩
    · -- a record adds one address at most
      have hle : (bytesOf (writes history) ++ (record peer).take n).length + 1 ≤
          (bytesOf (writes history)).length + 1 + recordSize width := by
        rw [List.length_append, List.length_take, length_record]
        omega
      have hpos : 0 < recordSize width := Nat.succ_pos width
      have hone := Nat.div_le_div_right (c := recordSize width) hle
      rw [Nat.add_div_right _ hpos] at hone
      rw [hlength]
      exact Nat.le_trans hone (Nat.succ_le_succ h.room)
    · rw [List.take_zero, List.append_nil, hlength]
      exact h.room

theorem Ledger.cleared (hwidth : 0 < width) {history : List (Event width)}
    {l l' : RevocationList width capacity τ} (h : Ledger holds history l)
    (hholds : holds l'.store []) (hpersistent : l'.persistent = true)
    (result : Except Error Unit) : Ledger holds (history ++ [.cleared result]) l' := by
  have hbytes : bytesOf (writes (history ++ [.cleared result])) = [] := by
    rw [writes_cleared]
    rfl
  refine ⟨hpersistent, ?_, ?_, coherent_concat h.coherent trivial⟩
  · rw [hbytes]
    exact hholds
  · rw [hbytes, addressCount_of_short hwidth]
    exact Nat.zero_le _

theorem Ledger.loaded (hwidth : 0 < width) {history : List (Event width)}
    {l l' : RevocationList width capacity τ} (h : Ledger holds history l)
    (hentries : l'.entries.toList = decoded width capacity (bytesOf (writes history)))
    (hholds : holds l'.store (bytesOf (writes history))) (hpersistent : l'.persistent = true)
    (result : Except Error Nat) : Ledger holds (history ++ [.loaded result]) l' := by
  refine ⟨hpersistent, ?_, ?_, coherent_concat h.coherent trivial⟩
  · rw [writes_loaded]
    exact hholds
  · have hcapacity := Nat.le_trans h.room l.entries.length_le
    rw [writes_loaded, Bounded.length, hentries, length_decoded hwidth]
    exact Nat.le_min.mpr ⟨hcapacity, Nat.le_refl _⟩

/-! ## Runs -/

variable [RecordStore τ]

theorem perform_revoke (hkeeps : KeepsBytes τ holds) {l : RevocationList width capacity τ}
    (hpersistent : l.persistent = true) {bytes : List UInt8} (h : holds l.store bytes)
    (peer : Address width) :
    ∃ result n l', l.perform (.revoke peer) = (.revoked peer result n, l') ∧
      (Event.revoked peer result n).Coherent ∧ holds l'.store (bytes ++ (record peer).take n) ∧
      l'.persistent = true ∧
      (l'.entries.length = l.entries.length + 1 ∨
        n = 0 ∧ l'.entries.length = l.entries.length) := by
  rw [perform, revoke, storedBy]
  cases hpush : l.entries.push? peer with
  | none =>
    refine ⟨_, _, _, rfl, .inr (.inr ⟨rfl, rfl⟩), ?_, hpersistent, .inr ⟨rfl, rfl⟩⟩
    simpa using h
  | some entries =>
    have hlength : entries.length = l.entries.length + 1 := by
      rw [Bounded.length, Bounded.push?_eq_some_iff.mp hpush, List.length_append]
      rfl
    have happend := hkeeps.append h (record peer)
    revert happend
    simp only [hpersistent, Option.isSome_some, Bool.and_self, if_true]
    generalize RecordStore.append (record peer) l.store = outcome
    obtain ⟨result, store⟩ := outcome
    rintro (⟨n, hn, hresult, hafter⟩ | ⟨e, hresult, hafter⟩)
    · dsimp only at hresult hafter
      subst hresult
      refine ⟨_, n, _, rfl, ?_, hafter, rfl, .inl hlength⟩
      rw [length_record] at hn
      by_cases hcomplete : n = recordSize width
      · exact .inl ⟨hcomplete, _, if_pos hcomplete⟩
      · exact .inr (.inl ⟨Nat.lt_of_le_of_ne hn hcomplete, if_neg hcomplete⟩)
    · dsimp only at hresult hafter
      subst hresult
      refine ⟨_, 0, _, rfl, .inr (.inl ⟨Nat.succ_pos width, rfl⟩), ?_, rfl, .inl hlength⟩
      simpa using hafter

theorem Ledger.perform (hkeeps : KeepsBytes τ holds) (hwidth : 0 < width)
    {history : List (Event width)} {l : RevocationList width capacity τ}
    (h : Ledger holds history l) (call : Call width) :
    Ledger holds (history ++ [(l.perform call).1]) (l.perform call).2 := by
  cases call with
  | revoke peer =>
    obtain ⟨result, n, l', hperform, hcoherent, hholds, hpersistent, hlength⟩ :=
      perform_revoke hkeeps h.persistent h.holds peer
    rw [hperform]
    exact h.revoked hcoherent hholds hpersistent hlength
  | clear =>
    obtain ⟨-, hholds⟩ := hkeeps.remove h.holds
    refine h.cleared hwidth ?_ ?_ _
    · rw [RevocationList.perform, clear, if_pos h.persistent]
      exact hholds
    · rw [RevocationList.perform, clear, if_pos h.persistent]
      exact h.persistent
  | load =>
    obtain ⟨-, hentries, hholds, hpersistent⟩ := load_of_holds hkeeps h.persistent h.holds
    exact h.loaded hwidth hentries hholds hpersistent _
  | restart =>
    obtain ⟨-, hentries, hholds, hpersistent⟩ := opened_of_holds width capacity hkeeps h.holds
    exact h.loaded hwidth hentries hholds hpersistent _

theorem Ledger.run (hkeeps : KeepsBytes τ holds) (hwidth : 0 < width) (calls : List (Call width))
    {history : List (Event width)} {l : RevocationList width capacity τ}
    (h : Ledger holds history l) :
    Ledger holds (history ++ (run calls l).1) (run calls l).2 := by
  induction calls generalizing history l with
  | nil =>
    rw [RevocationList.run, List.append_nil]
    exact h
  | cons call calls ih =>
    have hrest := ih (h.perform hkeeps hwidth call)
    rw [List.append_assoc] at hrest
    exact hrest

/-- After a restart the list has the addresses that are read off what was written. -/
theorem Ledger.opened (hkeeps : KeepsBytes τ holds) {history : List (Event width)}
    {l : RevocationList width capacity τ} (h : Ledger holds history l) :
    ∃ l' : RevocationList width capacity τ,
      opened l.store = (.ok l'.length, l') ∧
        l'.entries.toList = decoded width capacity (bytesOf (writes history)) := by
  obtain ⟨hresult, hentries, -, -⟩ := opened_of_holds width capacity hkeeps h.holds
  exact ⟨_, Prod.ext hresult rfl, hentries⟩

end MeshSecurity.RevocationList
