import Mathlib.Algebra.Ring.Nat
import MeshSecurity.Proofs.StoreLedger
import MeshSecurity.Simulation.Interrupted

/-!
# Short writes and what is read after them

A record that was stored in part is not marked, and the next one follows right behind it. Whether a
restart finds the acknowledged revocations is a matter of the lengths alone: it does for all
addresses if at every place from which it reads an address a record begins of which the address
was stored, and otherwise there are addresses for which it reads one that nobody asked to revoke.
-/

namespace MeshSecurity

namespace ScriptedStore

theorem keepsBytes : KeepsBytes ScriptedStore fun s bytes => s.bytes = bytes where
  append := by
    rintro ⟨bytes, lengths⟩ _ rfl data
    left
    cases lengths with
    | nil => exact ⟨_, Nat.le_refl _, rfl, by simp [RecordStore.append]⟩
    | cons n lengths =>
      refine ⟨_, Nat.min_le_right n _, rfl, ?_⟩
      rw [← List.take_take, List.take_length]
      rfl
  read := by
    rintro s bytes rfl offset n
    exact ⟨rfl, rfl⟩
  remove _ := ⟨rfl, rfl⟩

end ScriptedStore

namespace RevocationList

variable {width capacity : Nat}

/-- How much was stored of each record since the list was cleared. -/
def storedLengths (history : List (Event width)) : List Nat := (writes history).map Write.stored

/-- At every multiple of the record size that an address follows, a record begins of which at
least the address was stored. -/
def Resumable (width : Nat) (lengths : List Nat) : Prop :=
  ∀ j < (lengths.sum + 1) / recordSize width, ∃ i < lengths.length,
    (lengths.take i).sum = j * recordSize width ∧ width ≤ lengths.getD i 0

instance (width : Nat) (lengths : List Nat) : Decidable (Resumable width lengths) := by
  unfold Resumable
  infer_instance

/-- After a restart every acknowledged revocation is listed, and nobody who was not to be
revoked. -/
def Recovers {τ : Type} [RecordStore τ] (history : List (Event width))
    (l : RevocationList width capacity τ) : Prop :=
  ∃ l' : RevocationList width capacity τ, opened l.store = (.ok l'.length, l') ∧
    (∀ peer ∈ acknowledged history, peer ∈ l'.entries.toList) ∧
    ∀ peer ∈ l'.entries.toList, peer ∈ requested history

/-- A restart recovers from every run over a store that keeps its bytes, if the run began with the
store empty and has stored so much of each record. -/
def AlwaysRecovers (width capacity : Nat) (lengths : List Nat) : Prop :=
  ∀ (τ : Type) [RecordStore τ] (holds : τ → List UInt8 → Prop), KeepsBytes τ holds →
    ∀ store, holds store [] → ∀ calls : List (Call width),
      let r := run calls (ofStore store true : RevocationList width capacity τ)
      storedLengths r.1 = lengths → Recovers r.1 r.2

/-! ## Places in a list of lengths -/

theorem lt_addressCount_iff {width n j : Nat} :
    j < (n + 1) / recordSize width ↔ j * recordSize width + width ≤ n := by
  have hpos : 0 < recordSize width := Nat.succ_pos width
  rw [Nat.lt_iff_add_one_le, Nat.le_div_iff_mul_le hpos, Nat.succ_mul]
  change _ + (width + 1) ≤ n + 1 ↔ _
  omega

theorem resumable_iff {lengths : List Nat} : Resumable width lengths ↔
    ∀ j, j * recordSize width + width ≤ lengths.sum → ∃ before n after,
      lengths = before ++ n :: after ∧ before.sum = j * recordSize width ∧ width ≤ n := by
  refine forall_congr' fun j => imp_congr lt_addressCount_iff ⟨?_, ?_⟩
  · rintro ⟨i, hi, hsum, hn⟩
    have hget : lengths.getD i 0 = lengths[i] := by simp [hi]
    rw [hget] at hn
    exact ⟨lengths.take i, lengths[i], lengths.drop (i + 1), by simp, hsum, hn⟩
  · rintro ⟨before, n, after, rfl, hsum, hn⟩
    refine ⟨before.length, by simp, ?_, by simpa using hn⟩
    rw [List.take_left, hsum]

theorem exists_split_of_lt_sum {lengths : List Nat} {x : Nat} (h : x < lengths.sum) :
    ∃ before n after, lengths = before ++ n :: after ∧ before.sum ≤ x ∧ x < before.sum + n := by
  induction lengths generalizing x with
  | nil => cases h
  | cons m lengths ih =>
    rw [List.sum_cons] at h
    by_cases hfirst : x < m
    · exact ⟨[], m, lengths, rfl, Nat.zero_le x, by simpa using hfirst⟩
    · obtain ⟨before, n, after, rfl, hlow, hhigh⟩ := ih (x := x - m) (by omega)
      refine ⟨m :: before, n, after, rfl, ?_, ?_⟩
      · rw [List.sum_cons]
        omega
      · rw [List.sum_cons]
        omega

/-- Of two places in a list one comes first, or they are the same. -/
theorem sum_of_splits {a b c d : List Nat} {x y : Nat} (h : a ++ x :: b = c ++ y :: d) :
    a.sum + x ≤ c.sum ∨ a = c ∧ x = y ∨ c.sum + y ≤ a.sum := by
  rcases List.append_eq_append_iff.mp h with ⟨e, rfl, he⟩ | ⟨e, rfl, he⟩
  · cases e with
    | nil =>
      simp only [List.nil_append, List.cons.injEq] at he
      exact .inr (.inl ⟨(List.append_nil a).symm, he.1⟩)
    | cons z e =>
      simp only [List.cons_append, List.cons.injEq] at he
      refine .inl ?_
      rw [he.1, List.sum_append, List.sum_cons]
      omega
  · cases e with
    | nil =>
      simp only [List.nil_append, List.cons.injEq] at he
      exact .inr (.inl ⟨List.append_nil c, he.1.symm⟩)
    | cons z e =>
      simp only [List.cons_append, List.cons.injEq] at he
      refine .inr (.inr ?_)
      rw [he.1, List.sum_append, List.sum_cons]
      omega

/-- Where reading can be resumed, complete records are at multiples of the record size. -/
theorem aligned_of_complete (hwidth : 0 < width) {before after : List Nat}
    (h : Resumable width (before ++ recordSize width :: after)) :
    ∃ j, before.sum = j * recordSize width := by
  rw [resumable_iff, List.sum_append, List.sum_cons] at h
  have hpos : 0 < recordSize width := Nat.succ_pos width
  have hrecord : recordSize width = width + 1 := rfl
  have hdivision := Nat.div_add_mod' before.sum (recordSize width)
  have hrest := Nat.mod_lt before.sum hpos
  revert hdivision hrest
  generalize before.sum / recordSize width = q
  generalize before.sum % recordSize width = r
  intro hdivision hrest
  by_cases hzero : r = 0
  · exact ⟨q, by omega⟩
  · -- the address read before the record ends in it, so only its delimiter can be missing
    exfalso
    obtain ⟨c, n, d, hsplit, hsum, hn⟩ := h q (by omega)
    have hr : r = width := by
      rcases sum_of_splits hsplit with hle | ⟨rfl, -⟩ | hle <;> omega
    obtain ⟨c', n', d', hsplit', hsum', hn'⟩ := h (q + 1) (by rw [Nat.succ_mul]; omega)
    rw [Nat.succ_mul] at hsum'
    rcases sum_of_splits hsplit' with hle | ⟨rfl, -⟩ | hle <;> omega

/-! ## What is read at a place -/

theorem stored_le_of_mem_writes {history : List (Event width)} (h : ∀ e ∈ history, e.Coherent)
    {w : Write width} (hw : w ∈ writes history) : w.stored ≤ recordSize width := by
  obtain ⟨e, he, hwrite⟩ := List.mem_filterMap.mp hw
  have hcoherent := h e (mem_of_mem_sinceClear he)
  cases e with
  | revoked peer result stored =>
    cases hwrite
    rcases hcoherent with ⟨hall, -⟩ | ⟨hshort, -⟩ | ⟨hnone, -⟩
    · exact Nat.le_of_eq hall
    · exact Nat.le_of_lt hshort
    · exact Nat.le_trans (Nat.le_of_eq hnone) (Nat.zero_le _)
  | cleared result => cases hwrite
  | loaded result => cases hwrite

theorem length_bytesOf {ws : List (Write width)} (h : ∀ w ∈ ws, w.stored ≤ recordSize width) :
    (bytesOf ws).length = (ws.map Write.stored).sum := by
  induction ws with
  | nil => rfl
  | cons w ws ih =>
    obtain ⟨hw, hws⟩ := List.forall_mem_cons.mp h
    rw [bytesOf_cons, List.length_append, Write.length_bytes hw, ih hws, List.map_cons,
      List.sum_cons]

/-- Behind the bytes of the first writes come those of the next one. -/
theorem drop_bytesOf {ws : List (Write width)} (h : ∀ w ∈ ws, w.stored ≤ recordSize width)
    (w : Write width) (vs : List (Write width)) (d : Nat) :
    (bytesOf (ws ++ w :: vs)).drop ((ws.map Write.stored).sum + d) =
      (w.bytes ++ bytesOf vs).drop d := by
  rw [bytesOf_append, bytesOf_cons, ← List.drop_drop, List.drop_left' (length_bytesOf h)]

theorem take_bytes_append {w : Write width} (h : width ≤ w.stored) (bytes : List UInt8) :
    (w.bytes ++ bytes).take width = w.peer.toList := by
  have hmin : min width w.stored = width := Nat.min_eq_left h
  have hlength : width ≤ w.bytes.length := by
    rw [Write.bytes, List.length_take, length_record, recordSize]
    omega
  rw [List.take_append_of_le_length hlength, Write.bytes, List.take_take, hmin, take_record]

theorem take_drop_bytesOf {ws vs : List (Write width)} {w : Write width}
    (h : ∀ v ∈ ws ++ w :: vs, v.stored ≤ recordSize width) (hw : width ≤ w.stored) :
    ((bytesOf (ws ++ w :: vs)).drop (ws.map Write.stored).sum).take width = w.peer.toList := by
  have hplace := drop_bytesOf (fun v hv => h v (List.mem_append_left _ hv)) w vs 0
  rw [Nat.add_zero, List.drop_zero] at hplace
  rw [hplace, take_bytes_append hw]

section Recovery

variable {ws : List (Write width)} (hstored : ∀ w ∈ ws, w.stored ≤ recordSize width)
  (hresumable : Resumable width (ws.map Write.stored))

include hstored hresumable

theorem mem_decoded_of_complete (hwidth : 0 < width) {n : Nat}
    (hn : addressCount width (bytesOf ws) ≤ n) {w : Write width} (hw : w ∈ ws)
    (hcomplete : w.IsComplete) : w.peer ∈ decoded width n (bytesOf ws) := by
  rw [Write.IsComplete] at hcomplete
  have haddress : width ≤ w.stored := by
    rw [hcomplete]
    exact Nat.le_succ width
  have hlength := length_bytesOf hstored
  obtain ⟨us, vs, rfl⟩ := List.append_of_mem hw
  have htake := take_drop_bytesOf hstored haddress
  rw [List.map_append, List.map_cons, hcomplete] at hresumable hlength
  obtain ⟨j, hj⟩ := aligned_of_complete hwidth hresumable
  rw [hj] at htake
  have hroom : j * recordSize width + width ≤ (bytesOf (us ++ w :: vs)).length := by
    rw [hlength, List.sum_append, List.sum_cons, hj]
    change _ ≤ _ + (width + 1 + _)
    omega
  rw [mem_decoded_iff hwidth]
  exact ⟨j, Nat.lt_of_lt_of_le (lt_addressCount_iff.mpr hroom) hn, hroom, htake⟩

theorem mem_peers_of_mem_decoded (hwidth : 0 < width) {n : Nat} {peer : Address width}
    (hpeer : peer ∈ decoded width n (bytesOf ws)) : peer ∈ ws.map Write.peer := by
  obtain ⟨j, -, hroom, htake⟩ := (mem_decoded_iff hwidth).mp hpeer
  rw [length_bytesOf hstored] at hroom
  obtain ⟨before, m, after, hlengths, hsum, hm⟩ := resumable_iff.mp hresumable j hroom
  obtain ⟨us, vs, rfl, rfl, hvs⟩ := List.map_eq_append_iff.mp hlengths
  obtain ⟨w, vs, rfl, rfl, -⟩ := List.map_eq_cons_iff.mp hvs
  rw [← hsum, take_drop_bytesOf hstored hm] at htake
  rw [← Address.toList_inj.mp htake]
  exact List.mem_map_of_mem (List.mem_append_right _ List.mem_cons_self)

end Recovery

theorem recovers_of_resumable {τ : Type} [RecordStore τ] {holds : τ → List UInt8 → Prop}
    (hkeeps : KeepsBytes τ holds) (hwidth : 0 < width) {history : List (Event width)}
    {l : RevocationList width capacity τ} (h : Ledger holds history l)
    (hresumable : Resumable width (storedLengths history)) : Recovers history l := by
  obtain ⟨l', hopened, hentries⟩ := h.opened hkeeps
  have hstored : ∀ w ∈ writes history, w.stored ≤ recordSize width :=
    fun w hw => stored_le_of_mem_writes h.coherent hw
  have hcapacity : addressCount width (bytesOf (writes history)) ≤ capacity :=
    Nat.le_trans h.room l.entries.length_le
  refine ⟨l', hopened, fun peer hpeer => ?_, fun peer hpeer => ?_⟩
  · rw [acknowledged_eq h.coherent] at hpeer
    obtain ⟨w, hw, rfl⟩ := List.mem_map.mp hpeer
    rw [List.mem_filter, decide_eq_true_iff] at hw
    rw [hentries]
    exact mem_decoded_of_complete hstored hresumable hwidth hcapacity hw.1 hw.2
  · rw [hentries] at hpeer
    obtain ⟨w, hw, rfl⟩ := List.mem_map.mp
      (mem_peers_of_mem_decoded hstored hresumable hwidth hpeer)
    exact mem_requested_of_mem_writes hw

/-! ## Lengths after which a restart reads something else -/

theorem getElem?_bytes_append {w : Write width} (hw : w.stored ≤ recordSize width) {i : Nat}
    (hi : i < w.stored) (bytes : List UInt8) :
    (w.bytes ++ bytes)[i]? = (record w.peer)[i]? := by
  rw [List.getElem?_append_left (by rw [Write.length_bytes hw]; exact hi), Write.bytes,
    List.getElem?_take_of_lt hi]

theorem getElem?_record_repeated (b : UInt8) {i : Nat} (hi : i < recordSize width) :
    (record (.repeated b : Address width))[i]? = some (if i < width then b else delimiter) := by
  rw [record, Address.toList_repeated]
  split
  · rename_i haddress
    rw [List.getElem?_append_left (by simpa using haddress),
      List.getElem?_replicate_of_lt haddress]
  · rename_i haddress
    have hlast : i = width := Nat.le_antisymm (Nat.le_of_lt_succ hi) (Nat.not_lt.mp haddress)
    rw [hlast, List.getElem?_append_right (by simp)]
    simp

theorem head_bytesOf (hwidth : 0 < width) {ws : List (Write width)} {b c : UInt8}
    (h : ∀ w ∈ ws, w.stored ≤ recordSize width ∧ w.peer = .repeated b)
    (hc : (bytesOf ws)[0]? = some c) : c = b := by
  induction ws with
  | nil => cases hc
  | cons w ws ih =>
    obtain ⟨⟨hstored, hpeer⟩, hws⟩ := List.forall_mem_cons.mp h
    rw [bytesOf_cons] at hc
    by_cases hnone : w.stored = 0
    · rw [Write.bytes, hnone, List.take_zero, List.nil_append] at hc
      exact ih hws hc
    · rw [getElem?_bytes_append hstored (Nat.pos_of_ne_zero hnone), hpeer,
        getElem?_record_repeated b (Nat.succ_pos width), if_pos hwidth] at hc
      exact (Option.some.inj hc).symm

/-- Read from inside the record of one peer, or from the begin of one that breaks off in the
address, an address is neither of this peer nor of the one whose records follow. -/
theorem read_between_records (hwidth : 0 < width) {w : Write width} {vs : List (Write width)}
    (hw : w.stored ≤ recordSize width ∧ w.peer = .repeated 1)
    (hvs : ∀ v ∈ vs, v.stored ≤ recordSize width ∧ v.peer = .repeated 2) {d : Nat}
    (hd : d < w.stored) (hinside : d ≠ 0 ∨ w.stored < width) {peer : Address width}
    (hread : ((w.bytes ++ bytesOf vs).drop d).take width = peer.toList) :
    peer ≠ .repeated 1 ∧ peer ≠ .repeated 2 := by
  obtain ⟨hstored, hpeer⟩ := hw
  have hbyte {i : Nat} (hi : i < width) :
      peer.toList[i]? = (w.bytes ++ bytesOf vs)[d + i]? := by
    rw [← hread, List.getElem?_take_of_lt hi, List.getElem?_drop]
  have hfirst {i : Nat} (hi : i < width) (hinner : d + i < w.stored) :
      peer.toList[i]? = some (if d + i < width then 1 else delimiter) := by
    rw [hbyte hi, getElem?_bytes_append hstored hinner, hpeer,
      getElem?_record_repeated 1 (Nat.lt_of_lt_of_le hinner hstored)]
  constructor
  · rintro rfl
    rw [Address.toList_repeated] at hbyte hfirst
    by_cases hcomplete : w.stored = recordSize width
    · -- the delimiter is read as a part of the address
      have hrecord : recordSize width = width + 1 := rfl
      have hdelimiter := hfirst (i := width - d) (by omega) (by omega)
      rw [if_neg (by omega), List.getElem?_replicate_of_lt (by omega)] at hdelimiter
      cases hdelimiter
    · have hrecord : recordSize width = width + 1 := rfl
      have hnext := hbyte (i := w.stored - d) (by omega)
      rw [List.getElem?_replicate_of_lt (by omega),
        List.getElem?_append_right (by rw [Write.length_bytes hstored]; omega),
        Write.length_bytes hstored, show d + (w.stored - d) - w.stored = 0 by omega] at hnext
      exact absurd (head_bytesOf hwidth hvs hnext.symm) (by decide)
  · rintro rfl
    have hbegin := hfirst hwidth hd
    rw [Address.toList_repeated, List.getElem?_replicate_of_lt hwidth, Option.some.injEq] at hbegin
    split at hbegin
    · exact absurd hbegin (by decide)
    · exact absurd hbegin (by decide)

/-- Writes of these lengths, of which the one in the middle is of another address than the rest. -/
def marked (width : Nat) (before : List Nat) (n : Nat) (after : List Nat) : List (Write width) :=
  before.map (Write.mk (.repeated 2)) ++
    ⟨.repeated 1, n⟩ :: after.map (Write.mk (.repeated 2))

theorem map_stored_mk (peer : Address width) (lengths : List Nat) :
    (lengths.map (Write.mk peer)).map Write.stored = lengths := by
  rw [List.map_map]
  exact List.map_id lengths

theorem map_stored_marked (before : List Nat) (n : Nat) (after : List Nat) :
    (marked width before n after).map Write.stored = before ++ n :: after := by
  rw [marked, List.map_append, List.map_cons, map_stored_mk, map_stored_mk]

theorem peer_of_mem_marked {before after : List Nat} {n : Nat} {peer : Address width}
    (h : peer ∈ (marked width before n after).map Write.peer) :
    peer = .repeated 1 ∨ peer = .repeated 2 := by
  obtain ⟨w, hw, rfl⟩ := List.mem_map.mp h
  rcases List.mem_append.mp hw with hw | hw
  · obtain ⟨m, -, rfl⟩ := List.mem_map.mp hw
    exact .inr rfl
  · rcases List.mem_cons.mp hw with rfl | hw
    · exact .inl rfl
    · obtain ⟨m, -, rfl⟩ := List.mem_map.mp hw
      exact .inr rfl

/-- If reading cannot be resumed after writes of these lengths, the peers can be such that at some
place the address of somebody else is read. -/
theorem exists_stray (hwidth : 0 < width) {lengths : List Nat}
    (hrecord : ∀ n ∈ lengths, n ≤ recordSize width) (hlengths : ¬ Resumable width lengths) :
    ∃ ws : List (Write width), ws.map Write.stored = lengths ∧
      ∃ j peer, j * recordSize width + width ≤ (bytesOf ws).length ∧
        ((bytesOf ws).drop (j * recordSize width)).take width = peer.toList ∧
        peer ∉ ws.map Write.peer := by
  simp only [resumable_iff, not_forall] at hlengths
  obtain ⟨j, hj, hno⟩ := hlengths
  obtain ⟨before, n, after, rfl, hlow, hhigh⟩ :=
    exists_split_of_lt_sum (Nat.lt_of_lt_of_le (Nat.lt_add_of_pos_right hwidth) hj)
  have hinside : j * recordSize width - before.sum ≠ 0 ∨ n < width := by
    by_contra hbegin
    rw [not_or, not_not, Nat.not_lt] at hbegin
    obtain ⟨hzero, hn⟩ := hbegin
    exact hno ⟨before, n, after, rfl, Nat.le_antisymm hlow (Nat.sub_eq_zero_iff_le.mp hzero), hn⟩
  have hws : ∀ w ∈ marked width before n after, w.stored ≤ recordSize width := fun w hw =>
    hrecord w.stored (map_stored_marked before n after ▸ List.mem_map_of_mem hw)
  have hbytes : (bytesOf (marked width before n after)).length = (before ++ n :: after).sum := by
    rw [length_bytesOf hws, map_stored_marked]
  have haddress : width ≤
      ((bytesOf (marked width before n after)).drop (j * recordSize width)).length := by
    rw [List.length_drop, hbytes]
    omega
  obtain ⟨peer, hpeer⟩ := exists_address haddress
  refine ⟨marked width before n after, map_stored_marked before n after, j, peer,
    by rw [hbytes]; exact hj, hpeer, fun hmem => ?_⟩
  have hplace := drop_bytesOf (fun v hv => hws v (List.mem_append_left _ hv)) ⟨.repeated 1, n⟩
    (after.map (Write.mk (.repeated 2))) (j * recordSize width - before.sum)
  rw [map_stored_mk, Nat.add_sub_cancel' hlow] at hplace
  rw [marked, hplace] at hpeer
  -- the record that is read into has one address, and all that follow have another
  have hother : ∀ v ∈ after.map (Write.mk (.repeated 2 : Address width)),
      v.stored ≤ recordSize width ∧ v.peer = .repeated 2 := by
    rintro v hv
    refine ⟨hws v (List.mem_append_right _ (List.mem_cons_of_mem _ hv)), ?_⟩
    obtain ⟨m, -, rfl⟩ := List.mem_map.mp hv
    rfl
  obtain ⟨hone, htwo⟩ := read_between_records hwidth
    ⟨hws _ (List.mem_append_right _ List.mem_cons_self), rfl⟩ hother (by dsimp only; omega)
    hinside hpeer
  exact (peer_of_mem_marked hmem).elim hone htwo

theorem perform_scripted {l : RevocationList width capacity ScriptedStore}
    (hpersistent : l.persistent = true) (hroom : l.entries.length < capacity)
    {n : Nat} {lengths : List Nat} (hlengths : l.store.lengths = n :: lengths)
    (hn : n ≤ recordSize width) (peer : Address width) :
    ∃ result l', l.perform (.revoke peer) = (.revoked peer result n, l') ∧
      l'.persistent = true ∧ l'.entries.length = l.entries.length + 1 ∧
      l'.store.lengths = lengths := by
  obtain ⟨entries, store, persistent⟩ := l
  obtain ⟨bytes, script⟩ := store
  dsimp only at hpersistent hlengths
  subst hpersistent hlengths
  cases hpush : entries.push? peer with
  | none => exact absurd (Bounded.push?_eq_none_iff.mp hpush) (Nat.ne_of_lt hroom)
  | some entries' =>
    have hlength : entries'.length = entries.length + 1 := by
      rw [Bounded.length, Bounded.push?_eq_some_iff.mp hpush, List.length_append]
      rfl
    rw [perform, revoke, storedBy]
    simp only [hpush, RecordStore.append, Option.isSome_some, Bool.and_self, if_true,
      length_record, Nat.min_eq_left hn]
    exact ⟨_, _, rfl, rfl, hlength, rfl⟩

/-- Revocations over a scripted store write what the script says. -/
theorem writes_run_scripted {l : RevocationList width capacity ScriptedStore}
    {ws : List (Write width)} (hpersistent : l.persistent = true)
    (hroom : l.entries.length + ws.length ≤ capacity)
    (hlengths : l.store.lengths = ws.map Write.stored)
    (hws : ∀ w ∈ ws, w.stored ≤ recordSize width) (history : List (Event width)) :
    writes (history ++ (run ((ws.map Write.peer).map .revoke) l).1) = writes history ++ ws := by
  induction ws generalizing l history with
  | nil => simp [run]
  | cons w ws ih =>
    obtain ⟨hw, hrest⟩ := List.forall_mem_cons.mp hws
    rw [List.length_cons] at hroom
    obtain ⟨result, l', hperform, hpersistent', hlength, hlengths'⟩ :=
      perform_scripted hpersistent (by omega) hlengths hw w.peer
    have hrun := ih hpersistent' (by omega) hlengths' hrest
      (history ++ [.revoked w.peer result w.stored])
    rw [List.append_assoc, writes_revoked, List.append_assoc] at hrun
    rw [List.map_cons, List.map_cons, run, hperform]
    exact hrun

theorem mem_of_mem_requested_run {τ : Type} [RecordStore τ]
    {l : RevocationList width capacity τ} {peers : List (Address width)} {peer : Address width}
    (h : peer ∈ requested (run (peers.map .revoke) l).1) : peer ∈ peers := by
  induction peers generalizing l with
  | nil => cases h
  | cons first peers ih =>
    rw [List.map_cons, run, requested, List.filterMap_cons_some (by rfl), List.mem_cons] at h
    rcases h with rfl | h
    · exact List.mem_cons_self
    · exact List.mem_cons_of_mem _ (ih h)

theorem exists_unrecovered (hwidth : 0 < width) {lengths : List Nat}
    (hrecord : ∀ n ∈ lengths, n ≤ recordSize width) (hroom : lengths.length ≤ capacity)
    (hlengths : ¬ Resumable width lengths) :
    ∃ peers : List (Address width),
      let r := run (peers.map .revoke)
        (ofStore (.ofLengths lengths) true : RevocationList width capacity ScriptedStore)
      storedLengths r.1 = lengths ∧ ¬ Recovers r.1 r.2 := by
  obtain ⟨ws, rfl, j, peer, hj, hread, hpeer⟩ := exists_stray hwidth hrecord hlengths
  have hws : ∀ w ∈ ws, w.stored ≤ recordSize width :=
    fun w hw => hrecord w.stored (List.mem_map_of_mem hw)
  rw [List.length_map] at hroom
  refine ⟨ws.map Write.peer, ?_⟩
  intro r
  have hwrites : writes r.1 = ws := by
    have hentries : 0 + ws.length ≤ capacity := by rwa [Nat.zero_add]
    exact writes_run_scripted (l := ofStore (.ofLengths (ws.map Write.stored)) true) rfl hentries
      rfl hws []
  have hstart : Ledger (fun (s : ScriptedStore) bytes => s.bytes = bytes) []
      (ofStore (.ofLengths (ws.map Write.stored)) true : RevocationList width capacity _) :=
    ledger_ofStore hwidth rfl
  have hledger : Ledger (fun (s : ScriptedStore) bytes => s.bytes = bytes) r.1 r.2 :=
    hstart.run ScriptedStore.keepsBytes hwidth ((ws.map Write.peer).map .revoke)
  refine ⟨by rw [storedLengths, hwrites], ?_⟩
  rintro ⟨l', hopened, -, hrequested⟩
  obtain ⟨l'', hopened', hentries⟩ := hledger.opened ScriptedStore.keepsBytes
  obtain rfl : l'' = l' := congrArg Prod.snd (hopened'.symm.trans hopened)
  have hlisted : peer ∈ l''.entries.toList := by
    have hcount := Nat.le_trans hledger.room (Bounded.length_le _)
    rw [hwrites] at hcount
    rw [hentries, hwrites, mem_decoded_iff hwidth]
    exact ⟨j, Nat.lt_of_lt_of_le (lt_addressCount_iff.mpr hj) hcount, hj, hread⟩
  exact hpeer (mem_of_mem_requested_run (hrequested peer hlisted))

/-- The lengths stored of the records since the last clear decide whether a restart recovers. If
reading can be resumed at every record size, it does, for all addresses and over every store that
keeps its bytes. If not, there are addresses to revoke such that after writes of these lengths it
does not. -/
theorem recovery_after_short_writes (hwidth : 0 < width) (capacity : Nat) (lengths : List Nat) :
    (Resumable width lengths → AlwaysRecovers width capacity lengths) ∧
      ((∀ n ∈ lengths, n ≤ recordSize width) → lengths.length ≤ capacity →
        ¬ Resumable width lengths →
          KeepsBytes ScriptedStore (fun s bytes => s.bytes = bytes) ∧
            ∃ peers : List (Address width),
              let r := run (peers.map .revoke)
                (ofStore (.ofLengths lengths) true : RevocationList width capacity ScriptedStore)
              storedLengths r.1 = lengths ∧ ¬ Recovers r.1 r.2) := by
  constructor
  · intro hresumable τ _ holds hkeeps store hstore calls r hlengths
    have hledger : Ledger holds r.1 r.2 := (ledger_ofStore hwidth hstore).run hkeeps hwidth calls
    rw [← hlengths] at hresumable
    exact recovers_of_resumable hkeeps hwidth hledger hresumable
  · intro hrecord hroom hresumable
    exact ⟨ScriptedStore.keepsBytes, exists_unrecovered hwidth hrecord hroom hresumable⟩

/-- After the first address was stored only up to its third byte, the lengths no longer allow it. -/
theorem recovery_after_short_writes_threeOfNine :
    (Resumable 8 [9, 3] → AlwaysRecovers 8 4 [9, 3]) ∧ Resumable 8 [9, 3] ∧
      AlwaysRecovers 8 4 [9, 3] ∧
      (∀ n ∈ [3, 9], n ≤ recordSize 8) ∧ [3, 9].length ≤ 4 ∧ ¬ Resumable 8 [3, 9] ∧
      ∃ peers : List (Address 8),
        let r := run (peers.map .revoke)
          (ofStore (.ofLengths [3, 9]) true : RevocationList 8 4 ScriptedStore)
        storedLengths r.1 = [3, 9] ∧ ¬ Recovers r.1 r.2 := by
  have hwidth : 0 < 8 := by decide
  obtain ⟨hrecovers, -⟩ := recovery_after_short_writes hwidth 4 [9, 3]
  obtain ⟨-, hloses⟩ := recovery_after_short_writes hwidth 4 [3, 9]
  have hresumable : Resumable 8 [9, 3] := by decide
  have hrecord : ∀ n ∈ [3, 9], n ≤ recordSize 8 := by decide
  have hlost : ¬ Resumable 8 [3, 9] := by decide
  exact ⟨hrecovers, hresumable, hrecovers hresumable, hrecord, by decide, hlost,
    (hloses hrecord (by decide) hlost).2⟩

/-- The first revocation is stored up to its third byte, the second one completely. A restart lists
one address: what is behind the three bytes, which is none of the two. -/
theorem acknowledged_lost_after_shortWrite :
    KeepsBytes ScriptedStore (fun s bytes => s.bytes = bytes) ∧
      let a : Address 8 := .repeated 1
      let b : Address 8 := .repeated 2
      let r := run [.revoke a, .revoke b]
        (ofStore (.ofLengths [3]) true : RevocationList 8 4 ScriptedStore)
      r.1 = [.revoked a (.error .recordNotStored) 3, .revoked b (.ok 2) 9] ∧
        acknowledged r.1 = [b] ∧ requested r.1 = [a, b] ∧
        (opened r.2.store : _ × RevocationList 8 4 ScriptedStore).2.entries.toList.map
          Address.toList = [[1, 1, 1, 2, 2, 2, 2, 2]] := by
  refine ⟨ScriptedStore.keepsBytes, ?_, ?_, ?_, ?_⟩
  · rfl
  · rfl
  · rfl
  · rfl

end RevocationList

end MeshSecurity
