import MeshSecurity.Proofs.StoreLedger
import MeshSecurity.Simulation.Interrupted
import MeshSecurity.Storage.Memory

/-!
# Revocations outlast a restart

A store in memory takes records whole until one fills it up, and from then on nothing before it is
cleared. So what is read off its bytes are the acknowledged revocations in order, and after them
at most one more: the one that filled the store, if only its delimiter was left out. Appends that
fail on the way change nothing about that.
-/

namespace MeshSecurity

theorem MemoryStore.length_contents_le {size : Nat} (s : MemoryStore size) :
    s.contents.length ≤ size := s.bytes.length_le

theorem MemoryStore.keepsBytes (size : Nat) :
    KeepsBytes (MemoryStore size) fun s bytes => s.contents = bytes where
  append := by
    rintro s bytes rfl data
    have hmin : data.take (min data.length s.bytes.room) = data.take s.bytes.room := by
      rw [Nat.min_comm, ← List.take_take, List.take_length]
    change (∃ n ≤ _, (s.append data).1 = .ok n ∧ (s.append data).2.contents = _) ∨
      ∃ e, (s.append data).1 = .error e ∧ (s.append data).2.contents = _
    unfold append
    split
    · exact .inr ⟨_, rfl, rfl⟩
    · refine .inl ⟨_, Nat.min_le_left _ _, rfl, ?_⟩
      rw [hmin]
      rfl
  read := by
    rintro s bytes rfl offset n
    exact ⟨rfl, rfl⟩
  remove _ := ⟨rfl, rfl⟩

namespace InterruptedStore

variable {τ : Type} [RecordStore τ]

/-- The store holds the bytes, and only appends to it are interrupted. -/
def Holds (holds : τ → List UInt8 → Prop) (s : InterruptedStore τ) (bytes : List UInt8) : Prop :=
  holds s.store bytes ∧ s.reads.failing = [] ∧ s.removals.failing = []

theorem keepsBytes {holds : τ → List UInt8 → Prop} (h : KeepsBytes τ holds) :
    KeepsBytes (InterruptedStore τ) (Holds holds) where
  append := by
    rintro s bytes ⟨hstore, hreads, hremovals⟩ data
    cases hfails : s.appends.nextFails with
    | true =>
      right
      simp only [RecordStore.append, hfails, if_true]
      exact ⟨_, rfl, hstore, hreads, hremovals⟩
    | false =>
      simp only [RecordStore.append, hfails, if_neg Bool.false_ne_true]
      rcases h.append hstore data with ⟨n, hn, hresult, hafter⟩ | ⟨e, hresult, hafter⟩
      · exact .inl ⟨n, hn, hresult, hafter, hreads, hremovals⟩
      · exact .inr ⟨e, hresult, hafter, hreads, hremovals⟩
  read := by
    rintro s bytes ⟨hstore, hreads, hremovals⟩ offset n
    have hfails : s.reads.nextFails = false := by simp [CallCounter.nextFails, hreads]
    simp only [RecordStore.read, hfails, if_neg Bool.false_ne_true]
    obtain ⟨hresult, hafter⟩ := h.read hstore offset n
    exact ⟨hresult, hafter, hreads, hremovals⟩
  remove := by
    rintro s bytes ⟨hstore, hreads, hremovals⟩
    have hfails : s.removals.nextFails = false := by simp [CallCounter.nextFails, hremovals]
    simp only [RecordStore.remove, hfails, if_neg Bool.false_ne_true]
    obtain ⟨hresult, hafter⟩ := h.remove hstore
    exact ⟨hresult, hafter, hreads, hremovals⟩

end InterruptedStore

namespace RevocationList

variable {width capacity size : Nat}

/-! ## Writes that are whole up to one that fills the store -/

/-- Every write was complete or came to nothing. -/
def Whole (ws : List (Write width)) : Prop := ∀ w ∈ ws, w.stored = 0 ∨ w.IsComplete

/-- The peers of the complete writes, in order. -/
def completed (ws : List (Write width)) : List (Address width) :=
  (ws.filter (·.IsComplete)).map Write.peer

theorem completed_append (ws vs : List (Write width)) :
    completed (ws ++ vs) = completed ws ++ completed vs := by
  rw [completed, List.filter_append, List.map_append]
  rfl

theorem completed_cons_of_complete {w : Write width} (h : w.IsComplete)
    (ws : List (Write width)) : completed (w :: ws) = w.peer :: completed ws := by
  rw [completed, List.filter_cons_of_pos (by simpa using h)]
  rfl

theorem completed_cons_of_short {w : Write width} (h : w.stored < recordSize width)
    (ws : List (Write width)) : completed (w :: ws) = completed ws := by
  have hshort : ¬ w.IsComplete := Nat.ne_of_lt h
  rw [completed, List.filter_cons_of_neg (by simpa using hshort)]
  rfl

theorem bytes_of_complete {w : Write width} (h : w.IsComplete) : w.bytes = record w.peer :=
  List.take_of_length_le (Nat.le_of_eq ((length_record w.peer).trans h.symm))

theorem bytes_of_none {w : Write width} (h : w.stored = 0) : w.bytes = [] := by
  rw [Write.bytes, h, List.take_zero]

theorem short_of_none {w : Write width} (h : w.stored = 0) : w.stored < recordSize width := by
  rw [h]
  exact Nat.succ_pos width

theorem completed_of_none {ws : List (Write width)} (h : ∀ w ∈ ws, w.stored = 0) :
    completed ws = [] := by
  induction ws with
  | nil => rfl
  | cons w ws ih =>
    obtain ⟨hw, hws⟩ := List.forall_mem_cons.mp h
    rw [completed_cons_of_short (short_of_none hw), ih hws]

theorem bytesOf_of_none {ws : List (Write width)} (h : ∀ w ∈ ws, w.stored = 0) :
    bytesOf ws = [] :=
  List.flatMap_eq_nil_iff.mpr fun w hw => bytes_of_none (h w hw)

theorem length_bytesOf_whole {ws : List (Write width)} (h : Whole ws) :
    (bytesOf ws).length = (completed ws).length * recordSize width := by
  induction ws with
  | nil => simp [bytesOf, completed]
  | cons w ws ih =>
    obtain ⟨hw, hws⟩ := List.forall_mem_cons.mp h
    rw [bytesOf_cons, List.length_append, ih hws]
    rcases hw with hnone | hcomplete
    · rw [bytes_of_none hnone, completed_cons_of_short (short_of_none hnone), List.length_nil,
        Nat.zero_add]
    · rw [bytes_of_complete hcomplete, length_record, completed_cons_of_complete hcomplete,
        List.length_cons, Nat.succ_mul, Nat.add_comm]

theorem decoded_whole_append {ws : List (Write width)} (h : Whole ws) (n : Nat)
    (bytes : List UInt8) :
    decoded width ((completed ws).length + n) (bytesOf ws ++ bytes) =
      completed ws ++ decoded width n bytes := by
  induction ws with
  | nil => simp [bytesOf, completed]
  | cons w ws ih =>
    obtain ⟨hw, hws⟩ := List.forall_mem_cons.mp h
    rw [bytesOf_cons, List.append_assoc]
    rcases hw with hnone | hcomplete
    · rw [bytes_of_none hnone, completed_cons_of_short (short_of_none hnone)]
      exact ih hws
    · rw [bytes_of_complete hcomplete, completed_cons_of_complete hcomplete, List.length_cons,
        Nat.add_right_comm, decoded_record_append, ih hws]
      rfl

/-- Behind whole records reading goes on as at the begin. -/
theorem decoded_of_whole (hwidth : 0 < width) {ws : List (Write width)} (h : Whole ws) {n : Nat}
    {bytes : List UInt8} (hroom : addressCount width (bytesOf ws ++ bytes) ≤ n) :
    decoded width n (bytesOf ws ++ bytes) =
      completed ws ++ decoded width (addressCount width bytes) bytes := by
  have hpos : 0 < recordSize width := Nat.succ_pos width
  have hcount : addressCount width (bytesOf ws ++ bytes) =
      (completed ws).length + addressCount width bytes := by
    rw [addressCount, List.length_append, length_bytesOf_whole h, Nat.add_assoc, Nat.mul_comm,
      Nat.mul_add_div hpos]
    rfl
  rw [decoded_of_room hwidth hroom, hcount, decoded_whole_append h]

/-- The writes were whole, or they were until one filled a store of `size` bytes. -/
inductive FillsUp (size : Nat) (ws : List (Write width)) : Prop
  | whole (h : Whole ws)
  | full {before w after} (hws : ws = before ++ w :: after) (hbefore : Whole before)
      (hshort : w.stored < recordSize width) (hafter : ∀ v ∈ after, v.stored = 0)
      (hsize : (bytesOf ws).length = size)

theorem FillsUp.concat {ws : List (Write width)} (h : FillsUp size ws)
    (hfits : (bytesOf ws).length ≤ size) (peer : Address width) {n : Nat}
    (hn : n = 0 ∨ n = min (recordSize width) (size - (bytesOf ws).length)) :
    FillsUp size (ws ++ [⟨peer, n⟩]) := by
  have hle : n ≤ recordSize width := by omega
  have hlength : (bytesOf (ws ++ [⟨peer, n⟩])).length = (bytesOf ws).length + n := by
    rw [bytesOf_append, List.length_append, bytesOf_cons, List.length_append,
      Write.length_bytes hle]
    rfl
  cases h with
  | whole h =>
    by_cases hwhole : n = 0 ∨ n = recordSize width
    · exact .whole (List.forall_mem_append.mpr ⟨h, List.forall_mem_singleton.mpr hwhole⟩)
    · rw [not_or] at hwhole
      refine .full rfl h (Nat.lt_of_le_of_ne hle hwhole.2) (by simp) ?_
      rw [hlength]
      omega
  | @full before w after hws hbefore hshort hafter hsize =>
    -- nothing more fits
    have hnone : n = 0 := by omega
    subst hnone hws
    refine .full (List.append_assoc before (w :: after) _) hbefore hshort ?_
      (hlength.trans hsize)
    exact List.forall_mem_append.mpr ⟨hafter, List.forall_mem_singleton.mpr rfl⟩

/-- The peers of whose record the address was stored and not the delimiter, in order. -/
def undelimitedOf (ws : List (Write width)) : List (Address width) :=
  (ws.filter (·.stored = width)).map Write.peer

theorem undelimitedOf_of_whole (hwidth : 0 < width) {ws : List (Write width)} (h : Whole ws) :
    undelimitedOf ws = [] := by
  rw [undelimitedOf, List.filter_eq_nil_iff.mpr]
  · rfl
  · intro w hw haddress
    have haddress := of_decide_eq_true haddress
    rcases h w hw with hnone | hcomplete
    · omega
    · exact Nat.ne_of_lt (Nat.lt_succ_self width) (haddress.symm.trans hcomplete)

theorem undelimitedOf_append (ws vs : List (Write width)) :
    undelimitedOf (ws ++ vs) = undelimitedOf ws ++ undelimitedOf vs := by
  rw [undelimitedOf, List.filter_append, List.map_append]
  rfl

theorem decoded_bytes_of_short {w : Write width} (hwidth : 0 < width)
    (hshort : w.stored < recordSize width) :
    decoded width (addressCount width w.bytes) w.bytes = undelimitedOf [w] := by
  have hlength := Write.length_bytes (Nat.le_of_lt hshort)
  by_cases haddress : w.stored = width
  · have hbytes : w.bytes = w.peer.toList := by
      rw [Write.bytes, haddress, take_record]
    have hnil : w.bytes.drop (recordSize width) = [] :=
      List.drop_of_length_le (by omega)
    have htake : w.bytes.take width = w.peer.toList := by
      rw [List.take_of_length_le (by omega), hbytes]
    rw [← addressCount_drop hwidth (by omega), decoded_succ htake, hnil,
      decoded_of_short _ hwidth, undelimitedOf, List.filter_cons_of_pos (by simpa using haddress)]
    rfl
  · have hlt : w.stored < width := Nat.lt_of_le_of_ne (Nat.le_of_lt_succ hshort) haddress
    rw [decoded_of_short _ (by omega), undelimitedOf,
      List.filter_cons_of_neg (by simpa using haddress)]
    rfl

/-- What is read off such writes: the peers of the complete ones, and after them the peer of a
write that left out its delimiter alone. -/
theorem FillsUp.decoded_bytesOf (hwidth : 0 < width) {ws : List (Write width)}
    (h : FillsUp size ws) {n : Nat} (hroom : addressCount width (bytesOf ws) ≤ n) :
    decoded width n (bytesOf ws) = completed ws ++ undelimitedOf ws ∧
      (undelimitedOf ws).length ≤ 1 := by
  cases h with
  | whole h =>
    rw [← List.append_nil (bytesOf ws)] at hroom ⊢
    rw [decoded_of_whole hwidth h hroom, decoded_of_short _ hwidth,
      undelimitedOf_of_whole hwidth h]
    exact ⟨rfl, Nat.zero_le 1⟩
  | @full before w after hws hbefore hshort hafter hsize =>
    subst hws
    have hnone : undelimitedOf after = [] :=
      undelimitedOf_of_whole hwidth fun v hv => .inl (hafter v hv)
    have hbytes : bytesOf (before ++ w :: after) = bytesOf before ++ w.bytes := by
      rw [bytesOf_append, bytesOf_cons, bytesOf_of_none hafter, List.append_nil]
    have hcompleted : completed (before ++ w :: after) = completed before := by
      rw [completed_append, completed_cons_of_short hshort, completed_of_none hafter,
        List.append_nil]
    have hundelimited : undelimitedOf (before ++ w :: after) = undelimitedOf [w] := by
      rw [undelimitedOf_append, undelimitedOf_of_whole hwidth hbefore, List.nil_append,
        ← List.singleton_append, undelimitedOf_append, hnone, List.append_nil]
    rw [hbytes] at hroom
    rw [hbytes, decoded_of_whole hwidth hbefore hroom, decoded_bytes_of_short hwidth hshort,
      hcompleted, hundelimited]
    refine ⟨rfl, ?_⟩
    rw [undelimitedOf, List.length_map]
    exact List.length_filter_le _ [w]

/-! ## Runs over a store in memory -/

/-- An empty store in memory of which the listed appends fail. -/
def failingAppends (size : Nat) (failing : List Nat) : InterruptedStore (MemoryStore size) :=
  ⟨.empty, .ofFailing failing, .ofFailing [], .ofFailing []⟩

/-- A revocation stores as much as there is room for, or nothing. -/
theorem storedBy_memory (peer : Address width)
    (l : RevocationList width capacity (InterruptedStore (MemoryStore size))) :
    l.storedBy peer = 0 ∨
      l.storedBy peer = min (recordSize width) (size - l.store.store.contents.length) := by
  have happend : (∃ e, (RecordStore.append (record peer) l.store).1 = .error e) ∨
      (RecordStore.append (record peer) l.store).1 =
        .ok (min (record peer).length (size - l.store.store.contents.length)) := by
    cases hfails : l.store.appends.nextFails with
    | true =>
      simp only [RecordStore.append, hfails, if_true]
      exact .inl ⟨_, rfl⟩
    | false =>
      simp only [RecordStore.append, hfails, if_neg Bool.false_ne_true, MemoryStore.append]
      split
      · exact .inl ⟨_, rfl⟩
      · exact .inr rfl
  unfold storedBy
  split
  · rcases happend with ⟨e, herror⟩ | hok
    · rw [herror]
      exact .inl rfl
    · rw [hok, length_record]
      exact .inr rfl
  · exact .inl rfl

/-- What the ledger of such a run leaves open: that the writes fill up the store. -/
structure MemoryLedger (history : List (Event width))
    (l : RevocationList width capacity (InterruptedStore (MemoryStore size))) : Prop where
  ledger : Ledger (InterruptedStore.Holds fun s bytes => s.contents = bytes) history l
  fillsUp : FillsUp size (writes history)

theorem keepsBytes_failingAppends (size : Nat) :
    KeepsBytes (InterruptedStore (MemoryStore size))
      (InterruptedStore.Holds fun s bytes => s.contents = bytes) :=
  InterruptedStore.keepsBytes (MemoryStore.keepsBytes size)

theorem MemoryLedger.perform (hwidth : 0 < width) {history : List (Event width)}
    {l : RevocationList width capacity (InterruptedStore (MemoryStore size))}
    (h : MemoryLedger history l) (call : Call width) :
    MemoryLedger (history ++ [(l.perform call).1]) (l.perform call).2 := by
  refine ⟨h.ledger.perform (keepsBytes_failingAppends size) hwidth call, ?_⟩
  cases call with
  | revoke peer =>
    have hcontents : l.store.store.contents = bytesOf (writes history) := h.ledger.holds.1
    have hstored := l.storedBy_memory peer
    rw [hcontents] at hstored
    have hfits : (bytesOf (writes history)).length ≤ size :=
      hcontents ▸ l.store.store.length_contents_le
    rw [RevocationList.perform, writes_revoked]
    exact h.fillsUp.concat hfits peer hstored
  | clear =>
    rw [RevocationList.perform, writes_cleared]
    exact .whole (by simp [Whole])
  | load =>
    rw [RevocationList.perform, writes_loaded]
    exact h.fillsUp
  | restart =>
    rw [RevocationList.perform]
    dsimp only
    rw [writes_loaded]
    exact h.fillsUp

theorem MemoryLedger.run (hwidth : 0 < width) (calls : List (Call width))
    {history : List (Event width)}
    {l : RevocationList width capacity (InterruptedStore (MemoryStore size))}
    (h : MemoryLedger history l) : MemoryLedger (history ++ (run calls l).1) (run calls l).2 := by
  induction calls generalizing history l with
  | nil =>
    rw [RevocationList.run, List.append_nil]
    exact h
  | cons call calls ih =>
    have hrest := ih (h.perform hwidth call)
    rw [List.append_assoc] at hrest
    exact hrest

/-- An empty list that has been loaded from an empty store in memory. -/
def started (width capacity size : Nat) (failing : List Nat) :
    RevocationList width capacity (InterruptedStore (MemoryStore size)) :=
  (opened (failingAppends size failing)).2

theorem memoryLedger_started (hwidth : 0 < width) (capacity size : Nat) (failing : List Nat) :
    MemoryLedger [] (started width capacity size failing) := by
  have hempty : InterruptedStore.Holds (fun s bytes => s.contents = bytes)
      (failingAppends size failing) [] := ⟨rfl, rfl, rfl⟩
  obtain ⟨-, -, hholds, hpersistent⟩ :=
    opened_of_holds width capacity (keepsBytes_failingAppends size) hempty
  refine ⟨⟨hpersistent, hholds, ?_, by simp⟩, .whole (by simp [Whole, writes, sinceClear])⟩
  exact Nat.le_trans (Nat.le_of_eq (addressCount_of_short hwidth)) (Nat.zero_le _)

/-- Over a store in memory of any size, whatever appends fail on the way, a restart finds the
revocations acknowledged since the list was cleared, in order, and behind them at most one more
address: of a revocation that failed when all of its record but the delimiter was stored. -/
theorem restart_after_run (hwidth : 0 < width) (capacity size : Nat) (failing : List Nat)
    (calls : List (Call width)) :
    ∃ l : RevocationList width capacity (InterruptedStore (MemoryStore size)),
      opened (run calls (started width capacity size failing)).2.store = (.ok l.length, l) ∧
      l.entries.toList = acknowledged (run calls (started width capacity size failing)).1 ++
        undelimited (run calls (started width capacity size failing)).1 ∧
      (undelimited (run calls (started width capacity size failing)).1).length ≤ 1 := by
  have hrun := (memoryLedger_started hwidth capacity size failing).run hwidth calls
  rw [List.nil_append] at hrun
  obtain ⟨l, hopened, hentries⟩ := hrun.ledger.opened (keepsBytes_failingAppends size)
  have hroom := Nat.le_trans hrun.ledger.room (Bounded.length_le _)
  obtain ⟨hdecoded, hone⟩ := hrun.fillsUp.decoded_bytesOf hwidth hroom
  rw [acknowledged_eq hrun.ledger.coherent, undelimited_eq hwidth hrun.ledger.coherent]
  exact ⟨l, hopened, hentries.trans hdecoded, hone⟩

/-- The second append fails, and the third leaves out a delimiter. -/
def callsOverSeventeenBytes : List (Call 8) :=
  [.revoke (.repeated 1), .revoke (.repeated 2), .restart, .revoke (.repeated 3), .load,
    .revoke (.repeated 4)]

theorem restart_after_run_seventeenBytes :
    0 < 8 ∧
    acknowledged (run callsOverSeventeenBytes (started 8 4 17 [1])).1 = [.repeated 1] ∧
    undelimited (run callsOverSeventeenBytes (started 8 4 17 [1])).1 = [.repeated 3] ∧
    ∃ l : RevocationList 8 4 (InterruptedStore (MemoryStore 17)),
      opened (run callsOverSeventeenBytes (started 8 4 17 [1])).2.store = (.ok l.length, l) ∧
      l.entries.toList = acknowledged (run callsOverSeventeenBytes (started 8 4 17 [1])).1 ++
        undelimited (run callsOverSeventeenBytes (started 8 4 17 [1])).1 ∧
      (undelimited (run callsOverSeventeenBytes (started 8 4 17 [1])).1).length ≤ 1 :=
  ⟨by decide, by decide, by decide,
    restart_after_run (by decide) 4 17 [1] callsOverSeventeenBytes⟩

end RevocationList

end MeshSecurity
