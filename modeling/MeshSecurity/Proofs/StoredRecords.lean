import MeshSecurity.RevocationList.Run

/-!
# The records in a store

A store keeps its bytes if an append stores a part of its data from the front on or fails and
stores nothing, a read yields what is stored, and a removal takes everything. A list loaded from
such a store has the addresses that are read off its bytes at the multiples of the record size.
-/

namespace MeshSecurity

/-- The store keeps the bytes that `holds` says are in it. -/
structure KeepsBytes (τ : Type) [RecordStore τ] (holds : τ → List UInt8 → Prop) : Prop where
  append {store bytes} (h : holds store bytes) (data : List UInt8) :
    (∃ n ≤ data.length, (RecordStore.append data store).1 = .ok n ∧
      holds (RecordStore.append data store).2 (bytes ++ data.take n)) ∨
    ∃ e, (RecordStore.append data store).1 = .error e ∧
      holds (RecordStore.append data store).2 bytes
  read {store bytes} (h : holds store bytes) (offset n : Nat) :
    (RecordStore.read offset n store).1 = .ok ((bytes.drop offset).take n) ∧
      holds (RecordStore.read offset n store).2 bytes
  remove {store bytes} (h : holds store bytes) :
    (RecordStore.remove store).1 = .ok () ∧ holds (RecordStore.remove store).2 []

namespace RevocationList

variable {width capacity : Nat}

@[simp] theorem length_record (peer : Address width) :
    (record peer).length = recordSize width := by
  simp [record, recordSize]

theorem take_record (peer : Address width) : (record peer).take width = peer.toList :=
  List.take_left' (Address.length_toList peer)

/-! ## Reading addresses off bytes -/

/-- The addresses, at most `n`, that are read off bytes at the multiples of the record size. -/
def decoded (width : Nat) : Nat → List UInt8 → List (Address width)
  | 0, _ => []
  | n + 1, bytes =>
    match Address.ofBytes? width (bytes.take width) with
    | none => []
    | some peer => peer :: decoded width n (bytes.drop (recordSize width))

theorem decoded_succ {n : Nat} {bytes : List UInt8} {peer : Address width}
    (h : bytes.take width = peer.toList) :
    decoded width (n + 1) bytes = peer :: decoded width n (bytes.drop (recordSize width)) := by
  rw [decoded, Address.ofBytes?_eq_some_iff.mpr h.symm]

theorem decoded_of_short (n : Nat) {bytes : List UInt8} (h : bytes.length < width) :
    decoded width n bytes = [] := by
  cases n with
  | zero => rfl
  | succ n =>
    rw [decoded]
    split
    · rfl
    · rename_i peer hpeer
      have hlength := congrArg List.length (Address.ofBytes?_eq_some_iff.mp hpeer)
      rw [Address.length_toList, List.length_take] at hlength
      omega

/-- The address that begins bytes of at least its length. -/
theorem exists_address {bytes : List UInt8} (h : width ≤ bytes.length) :
    ∃ peer : Address width, bytes.take width = peer.toList := by
  have hsome : (Bytes.ofList? width (bytes.take width)).isSome := by
    rw [Bytes.ofList?_isSome_iff, List.length_take]
    omega
  obtain ⟨b, hb⟩ := Option.isSome_iff_exists.mp hsome
  exact ⟨⟨b⟩, (Bytes.ofList?_eq_some_iff.mp hb).symm⟩

theorem decoded_record_append (n : Nat) (peer : Address width) (bytes : List UInt8) :
    decoded width (n + 1) (record peer ++ bytes) = peer :: decoded width n bytes := by
  have htake : (record peer ++ bytes).take width = peer.toList := by
    rw [List.take_append_of_le_length (by simp [recordSize]), take_record]
  rw [decoded_succ htake, List.drop_left' (length_record peer)]

theorem mem_decoded_iff (hwidth : 0 < width) {n : Nat} {bytes : List UInt8}
    {peer : Address width} :
    peer ∈ decoded width n bytes ↔ ∃ j < n, j * recordSize width + width ≤ bytes.length ∧
      (bytes.drop (j * recordSize width)).take width = peer.toList := by
  induction n generalizing bytes with
  | zero => simp [decoded]
  | succ n ih =>
    by_cases hlength : width ≤ bytes.length
    · obtain ⟨first, hfirst⟩ := exists_address hlength
      rw [decoded_succ hfirst, List.mem_cons, ih]
      constructor
      · rintro (rfl | ⟨j, hj, hroom, htake⟩)
        · exact ⟨0, Nat.succ_pos n, by omega, by simpa using hfirst⟩
        · rw [List.length_drop] at hroom
          rw [List.drop_drop] at htake
          have hoffset : recordSize width + j * recordSize width =
              (j + 1) * recordSize width := by rw [Nat.succ_mul, Nat.add_comm]
          rw [hoffset] at htake
          exact ⟨j + 1, Nat.succ_lt_succ hj, by omega, htake⟩
      · rintro ⟨j, hj, hroom, htake⟩
        cases j with
        | zero =>
          left
          rw [Nat.zero_mul, List.drop_zero, hfirst] at htake
          exact (Address.toList_inj.mp htake).symm
        | succ j =>
          right
          have hoffset : recordSize width + j * recordSize width =
              (j + 1) * recordSize width := by rw [Nat.succ_mul, Nat.add_comm]
          refine ⟨j, Nat.lt_of_succ_lt_succ hj, ?_, ?_⟩
          · rw [List.length_drop]
            omega
          · rw [List.drop_drop, hoffset, htake]
    · rw [decoded_of_short _ (Nat.lt_of_not_le hlength)]
      constructor
      · intro h
        cases h
      · rintro ⟨j, -, hroom, -⟩
        omega

/-- How many addresses lie complete at the multiples of the record size. -/
def addressCount (width : Nat) (bytes : List UInt8) : Nat := (bytes.length + 1) / recordSize width

theorem addressCount_of_short {bytes : List UInt8} (h : bytes.length < width) :
    addressCount width bytes = 0 :=
  Nat.div_eq_of_lt (Nat.succ_lt_succ h)

theorem addressCount_drop (hwidth : 0 < width) {bytes : List UInt8} (h : width ≤ bytes.length) :
    addressCount width (bytes.drop (recordSize width)) + 1 = addressCount width bytes := by
  have hpos : 0 < recordSize width := Nat.succ_pos width
  rw [addressCount, addressCount, List.length_drop, ← Nat.add_div_right _ hpos]
  by_cases hrecord : recordSize width ≤ bytes.length
  · have hlength : bytes.length - recordSize width + 1 + recordSize width = bytes.length + 1 := by
      omega
    rw [hlength]
  · -- only the delimiter is missing
    have hlength : bytes.length + 1 = recordSize width := by
      change ¬ width + 1 ≤ bytes.length at hrecord
      change bytes.length + 1 = width + 1
      omega
    have hnone : bytes.length - recordSize width = 0 := by omega
    have hone : 1 < recordSize width := Nat.succ_lt_succ hwidth
    rw [hnone, hlength, Nat.add_div_right _ hpos, Nat.div_eq_of_lt hone, Nat.div_self hpos]

theorem length_decoded (hwidth : 0 < width) (n : Nat) (bytes : List UInt8) :
    (decoded width n bytes).length = min n (addressCount width bytes) := by
  induction n generalizing bytes with
  | zero => exact (Nat.zero_min _).symm
  | succ n ih =>
    by_cases hlength : width ≤ bytes.length
    · obtain ⟨peer, hpeer⟩ := exists_address hlength
      rw [decoded_succ hpeer, List.length_cons, ih, ← addressCount_drop hwidth hlength]
      omega
    · have hshort := Nat.lt_of_not_le hlength
      rw [decoded_of_short _ hshort, addressCount_of_short hshort]
      rfl

/-- Where there is room for all addresses, it does not matter how much. -/
theorem decoded_of_room (hwidth : 0 < width) {n : Nat} {bytes : List UInt8}
    (h : addressCount width bytes ≤ n) :
    decoded width n bytes = decoded width (addressCount width bytes) bytes := by
  induction n generalizing bytes with
  | zero => rw [Nat.le_zero.mp h]
  | succ n ih =>
    by_cases hlength : width ≤ bytes.length
    · obtain ⟨peer, hpeer⟩ := exists_address hlength
      rw [← addressCount_drop hwidth hlength] at h ⊢
      rw [decoded_succ hpeer, decoded_succ hpeer, ih (Nat.le_of_succ_le_succ h)]
    · have hshort := Nat.lt_of_not_le hlength
      rw [decoded_of_short _ hshort, decoded_of_short _ hshort]

/-! ## Loading -/

variable {τ : Type} [RecordStore τ] {holds : τ → List UInt8 → Prop}

theorem readRecords_of_holds (width : Nat) (hkeeps : KeepsBytes τ holds) (n i : Nat) {store : τ}
    {bytes : List UInt8} (h : holds store bytes) :
    (readRecords width n i store).1 = decoded width n (bytes.drop (i * recordSize width)) ∧
      (readRecords width n i store).2.1 = .ok () ∧
      holds (readRecords width n i store).2.2 bytes := by
  induction n generalizing i store with
  | zero => exact ⟨rfl, rfl, h⟩
  | succ n ih =>
    obtain ⟨hread, hafter⟩ := hkeeps.read h (i * recordSize width) (recordSize width)
    revert hread hafter
    rw [readRecords]
    generalize RecordStore.read (i * recordSize width) (recordSize width) store = outcome
    obtain ⟨result, store'⟩ := outcome
    intro hread hafter
    dsimp only at hread hafter
    subst hread
    have htake : ((bytes.drop (i * recordSize width)).take (recordSize width)).take width =
        (bytes.drop (i * recordSize width)).take width := by
      rw [List.take_take, Nat.min_eq_left (show width ≤ recordSize width from Nat.le_succ width)]
    dsimp only
    rw [htake, decoded]
    cases Address.ofBytes? width ((bytes.drop (i * recordSize width)).take width) with
    | none => exact ⟨rfl, rfl, hafter⟩
    | some peer =>
      obtain ⟨hpeers, hresult, hend⟩ := ih (i + 1) hafter
      refine ⟨?_, hresult, hend⟩
      rw [List.drop_drop, ← Nat.succ_mul]
      exact congrArg (peer :: ·) hpeers

theorem load_of_holds (hkeeps : KeepsBytes τ holds) {l : RevocationList width capacity τ}
    (hpersistent : l.persistent = true) {bytes : List UInt8} (h : holds l.store bytes) :
    l.load.1 = .ok l.load.2.entries.length ∧
      l.load.2.entries.toList = decoded width capacity bytes ∧
      holds l.load.2.store bytes ∧ l.load.2.persistent = true := by
  obtain ⟨hpeers, hresult, hend⟩ := readRecords_of_holds width hkeeps capacity 0 h
  rw [Nat.zero_mul, List.drop_zero] at hpeers
  rw [load, if_pos hpersistent]
  refine ⟨?_, hpeers, hend, hpersistent⟩
  dsimp only
  rw [hresult]
  rfl

theorem opened_of_holds (width capacity : Nat) (hkeeps : KeepsBytes τ holds) {store : τ}
    {bytes : List UInt8} (h : holds store bytes) :
    (opened store : Except Error Nat × RevocationList width capacity τ).1 =
        .ok (opened store : _ × RevocationList width capacity τ).2.entries.length ∧
      (opened store : _ × RevocationList width capacity τ).2.entries.toList =
        decoded width capacity bytes ∧
      holds (opened store : _ × RevocationList width capacity τ).2.store bytes ∧
      (opened store : _ × RevocationList width capacity τ).2.persistent = true :=
  load_of_holds (l := ofStore store true) hkeeps rfl h

end RevocationList

end MeshSecurity
