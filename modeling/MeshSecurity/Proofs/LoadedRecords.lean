import MeshSecurity.Proofs.Durability

/-!
# Loading whatever is stored

A list can be loaded from any bytes. It has then the slices that lie where the addresses of records
would, as far as they are complete and there is room for them. No delimiter is looked at, so one may
be another byte, and at the end of the bytes it may be missing.
-/

namespace MeshSecurity

theorem MemoryStore.contents_inj {size : Nat} {s t : MemoryStore size} :
    s.contents = t.contents ↔ s = t := by
  obtain ⟨bytes⟩ := s
  obtain ⟨bytes'⟩ := t
  rw [contents, contents, Bounded.toList_inj, MemoryStore.mk.injEq]

namespace RevocationList

variable {width capacity size : Nat}

/-- The bytes that lie where the address of record `i` would. -/
def addressSlice (width : Nat) (bytes : List UInt8) (i : Nat) : List UInt8 :=
  bytes.extract (i * recordSize width) (i * recordSize width + width)

theorem addressSlice_eq (width : Nat) (bytes : List UInt8) (i : Nat) :
    addressSlice width bytes i = (bytes.drop (i * recordSize width)).take width := by
  rw [addressSlice, List.extract_eq_take_drop, Nat.add_sub_cancel_left]

theorem addressSlice_drop (width : Nat) (bytes : List UInt8) (i : Nat) :
    addressSlice width (bytes.drop (recordSize width)) i = addressSlice width bytes (i + 1) := by
  have hoffset : recordSize width + i * recordSize width = (i + 1) * recordSize width := by
    rw [Nat.succ_mul, Nat.add_comm]
  rw [addressSlice_eq, addressSlice_eq, List.drop_drop, hoffset]

theorem map_toList_decoded (hwidth : 0 < width) (n : Nat) (bytes : List UInt8) :
    (decoded width n bytes).map Address.toList =
      (List.range (min n (addressCount width bytes))).map (addressSlice width bytes) := by
  induction n generalizing bytes with
  | zero => simp [decoded]
  | succ n ih =>
    by_cases hlength : width ≤ bytes.length
    · obtain ⟨peer, hpeer⟩ := exists_address hlength
      have hfirst : addressSlice width bytes 0 = peer.toList := by
        rw [addressSlice_eq, Nat.zero_mul, List.drop_zero, hpeer]
      have hcount : min (n + 1) (addressCount width bytes) =
          min n (addressCount width (bytes.drop (recordSize width))) + 1 := by
        have hdrop := addressCount_drop hwidth hlength
        omega
      rw [decoded_succ hpeer, List.map_cons, ih, hcount, List.range_succ_eq_map, List.map_cons,
        List.map_map, hfirst]
      congr 1
      apply List.map_congr_left
      intro i _
      exact addressSlice_drop width bytes i
    · have hshort := Nat.lt_of_not_le hlength
      rw [decoded_of_short _ hshort, addressCount_of_short hshort]
      simp

/-! ## The last record -/

section Tail

variable {whole tail : List UInt8}

theorem addressCount_append (hwhole : recordSize width ∣ whole.length)
    (htail : tail.length ≤ width) :
    addressCount width (whole ++ tail) =
      whole.length / recordSize width + if tail.length = width then 1 else 0 := by
  have hpos : 0 < recordSize width := Nat.succ_pos width
  obtain ⟨q, hq⟩ := hwhole
  rw [addressCount, List.length_append, hq, Nat.add_assoc, Nat.mul_add_div hpos,
    Nat.mul_div_cancel_left q hpos]
  congr 1
  by_cases hwhole : tail.length = width
  · rw [if_pos hwhole, hwhole]
    exact Nat.div_self hpos
  · rw [if_neg hwhole]
    apply Nat.div_eq_of_lt
    rw [recordSize]
    omega

theorem addressSlice_append_of_lt {i : Nat} (hi : i < whole.length / recordSize width) :
    addressSlice width (whole ++ tail) i = addressSlice width whole i := by
  have hpos : 0 < recordSize width := Nat.succ_pos width
  have hend : i * recordSize width + recordSize width ≤ whole.length := by
    rw [← Nat.succ_mul]
    exact (Nat.le_div_iff_mul_le hpos).mp hi
  have hroom : width ≤ (whole.drop (i * recordSize width)).length := by
    rw [List.length_drop]
    rw [recordSize] at hend ⊢
    omega
  rw [addressSlice_eq, addressSlice_eq, List.drop_append_of_le_length (by omega),
    List.take_append_of_le_length hroom]

theorem addressSlice_append_last (hwhole : recordSize width ∣ whole.length)
    (htail : tail.length = width) :
    addressSlice width (whole ++ tail) (whole.length / recordSize width) = tail := by
  rw [addressSlice_eq, Nat.div_mul_cancel hwhole, List.drop_left, ← htail, List.take_length]

theorem map_addressSlice_append {n : Nat} (hn : n ≤ whole.length / recordSize width) :
    (List.range n).map (addressSlice width (whole ++ tail)) =
      (List.range n).map (addressSlice width whole) := by
  apply List.map_congr_left
  intro i hi
  exact addressSlice_append_of_lt (Nat.lt_of_lt_of_le (List.mem_range.mp hi) hn)

/-- A record at the end that lacks only its delimiter is read, if there is room for it. -/
theorem map_toList_decoded_undelimited (hwidth : 0 < width) {n : Nat}
    (hwhole : recordSize width ∣ whole.length) (htail : tail.length = width)
    (hroom : whole.length / recordSize width < n) :
    (decoded width n (whole ++ tail)).map Address.toList =
      (List.range (whole.length / recordSize width)).map (addressSlice width whole) ++ [tail] := by
  have hcount := addressCount_append hwhole (Nat.le_of_eq htail)
  rw [if_pos htail] at hcount
  rw [map_toList_decoded hwidth, hcount, Nat.min_eq_right hroom, List.range_succ, List.map_append,
    List.map_singleton, map_addressSlice_append (Nat.le_refl _),
    addressSlice_append_last hwhole htail]

/-- What is left of a record without a complete address is not read. -/
theorem map_toList_decoded_incomplete (hwidth : 0 < width) (n : Nat)
    (hwhole : recordSize width ∣ whole.length) (htail : tail.length < width) :
    (decoded width n (whole ++ tail)).map Address.toList =
      (List.range (min n (whole.length / recordSize width))).map (addressSlice width whole) := by
  have hcount := addressCount_append hwhole (Nat.le_of_lt htail)
  rw [if_neg (Nat.ne_of_lt htail), Nat.add_zero] at hcount
  rw [map_toList_decoded hwidth, hcount, map_addressSlice_append (Nat.min_le_right _ _)]

end Tail

/-! ## The loaded list -/

/-- What is loaded does not depend on what was listed before. -/
theorem load_congr {τ : Type} [RecordStore τ] {l l' : RevocationList width capacity τ}
    (hstore : l'.store = l.store) (hpersistent : l'.persistent = l.persistent) :
    l'.load = l.load := by
  obtain ⟨entries, store, persistent⟩ := l
  obtain ⟨entries', store', persistent'⟩ := l'
  dsimp only at hstore hpersistent
  subst hstore hpersistent
  rfl

/-- A persistent list loads from any bytes the slices at the multiples of the record size, and
leaves the store alone. Loading once more changes nothing. A record at the end that has no delimiter
is loaded if there is room for it, and one whose address is not complete might as well be
missing. -/
theorem load_any_bytes (hwidth : 0 < width)
    {l : RevocationList width capacity (MemoryStore size)} (hpersistent : l.persistent = true) :
    let bytes := l.store.contents
    let count := min capacity ((bytes.length + 1) / recordSize width)
    l.load.1 = .ok count ∧
    l.load.2.entries.toList.map Address.toList =
      (List.range count).map (addressSlice width bytes) ∧
    l.load.2.store = l.store ∧
    l.load.2.load = l.load ∧
    ∀ whole tail : List UInt8, bytes = whole ++ tail → recordSize width ∣ whole.length →
      (tail.length = width → whole.length / recordSize width < capacity →
        l.load.2.entries.toList.map Address.toList =
          (List.range (whole.length / recordSize width)).map (addressSlice width whole) ++
            [tail]) ∧
      (tail.length < width →
        l.load.2.entries.toList.map Address.toList =
          (List.range (min capacity (whole.length / recordSize width))).map
            (addressSlice width whole)) := by
  intro bytes count
  obtain ⟨hresult, hentries, hcontents, hpersistent'⟩ :=
    load_of_holds (MemoryStore.keepsBytes size) hpersistent rfl
  have hstore : l.load.2.store = l.store := MemoryStore.contents_inj.mp hcontents
  have hlength : l.load.2.entries.length = count := by
    rw [Bounded.length, hentries]
    exact length_decoded hwidth capacity bytes
  rw [hentries]
  refine ⟨hlength ▸ hresult, map_toList_decoded hwidth capacity bytes, hstore,
    load_congr hstore (hpersistent'.trans hpersistent.symm), ?_⟩
  intro whole tail hbytes hwhole
  change l.store.contents = whole ++ tail at hbytes
  rw [hbytes]
  exact ⟨map_toList_decoded_undelimited hwidth hwhole,
    map_toList_decoded_incomplete hwidth capacity hwhole⟩

/-- Three records of two-byte addresses: the second one has another byte for its delimiter, and the
third one has none. -/
def strayDelimiters : List UInt8 := [1, 2, 10, 3, 4, 99, 5, 6]

def listOverStray : RevocationList 2 4 (MemoryStore 16) :=
  ⟨⟨[.repeated 7], by decide⟩, ⟨⟨strayDelimiters, by decide⟩⟩, true⟩

theorem load_any_bytes_strayDelimiters :
    0 < 2 ∧ listOverStray.persistent = true ∧
    listOverStray.load.1 = .ok 3 ∧
    listOverStray.load.2.entries.toList.map Address.toList = [[1, 2], [3, 4], [5, 6]] ∧
    listOverStray.load.2.load = listOverStray.load := by
  obtain ⟨hresult, hentries, -, hagain, -⟩ :=
    load_any_bytes (show 0 < 2 by decide) (show listOverStray.persistent = true from rfl)
  exact ⟨by decide, rfl, hresult, hentries, hagain⟩

end RevocationList

end MeshSecurity
