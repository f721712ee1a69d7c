import Mathlib.Data.List.Basic
import Mathlib.Data.List.Induction
import MeshSecurity.Journal.Run

/-!
# The journal holds the newest records

The `i`-th record since the last clear is written into the slot with the number `i`, counted around
the ring, and stays there until as many records have followed as there are slots. So from the place
after the newest record, or from the first slot while there is room, the slots hold the newest
records in order.
-/

namespace MeshSecurity.Journal

/-! ## The records of a sequence of calls -/

variable {calls : List Call}

theorem thresholdAfter_append (calls : List Call) (call : Call) :
    thresholdAfter (calls ++ [call]) = call.threshold?.getD (thresholdAfter calls) := by
  rw [thresholdAfter, List.filterMap_append]
  cases call <;> simp [Call.threshold?, thresholdAfter]

theorem kept?_append_of_lt (call : Call) {i : Nat} (hi : i < calls.length) :
    kept? (calls ++ [call]) i = if call = .clear then none else kept? calls i := by
  have htake : (calls ++ [call]).take i = calls.take i :=
    List.take_append_of_le_length (Nat.le_of_lt hi)
  have hdrop : (calls ++ [call]).drop (i + 1) = calls.drop (i + 1) ++ [call] :=
    List.drop_append_of_le_length hi
  rw [kept?, htake, hdrop, List.getElem?_append_left hi]
  split
  · rename_i hclear
    subst hclear
    simp
  · rename_i hclear
    simp [kept?, Ne.symm hclear]

theorem kept?_append_length (calls : List Call) (call : Call) :
    kept? (calls ++ [call]) calls.length =
      call.record?.filter fun entry => (thresholdAfter calls).atLeast entry.level := by
  simp [kept?]

/-- A call drops all records if it is a clear, and adds its own if the level is enabled. -/
theorem recorded_append (calls : List Call) (call : Call) :
    recorded (calls ++ [call]) = (if call = .clear then [] else recorded calls) ++
      (call.record?.filter fun entry => (thresholdAfter calls).atLeast entry.level).toList := by
  have hbefore : (List.range calls.length).filterMap (kept? (calls ++ [call])) =
      if call = .clear then [] else recorded calls := by
    rw [List.filterMap_congr fun i hi => kept?_append_of_lt call (List.mem_range.mp hi)]
    split
    · exact List.filterMap_eq_nil_iff.mpr fun _ _ => rfl
    · rfl
  rw [recorded, List.length_append, List.length_singleton, List.range_succ,
    List.filterMap_append, hbefore, ← kept?_append_length]
  rfl

/-! ## The slots of the ring -/

theorem slot_congr (j : Journal) {i k : Nat} (h : i % 32 = k % 32) : j.slot i = j.slot k := by
  simp only [slot, h]

theorem filterMap_getElem?_range {α : Type} (l : List α) (n : Nat) :
    ((List.range n).filterMap fun i => l[i]?) = l.take n := by
  induction n with
  | zero => rfl
  | succ n ih =>
    rw [List.range_succ, List.filterMap_append, ih, List.take_add_one]
    rfl

/-- The journal holds the newest of the records. -/
structure Holds (j : Journal) (records : List Entry) : Prop where
  held : j.held = min records.length 32
  next : j.next = records.length % 32
  overwritten : j.overwritten.toNat = min (records.length - 32) 4294967295
  slot {i : Nat} (hi : i < records.length) (hnew : records.length ≤ i + 32) :
    j.slot i = records[i]?

theorem holds_clear (j : Journal) : Holds j.clear [] := by
  refine ⟨rfl, rfl, rfl, ?_⟩
  intro i hi
  exact absurd hi (Nat.not_lt_zero i)

namespace Holds

variable {j : Journal} {records : List Entry}

theorem setThreshold (h : Holds j records) (level : Level) :
    Holds (j.setThreshold level) records :=
  ⟨h.held, h.next, h.overwritten, h.slot⟩

theorem push (h : Holds j records) (e : Entry) : Holds (j.push e) (records ++ [e]) := by
  have hheld := h.held
  have hover := h.overwritten
  have hnext := h.next
  have hfull : j.held = capacity ↔ 32 ≤ records.length := by
    rw [hheld]
    change min records.length 32 = 32 ↔ _
    omega
  refine ⟨?_, ?_, ?_, ?_⟩ <;> rw [List.length_append, List.length_singleton]
  · change (if j.held = capacity then j.held else j.held + 1) = _
    simp only [hfull]
    split <;> omega
  · change (j.next + 1) % 32 = _
    omega
  · change (if j.held = capacity then Saturating.succ32 j.overwritten else j.overwritten).toNat = _
    simp only [hfull]
    split
    · rw [Saturating.toNat_succ32]
      omega
    · omega
  · intro i hi hnew
    rw [slot_push, hnext]
    by_cases hlast : i = records.length
    · subst hlast
      rw [if_pos (Nat.mod_mod _ 32), List.getElem?_concat_length]
    · have hother : records.length % 32 % 32 ≠ i % 32 := by omega
      rw [if_neg hother, h.slot (by omega) (by omega), List.getElem?_append_left (by omega)]

/-- From the place of the oldest record on, the slots hold the newest records. -/
theorem entries_eq (h : Holds j records) : j.entries = records.drop (records.length - 32) := by
  have hheld := h.held
  have hnext := h.next
  have hslots : ∀ i ∈ List.range j.held,
      j.slot ((if j.held < capacity then 0 else j.next) + i) =
        (records.drop (records.length - 32))[i]? := by
    intro i hi
    have hi' := List.mem_range.mp hi
    have hplace : ((if j.held < capacity then 0 else j.next) + i) % 32 =
        (records.length - 32 + i) % 32 := by
      change ((if j.held < 32 then 0 else j.next) + i) % 32 = _
      split <;> omega
    rw [slot_congr j hplace, h.slot (by omega) (by omega), List.getElem?_drop]
  rw [entries, List.filterMap_congr hslots, filterMap_getElem?_range, hheld]
  apply List.take_of_length_le
  rw [List.length_drop]
  omega

theorem length_entries (h : Holds j records) : j.entries.length = min records.length 32 := by
  rw [h.entries_eq, List.length_drop]
  omega

theorem last_eq (h : Holds j records) : j.last = records.getLast? := by
  have hheld := h.held
  have hnext := h.next
  rw [last]
  split
  · have hnone : records = [] := List.eq_nil_of_length_eq_zero (by omega)
    rw [hnone]
    rfl
  · have hplace : (j.next + capacity - 1) % 32 = (records.length - 1) % 32 := by
      change (j.next + 32 - 1) % 32 = _
      omega
    rw [slot_congr j hplace, h.slot (by omega) (by omega), List.getLast?_eq_getElem?]

end Holds

/-! ## Runs -/

/-- The journal is what the calls have made of a new one. -/
structure Follows (j : Journal) (calls : List Call) : Prop where
  holds : Holds j (recorded calls)
  threshold : j.threshold = thresholdAfter calls

theorem follows_empty : Follows empty [] := ⟨holds_clear empty, rfl⟩

theorem Follows.perform {j : Journal} (h : Follows j calls) (call : Call) :
    Follows (j.perform call) (calls ++ [call]) := by
  constructor
  · rw [recorded_append]
    cases call with
    | write level now component parts =>
      rw [if_neg (by simp), Call.record?, ← h.threshold, Option.filter_some]
      change Holds (if j.threshold.atLeast level then j.push _ else j) _
      by_cases henabled : j.threshold.atLeast level
      · rw [if_pos henabled, if_pos henabled]
        exact h.holds.push _
      · rw [if_neg henabled, if_neg henabled, Option.toList_none, List.append_nil]
        exact h.holds
    | clear => exact holds_clear j
    | setThreshold level =>
      have hrecord : (Call.setThreshold level).record? = none := rfl
      rw [if_neg (by simp), hrecord, Option.filter_none, Option.toList_none, List.append_nil]
      exact h.holds.setThreshold level
  · rw [thresholdAfter_append, ← h.threshold]
    cases call with
    | write level now component parts =>
      change (if j.threshold.atLeast level then j.push _ else j).threshold = j.threshold
      split <;> rfl
    | clear => rfl
    | setThreshold level => rfl

theorem follows_run (calls : List Call) : Follows (run calls empty) calls := by
  induction calls using List.reverseRecOn with
  | nil => exact follows_empty
  | append_singleton calls call ih =>
    rw [run, List.foldl_append]
    exact ih.perform call

/-- Whatever is written, cleared and set, a journal holds the newest of the records, oldest first:
those written at a level that was enabled at the time, since the last clear. It tells their number,
the newest of them, those of a severity, and how many records it holds no more, as far as a word
counts. -/
theorem newest_records_kept (calls : List Call) :
    (run calls empty).entries <:+ recorded calls ∧
      (run calls empty).entries.length = min (recorded calls).length capacity ∧
      (run calls empty).held = (run calls empty).entries.length ∧
      (run calls empty).last = (recorded calls).getLast? ∧
      (∀ bound, (run calls empty).atLeast bound =
        (run calls empty).entries.filter fun e => e.level.rank ≤ bound.rank) ∧
      (run calls empty).overwritten.toNat =
        min ((recorded calls).length - (run calls empty).entries.length) 4294967295 := by
  have hholds := (follows_run calls).holds
  have hlength := hholds.length_entries
  refine ⟨?_, hlength, hholds.held.trans hlength.symm, hholds.last_eq, fun _ => rfl, ?_⟩
  · rw [hholds.entries_eq]
    exact List.drop_suffix _ _
  · have hover := hholds.overwritten
    omega

/-- The three oldest of 35 records have made room. -/
example :
    ((run ((List.range 35).map fun i => .write .info ⟨i.toUInt64⟩ "test" []) empty).entries.map
      fun e => e.time.ticks.toNat) = List.range' 3 32 := by
  decide +kernel

end MeshSecurity.Journal
