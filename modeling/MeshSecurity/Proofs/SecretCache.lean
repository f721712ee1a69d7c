import Mathlib.Data.Finset.Card
import MeshSecurity.Pairwise.Blom.Run

/-!
# Secrets that were computed before

A node keeps each secret that it was asked for, and answers from there when it is asked again. What
it keeps for a number is what it would compute for it, so its answers are those of a node that has
computed nothing yet, in any run of calls: the calls before one show in `cached` only, which counts
the numbers asked for so far.
-/

namespace MeshSecurity.Blom

variable {width lambda : Nat}

/-- The numbers below `lambda` that calls ask for. -/
def numbersAsked (numbering : PeerNumbering width) (lambda : Nat) (calls : List (Call width)) :
    Finset UInt16 :=
  ((calls.filterMap (Call.number? numbering lambda)).filter (·.toNat < lambda)).toFinset

/-- A node with the given row and numbering that keeps the secrets of the numbers asked for, and no
others. -/
structure Keeps (row : Vector UInt16 lambda) (numbering : PeerNumbering width)
    (asked : Finset UInt16) (b : Blom width lambda) : Prop where
  row : b.row = row
  numbering : b.numbering = numbering
  kept (j : UInt16) (hj : j.toNat < lambda) : b.cache.get ⟨j.toNat, hj⟩ =
    if j ∈ asked then some (secretOfValue (b.evaluate j)) else none
  cached : b.cached = asked.card

section Step

variable {row : Vector UInt16 lambda} {numbering : PeerNumbering width} {asked : Finset UInt16}
  {b : Blom width lambda}

theorem keeps_ofRow (row : Vector UInt16 lambda) (numbering : PeerNumbering width) :
    Keeps row numbering ∅ (ofRow row numbering) where
  row := rfl
  numbering := rfl
  kept j hj := by simp [ofRow, Vector.get]
  cached := by simp [cached, ofRow]

theorem Keeps.evaluate_eq (h : Keeps row numbering asked b) (j : UInt16) :
    b.evaluate j = (ofRow row numbering).evaluate j := by
  rw [evaluate, h.row]
  rfl

theorem cached_set_of_none {j : Nat} (hj : j < lambda) (hnone : b.cache.get ⟨j, hj⟩ = none)
    (secret : Bytes 2) :
    cached { b with cache := b.cache.set j (some secret) hj } = b.cached + 1 := by
  have hlength : j < b.cache.toList.length := by simpa using hj
  have hslot : b.cache.toList[j] = none := by
    rw [Vector.getElem_toList]
    exact hnone
  simp only [cached]
  rw [Vector.toList_set, List.countP_set hlength, hslot]
  rfl

theorem secretFor_of_le {j : UInt16} (hj : lambda ≤ j.toNat) (b : Blom width lambda) :
    b.secretFor j = (.error .invalidParameter, b) :=
  dif_neg (Nat.not_lt.mpr hj)

theorem Keeps.secretFor (h : Keeps row numbering asked b) {j : UInt16} (hj : j.toNat < lambda) :
    (b.secretFor j).1 = .ok (secretOfValue (b.evaluate j)) ∧
      Keeps row numbering (insert j asked) (b.secretFor j).2 := by
  have hkept := h.kept j hj
  unfold Blom.secretFor
  rw [dif_pos hj]
  by_cases hasked : j ∈ asked
  · -- asked before: the kept secret is handed out and nothing is written
    rw [if_pos hasked] at hkept
    rw [hkept, Finset.insert_eq_self.mpr hasked]
    exact ⟨rfl, h⟩
  · rw [if_neg hasked] at hkept
    rw [hkept]
    refine ⟨rfl, h.row, h.numbering, ?_, ?_⟩
    · intro k hk
      change (b.cache.set j.toNat (some (secretOfValue (b.evaluate j))) hj)[k.toNat] =
        if k ∈ insert j asked then some (secretOfValue (b.evaluate k)) else none
      rw [Vector.getElem_set]
      by_cases hkj : k = j
      · subst hkj
        rw [if_pos rfl, if_pos (Finset.mem_insert_self k asked)]
      · have hslots : j.toNat ≠ k.toNat := fun hsame => hkj (UInt16.toNat_inj.mp hsame).symm
        have hmem : k ∈ insert j asked ↔ k ∈ asked := by simp [hkj]
        simp only [if_neg hslots, hmem]
        exact h.kept k hk
    · rw [Finset.card_insert_of_notMem hasked, ← h.cached]
      exact cached_set_of_none hj hkept _

/-! ## Calls -/

theorem toList_secretOfValue (value : UInt32) :
    (secretOfValue value).toList = littleEndian 2 value.toNat := by
  have hhigh : (value >>> 8).toNat = value.toNat / 256 := by
    rw [UInt32.toNat_shiftRight]
    exact Nat.shiftRight_eq_div_pow value.toNat 8
  have hsecond : (value >>> 8).toUInt8 = (value.toNat / 256).toUInt8 := by
    rw [← hhigh]
    rfl
  simp only [secretOfValue, hsecond]
  rfl

theorem perform_of_number {call : Call width} {j : UInt16}
    (hnumber : call.number? b.numbering lambda = some j) :
    b.perform call = (.secret ((b.secretFor j).1.map Vector.toList), (b.secretFor j).2) := by
  cases call with
  | secretFor peer =>
    cases hnumber
    rfl
  | helloSecret sender =>
    cases hnumber
    rfl
  | ackSecret sender =>
    cases hnumber
    rfl
  | update peer secret => cases hnumber

theorem perform_of_noNumber {call : Call width}
    (hnumber : call.number? numbering lambda = none) (b : Blom width lambda) :
    b.perform call = (.updated (.error .notSupported), b) := by
  cases call with
  | secretFor peer => cases hnumber
  | helloSecret sender => cases hnumber
  | ackSecret sender => cases hnumber
  | update peer secret => rfl

theorem numbersAsked_of_noNumber {call : Call width}
    (hnumber : call.number? numbering lambda = none) :
    numbersAsked numbering lambda [call] = ∅ := by
  simp [numbersAsked, hnumber]

theorem numbersAsked_of_lt {call : Call width} {j : UInt16}
    (hnumber : call.number? numbering lambda = some j) (hj : j.toNat < lambda) :
    numbersAsked numbering lambda [call] = {j} := by
  simp [numbersAsked, hnumber, hj]

theorem numbersAsked_of_le {call : Call width} {j : UInt16}
    (hnumber : call.number? numbering lambda = some j) (hj : lambda ≤ j.toNat) :
    numbersAsked numbering lambda [call] = ∅ := by
  simp [numbersAsked, hnumber, hj]

theorem numbersAsked_cons (call : Call width) (calls : List (Call width)) :
    numbersAsked numbering lambda (call :: calls) =
      numbersAsked numbering lambda [call] ∪ numbersAsked numbering lambda calls := by
  rw [numbersAsked, numbersAsked, numbersAsked, ← List.toFinset_append, ← List.filter_append,
    ← List.filterMap_append, List.singleton_append]

theorem Keeps.perform_of_lt (h : Keeps row numbering asked b) {call : Call width} {j : UInt16}
    (hnumber : call.number? numbering lambda = some j) (hj : j.toNat < lambda) :
    (b.perform call).1 =
        .secret (.ok (littleEndian 2 ((ofRow row numbering).evaluate j).toNat)) ∧
      Keeps row numbering (insert j asked) (b.perform call).2 := by
  obtain ⟨hresult, hkeeps⟩ := h.secretFor hj
  rw [← h.numbering] at hnumber
  rw [perform_of_number hnumber, hresult, h.evaluate_eq, ← toList_secretOfValue]
  exact ⟨rfl, hkeeps⟩

theorem perform_of_le {call : Call width} {j : UInt16}
    (hnumber : call.number? b.numbering lambda = some j) (hj : lambda ≤ j.toNat) :
    b.perform call = (.secret (.error .invalidParameter), b) := by
  rw [perform_of_number hnumber, secretFor_of_le hj]
  rfl

/-- A call yields what it yields for a node that keeps nothing yet. -/
theorem Keeps.perform (h : Keeps row numbering asked b) (call : Call width) :
    (b.perform call).1 = ((ofRow row numbering).perform call).1 ∧
      Keeps row numbering (asked ∪ numbersAsked numbering lambda [call]) (b.perform call).2 := by
  cases hnumber : call.number? numbering lambda with
  | none =>
    rw [perform_of_noNumber hnumber, perform_of_noNumber hnumber,
      numbersAsked_of_noNumber hnumber, Finset.union_empty]
    exact ⟨rfl, h⟩
  | some j =>
    by_cases hj : j.toNat < lambda
    · obtain ⟨hanswer, hkeeps⟩ := h.perform_of_lt hnumber hj
      obtain ⟨hfresh, -⟩ := (keeps_ofRow row numbering).perform_of_lt hnumber hj
      rw [numbersAsked_of_lt hnumber hj, Finset.union_singleton]
      exact ⟨hanswer.trans hfresh.symm, hkeeps⟩
    · have hj' : lambda ≤ j.toNat := Nat.not_lt.mp hj
      have hnumber' : call.number? b.numbering lambda = some j := h.numbering ▸ hnumber
      rw [perform_of_le hnumber' hj', perform_of_le (b := ofRow row numbering) hnumber hj',
        numbersAsked_of_le hnumber hj', Finset.union_empty]
      exact ⟨rfl, h⟩

theorem Keeps.run (h : Keeps row numbering asked b) (calls : List (Call width)) :
    (run calls b).1 = calls.map (fun call => ((ofRow row numbering).perform call).1) ∧
      Keeps row numbering (asked ∪ numbersAsked numbering lambda calls) (run calls b).2 := by
  induction calls generalizing asked b with
  | nil =>
    refine ⟨rfl, ?_⟩
    change Keeps row numbering (asked ∪ ∅) b
    rw [Finset.union_empty]
    exact h
  | cons call calls ih =>
    obtain ⟨hanswer, hkeeps⟩ := h.perform call
    obtain ⟨hanswers, hkept⟩ := ih hkeeps
    rw [numbersAsked_cons, ← Finset.union_assoc, List.map_cons, ← hanswer, ← hanswers]
    exact ⟨rfl, hkept⟩

end Step

/-- The node with the given row once some calls were carried out. -/
def after (row : Vector UInt16 lambda) (numbering : PeerNumbering width)
    (calls : List (Call width)) : Blom width lambda :=
  (run calls (ofRow row numbering)).2

/-- The answers of any run are those of nodes that keep nothing yet. After it, as many secrets are
kept as different numbers below `lambda` were asked for, a call for such a number yields the two low
bytes of the value there, and every other call is refused and leaves the node as it is. -/
theorem cache_transparent (row : Vector UInt16 lambda) (numbering : PeerNumbering width)
    (calls : List (Call width)) :
    (run calls (ofRow row numbering)).1 =
        calls.map (fun call => ((ofRow row numbering).perform call).1) ∧
      (after row numbering calls).cached = (numbersAsked numbering lambda calls).card ∧
      ∀ call : Call width,
        (∀ j, call.number? numbering lambda = some j → j.toNat < lambda →
          ((after row numbering calls).perform call).1 =
            .secret (.ok (littleEndian 2 ((ofRow row numbering).evaluate j).toNat))) ∧
        (∀ j, call.number? numbering lambda = some j → lambda ≤ j.toNat →
          (after row numbering calls).perform call =
            (.secret (.error .invalidParameter), after row numbering calls)) ∧
        (call.number? numbering lambda = none →
          (after row numbering calls).perform call =
            (.updated (.error .notSupported), after row numbering calls)) := by
  obtain ⟨hanswers, hkeeps⟩ := (keeps_ofRow row numbering).run calls
  rw [Finset.empty_union] at hkeeps
  refine ⟨hanswers, hkeeps.cached, ?_⟩
  intro call
  refine ⟨?_, ?_, ?_⟩
  · intro j hnumber hj
    exact (hkeeps.perform_of_lt hnumber hj).1
  · intro j hnumber hj
    apply perform_of_le _ hj
    rw [after, hkeeps.numbering]
    exact hnumber
  · intro hnumber
    exact perform_of_noNumber hnumber _

/-- Calls of which three ask for number 4, two for number 3, one for a number that is too large, and
one for none. -/
def collidingCalls : List (Call 8) :=
  [.secretFor 4, .helloSecret (.repeated 0), .update (.repeated 1) [1, 2], .secretFor 7,
    .ackSecret (.repeated 0x77), .helloSecret (.repeated 0x5D), .secretFor 4]

def collidingNode : Blom 8 5 := after #v[9, 8, 7, 6, 5] .demonstration collidingCalls

/-- After these calls two secrets are kept, number 4 is answered from there, and calls for number 7
or for an update are refused. -/
theorem cache_transparent_collidingCalls :
    numbersAsked .demonstration 5 collidingCalls = {4, 3} ∧ collidingNode.cached = 2 ∧
      Call.number? .demonstration 5 (.helloSecret (.repeated 0) : Call 8) = some 4 ∧
      (4 : UInt16).toNat < 5 ∧
      (collidingNode.perform (.helloSecret (.repeated 0))).1 = .secret (.ok [0x19, 0x07]) ∧
      5 ≤ (7 : UInt16).toNat ∧
      collidingNode.perform (.secretFor 7) = (.secret (.error .invalidParameter), collidingNode) ∧
      collidingNode.perform (.update (.repeated 1) []) =
        (.updated (.error .notSupported), collidingNode) := by
  have hasked : numbersAsked .demonstration 5 collidingCalls = {4, 3} := by decide
  have hnumber : Call.number? .demonstration 5 (.helloSecret (.repeated 0) : Call 8) = some 4 := by
    decide
  have hsmall : (4 : UInt16).toNat < 5 := by decide
  have hlarge : 5 ≤ (7 : UInt16).toNat := by decide
  obtain ⟨-, hcached, hcalls⟩ :=
    cache_transparent #v[9, 8, 7, 6, 5] .demonstration collidingCalls
  rw [hasked] at hcached
  exact ⟨hasked, hcached, hnumber, hsmall, (hcalls _).1 4 hnumber hsmall, hlarge,
    (hcalls _).2.1 7 rfl hlarge, (hcalls _).2.2 rfl⟩

end MeshSecurity.Blom
