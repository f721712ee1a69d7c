import MeshSecurity.NeighborTable

/-!
# Looking up a neighbor after a change of the table

A change of one neighbor's entry is invisible to a look-up of any other address, whatever the
slots hold.
-/

namespace MeshSecurity

/-- The entry without the note that the neighbor was heard. -/
def Neighbor.unheard {width : Nat} (n : Neighbor width) : Neighbor width :=
  { n with permanent := n.permanent.map fun _ => ⟨false⟩ }

namespace NeighborTable

variable {width size : Nat}

/-- An adjusted slot of `peer` holds the address of `peer` or nothing. -/
theorem find?_adjustFirst_of_ne {peer other : Address width} (hne : other ≠ peer)
    {f : Neighbor width → Option (Neighbor width)}
    (hf : ∀ n n', f n = some n' → n'.address = n.address)
    (slots : List (Option (Neighbor width))) :
    ((adjustFirst (holds peer) (·.bind f) slots).filterMap id).find? (·.address == other) =
      (slots.filterMap id).find? (·.address == other) := by
  induction slots with
  | nil => rfl
  | cons slot slots ih =>
    by_cases hslot : holds peer slot = true
    · rw [adjustFirst, if_pos hslot]
      cases slot with
      | none => rfl
      | some n =>
        have hn : n.address = peer := by simpa [holds] using hslot
        have hold : (n.address == other) = false := by
          rw [beq_eq_false_iff_ne, hn]
          exact hne.symm
        cases hfn : f n with
        | none => simp [hfn, hold]
        | some n' =>
          have hnew : (n'.address == other) = false := by rw [hf n n' hfn, hold]
          simp [hfn, hold, hnew]
    · rw [adjustFirst, if_neg hslot]
      cases slot with
      | none => simpa using ih
      | some n => simp only [List.filterMap_cons_some (show id (some n) = some n from rfl),
          List.find?_cons, ih]

theorem lookup_adjust_of_ne {peer other : Address width} (hne : other ≠ peer)
    {f : Neighbor width → Option (Neighbor width)}
    (hf : ∀ n n', f n = some n' → n'.address = n.address) (t : NeighborTable width size) :
    (t.adjust peer f).lookup other = t.lookup other :=
  find?_adjustFirst_of_ne hne hf t.slots

theorem lookup_remove_of_ne {peer other : Address width} (hne : other ≠ peer) (r : Relation)
    (t : NeighborTable width size) : (t.remove peer r).2.lookup other = t.lookup other := by
  apply lookup_adjust_of_ne hne
  intro n n' h
  dsimp only at h
  split at h
  · cases h
    cases r <;> rfl
  · cases h

theorem entries_adjust (peer : Address width) (g : Neighbor width → Neighbor width)
    (t : NeighborTable width size) :
    (t.adjust peer fun n => some (g n)).entries =
      adjustFirst (fun n => n.address == peer) g t.entries := by
  unfold entries adjust adjustSlot
  dsimp only
  induction t.slots with
  | nil => rfl
  | cons slot slots ih =>
    cases slot with
    | none => simpa [adjustFirst, holds] using ih
    | some n =>
      by_cases hn : n.address = peer
      · simp [adjustFirst, holds, hn]
      · simpa [adjustFirst, holds, hn] using ih

theorem find?_adjustFirst_self {α : Type} {p : α → Bool} {g : α → α}
    (hg : ∀ a, p (g a) = p a) (l : List α) : (adjustFirst p g l).find? p = (l.find? p).map g := by
  induction l with
  | nil => rfl
  | cons a l ih =>
    by_cases ha : p a = true
    · simp [adjustFirst, ha, hg]
    · simp [adjustFirst, ha, ih]

theorem lookup_adjust_self (peer : Address width) {g : Neighbor width → Neighbor width}
    (hg : ∀ n, (g n).address = n.address) (t : NeighborTable width size) :
    (t.adjust peer fun n => some (g n)).lookup peer = (t.lookup peer).map g := by
  rw [lookup, entries_adjust]
  exact find?_adjustFirst_self (fun n => by rw [hg]) t.entries

theorem mem_permanentPeers_of_lookup {peer : Address width} {t : NeighborTable width size}
    {n : Neighbor width} (h : t.lookup peer = some n) (hpermanent : n.permanent.isSome = true) :
    peer ∈ t.permanentPeers := by
  have haddress : n.address = peer := by simpa using List.find?_some h
  rw [permanentPeers, List.mem_map]
  exact ⟨n, List.mem_filter.mpr ⟨List.mem_of_find?_eq_some h, hpermanent⟩, haddress⟩

/-- Where the entry of a peer stays permanent or not permanent, so do all. -/
theorem permanentPeers_adjust {peer : Address width} {g : Neighbor width → Neighbor width}
    (hg : ∀ n, (g n).address = n.address) {t : NeighborTable width size}
    (hpermanent : ∀ n, t.lookup peer = some n → (g n).has .permanent = n.has .permanent) :
    (t.adjust peer fun n => some (g n)).permanentPeers = t.permanentPeers := by
  rw [permanentPeers, entries_adjust]
  unfold lookup at hpermanent
  unfold permanentPeers
  generalize t.entries = entries at hpermanent ⊢
  induction entries with
  | nil => rfl
  | cons n entries ih =>
    by_cases hn : n.address = peer
    · have hsame := hpermanent n (by simp [hn])
      by_cases hhas : n.has .permanent = true
      · simp [adjustFirst, hn, hsame, hhas, hg]
      · simp [adjustFirst, hn, hsame, hhas]
    · have hrest := ih fun m hm => hpermanent m (by simpa [hn] using hm)
      by_cases hhas : n.has .permanent = true
      · simp [adjustFirst, hn, hhas, hrest]
      · simp [adjustFirst, hn, hhas, hrest]

theorem entries_clearHeard (t : NeighborTable width size) :
    t.clearHeard.entries = t.entries.map Neighbor.unheard := by
  unfold entries clearHeard visitPermanent
  dsimp only
  induction t.slots with
  | nil => rfl
  | cons slot slots ih =>
    cases slot with
    | none => simpa [visitSlots] using ih
    | some n =>
      obtain ⟨address, tentative, permanent⟩ := n
      cases permanent with
      | none => simpa [visitSlots, Neighbor.unheard] using ih
      | some sender => simpa [visitSlots, Neighbor.unheard] using ih

theorem lookup_clearHeard (peer : Address width) (t : NeighborTable width size) :
    t.clearHeard.lookup peer = (t.lookup peer).map Neighbor.unheard := by
  rw [lookup, entries_clearHeard, List.find?_map]
  rfl

theorem permanentPeers_clearHeard (t : NeighborTable width size) :
    t.clearHeard.permanentPeers = t.permanentPeers := by
  rw [permanentPeers, entries_clearHeard, List.filter_map, List.map_map]
  have hhas : (fun n : Neighbor width => n.has .permanent) ∘ Neighbor.unheard =
      fun n => n.has .permanent := by
    funext n
    simp [Neighbor.has, Neighbor.unheard]
  rw [hhas]
  rfl

theorem address_of_lookup {peer : Address width} {t : NeighborTable width size}
    {n : Neighbor width} (h : t.lookup peer = some n) : n.address = peer := by
  simpa using List.find?_some h

end NeighborTable

end MeshSecurity
