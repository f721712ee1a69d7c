import MeshSecurity.Proofs.NeighborRoster

/-!
# The neighbor table is a bounded map

A table that starts empty does on every sequence of calls what a finite map from addresses to
tentative and permanent parts does. Each call changes the slot of its own peer at most, so that
entries stay where they are.
-/

namespace MeshSecurity.NeighborTable

variable {width size : Nat} {σ : Type}

/-! ## The slot that an operation changes -/

/-- A slot that is for a peer and the map change: the slot is filled, its entry is replaced, or it
is emptied. -/
inductive SlotChange (peer : Address width) (r : Roster width) :
    Option (Neighbor width) → Option (Neighbor width) → Roster width → Prop
  | filled {parts : Parts} (hnew : peer ∉ r) :
      SlotChange peer r none (some (parts.entry peer)) (r.insert peer parts)
  | replaced {n : Neighbor width} {parts : Parts} (haddress : n.address = peer) :
      SlotChange peer r (some n) (some (parts.entry peer)) (r.insert peer parts)
  | emptied {n : Neighbor width} (haddress : n.address = peer) :
      SlotChange peer r (some n) none (r.erase peer)

/-- At most one slot of a table changes, and the map at the peer that it is for. -/
inductive Exchange (peer : Address width) (t t' : NeighborTable width size) (r r' : Roster width) :
    Prop
  | kept (hsame : t' = t) (hmap : r' = r)
  | changed {before after} {old new : Option (Neighbor width)}
      (hchange : SlotChange peer r old new r') (hslots : t.slots = before ++ old :: after)
      (hslots' : t'.slots = before ++ new :: after)

section Middle

variable {α : Type} {before after : List α} {a b : α} {i : Nat}

theorem getElem?_middle (before after : List α) (a : α) :
    (before ++ a :: after)[before.length]? = some a := by
  rw [List.getElem?_append_right (Nat.le_refl _), Nat.sub_self, List.getElem?_cons_zero]

theorem getElem?_middle_of_ne (h : i ≠ before.length) :
    (before ++ a :: after)[i]? = (before ++ b :: after)[i]? := by
  obtain hlt | hgt := Nat.lt_or_gt_of_ne h
  · rw [List.getElem?_append_left hlt, List.getElem?_append_left hlt]
  · obtain ⟨k, hk⟩ := Nat.exists_eq_add_of_lt hgt
    have hindex : i - before.length = k + 1 := by omega
    rw [List.getElem?_append_right hgt.le, List.getElem?_append_right hgt.le, hindex,
      List.getElem?_cons_succ, List.getElem?_cons_succ]

theorem getElem?_middle_iff {c : α} (ha : a ≠ c) (hb : b ≠ c) :
    (before ++ a :: after)[i]? = some c ↔ (before ++ b :: after)[i]? = some c := by
  by_cases hi : i = before.length
  · rw [hi, getElem?_middle, getElem?_middle, Option.some_inj, Option.some_inj]
    exact iff_of_false ha hb
  · rw [getElem?_middle_of_ne hi]

end Middle

namespace SlotChange

variable {peer : Address width} {r r' : Roster width} {old new : Option (Neighbor width)}
  {n : Neighbor width}

theorem mirrors {before after : List (Option (Neighbor width))} (h : SlotChange peer r old new r')
    (hmirrors : Mirrors (before ++ old :: after) r) : Mirrors (before ++ new :: after) r' := by
  cases h with
  | filled hnew => exact hmirrors.filled hnew
  | replaced haddress => exact hmirrors.replaced haddress.symm
  | emptied haddress =>
    rw [← haddress]
    exact hmirrors.emptied

theorem old_ne (h : SlotChange peer r old new r') (hn : n.address ≠ peer) : old ≠ some n := by
  rintro rfl
  cases h with
  | replaced haddress => exact hn haddress
  | emptied haddress => exact hn haddress

theorem new_ne (h : SlotChange peer r old new r') (hn : n.address ≠ peer) : new ≠ some n := by
  rintro rfl
  cases h with
  | filled => exact hn rfl
  | replaced => exact hn rfl

/-- A slot that had no entry gets one of a new address only. -/
theorem place (h : SlotChange peer r old (some n) r') :
    (∃ m, old = some m ∧ m.address = n.address) ∨ n.address ∉ r := by
  cases h with
  | filled hnew => exact .inr hnew
  | replaced haddress => exact .inl ⟨_, rfl, haddress⟩

end SlotChange

namespace Exchange

variable {peer : Address width} {t t' : NeighborTable width size} {r r' : Roster width}
  {n : Neighbor width}

theorem mirrors (h : Exchange peer t t' r r') (hmirrors : Mirrors t.slots r) :
    Mirrors t'.slots r' := by
  cases h with
  | kept hsame hmap => rwa [hsame, hmap]
  | changed hchange hslots hslots' =>
    rw [hslots] at hmirrors
    rw [hslots']
    exact hchange.mirrors hmirrors

/-- The entries of other peers are as before, in the slots where they were. -/
theorem others (h : Exchange peer t t' r r') (hn : n.address ≠ peer) (i : Nat) :
    t.slots[i]? = some (some n) ↔ t'.slots[i]? = some (some n) := by
  cases h with
  | kept hsame => rw [hsame]
  | changed hchange hslots hslots' =>
    rw [hslots, hslots']
    exact getElem?_middle_iff (hchange.old_ne hn) (hchange.new_ne hn)

/-- An entry afterwards is in the slot that held its address, unless that is new. -/
theorem place (h : Exchange peer t t' r r') {j : Nat} (hn : t'.slots[j]? = some (some n)) :
    (∃ m, t.slots[j]? = some (some m) ∧ m.address = n.address) ∨ n.address ∉ r := by
  cases h with
  | kept hsame =>
    rw [hsame] at hn
    exact .inl ⟨n, hn, rfl⟩
  | @changed before after old new hchange hslots hslots' =>
    rw [hslots'] at hn
    rw [hslots]
    by_cases hj : j = before.length
    · rw [hj, getElem?_middle] at hn
      cases hn
      rw [hj, getElem?_middle]
      exact hchange.place.imp_left fun ⟨m, hm, haddress⟩ => ⟨m, congrArg some hm, haddress⟩
    · rw [getElem?_middle_of_ne hj] at hn
      exact .inl ⟨n, hn, rfl⟩

end Exchange

/-! ## The operations -/

theorem isFull_iff (t : NeighborTable width size) : t.isFull = true ↔ t.length = size := by
  have hlength : t.length = t.slots.countP Option.isSome := List.length_filterMap_eq_countP
  rw [hlength, isFull, List.all_eq_true, ← List.countP_eq_length, t.length_slots]

/-- The first empty slot of a table that is not full takes an entry. -/
theorem exists_split_of_room {t : NeighborTable width size} (h : ¬ t.isFull = true)
    (entry : Neighbor width) :
    ∃ before after, t.slots = before ++ none :: after ∧
      (t.adjustSlot Option.isNone fun _ => some entry).slots = before ++ some entry :: after := by
  obtain ⟨slot, hfind⟩ : ∃ slot, t.slots.find? Option.isNone = some slot := by
    rw [← Option.isSome_iff_exists, List.find?_isSome]
    rw [isFull, List.all_eq_true] at h
    push Not at h
    obtain ⟨slot, hslot, hempty⟩ := h
    exact ⟨slot, hslot, by simpa using hempty⟩
  obtain ⟨hempty, before, after, hslots, hbefore⟩ := List.find?_eq_some_iff_append.mp hfind
  cases slot with
  | some n => cases hempty
  | none =>
    refine ⟨before, after, hslots, ?_⟩
    change adjustFirst Option.isNone (fun _ => some entry) t.slots = _
    rw [hslots]
    refine adjustFirst_append _ (fun slot hslot => ?_) rfl after
    rw [Bool.not_eq_true, ← Bool.not_eq_true']
    exact hbefore slot hslot

theorem exists_adjusted_of_lookup {t : NeighborTable width size} {peer : Address width}
    {n : Neighbor width} (h : t.lookup peer = some n)
    (f : Neighbor width → Option (Neighbor width)) :
    ∃ before after, t.slots = before ++ some n :: after ∧
      (t.adjust peer f).slots = before ++ f n :: after := by
  obtain ⟨before, after, hslots, hbefore⟩ := exists_split_of_lookup h
  exact ⟨before, after, hslots, slots_adjust_of_split f hslots hbefore (address_of_lookup h)⟩

theorem adjust_of_absent {t : NeighborTable width size} {peer : Address width}
    (h : t.lookup peer = none) (f : Neighbor width → Option (Neighbor width)) :
    t.adjust peer f = t := by
  have hslots := lookup_eq_none_iff.mp h
  suffices hadjusted : adjustFirst (holds peer) (·.bind f) t.slots = t.slots by
    obtain ⟨slots, hlength⟩ := t
    simp only [adjust, adjustSlot, hadjusted]
  generalize t.slots = slots at hslots ⊢
  induction slots with
  | nil => rfl
  | cons slot slots ih =>
    rw [List.forall_mem_cons] at hslots
    rw [adjustFirst, if_neg hslots.1, ih hslots.2]

namespace Mirrors

variable {t : NeighborTable width size} {r : Roster width}

theorem lookup_of_lookup (h : Mirrors t.slots r) {peer : Address width} {n : Neighbor width}
    (hlookup : t.lookup peer = some n) : r.lookup peer = some n.parts := by
  rw [← address_of_lookup hlookup, ← h.mem_entries_iff]
  exact List.mem_of_find?_eq_some hlookup

theorem insert (h : Mirrors t.slots r) (entry : Neighbor width) :
    (t.insert entry).1 = (r.put size entry.address entry.parts).1 ∧
      Exchange entry.address t (t.insert entry).2 r (r.put size entry.address entry.parts).2 := by
  unfold NeighborTable.insert
  cases hlookup : t.lookup entry.address with
  | some n =>
    have hmem : entry.address ∈ r := Finmap.mem_of_lookup_eq_some (h.lookup_of_lookup hlookup)
    obtain ⟨before, after, hslots, hslots'⟩ :=
      exists_adjusted_of_lookup hlookup fun _ => some entry
    rw [Roster.put_of_mem size hmem]
    exact ⟨rfl, .changed (.replaced (address_of_lookup hlookup)) hslots hslots'⟩
  | none =>
    have hnew := h.lookup_eq_none_iff.mp hlookup
    by_cases hfull : t.isFull = true
    · have hheld : r.keys.card = size := h.length_eq.symm.trans (t.isFull_iff.mp hfull)
      rw [Roster.put_of_full hnew hheld, Option.isSome_none, if_neg Bool.false_ne_true,
        if_pos hfull]
      exact ⟨rfl, .kept rfl rfl⟩
    · have hroom : r.keys.card ≠ size := fun hheld =>
        hfull (t.isFull_iff.mpr (h.length_eq.trans hheld))
      obtain ⟨before, after, hslots, hslots'⟩ := exists_split_of_room hfull entry
      rw [Roster.put_of_room hroom, Option.isSome_none, if_neg Bool.false_ne_true, if_neg hfull]
      exact ⟨rfl, .changed (.filled hnew) hslots hslots'⟩

theorem addTentative (h : Mirrors t.slots r) (peer : Address width) (now : Instant) :
    (t.addTentative peer now).1 = (r.addTentative size peer now).1 ∧
      Exchange peer t (t.addTentative peer now).2 r (r.addTentative size peer now).2 := by
  unfold NeighborTable.addTentative Roster.addTentative
  cases hlookup : t.lookup peer with
  | some n =>
    have hparts := h.lookup_of_lookup hlookup
    obtain ⟨before, after, hslots, hslots'⟩ :=
      exists_adjusted_of_lookup hlookup fun n => some { n with tentative := some ⟨now⟩ }
    rw [Roster.put_of_mem size (Finmap.mem_of_lookup_eq_some hparts), hparts]
    obtain rfl := address_of_lookup hlookup
    exact ⟨rfl, .changed (.replaced rfl) hslots hslots'⟩
  | none =>
    rw [Finmap.lookup_eq_none.mpr (h.lookup_eq_none_iff.mp hlookup)]
    exact h.insert ⟨peer, some ⟨now⟩, none⟩

theorem promote (h : Mirrors t.slots r) (peer : Address width) :
    (t.promote peer).1 = (r.promote peer).1 ∧
      Exchange peer t (t.promote peer).2 r (r.promote peer).2 := by
  unfold NeighborTable.promote Roster.promote
  rw [h.has_eq]
  by_cases hhas : r.has .tentative peer = true
  · rw [if_pos hhas, if_pos hhas]
    rw [← h.has_eq] at hhas
    cases hlookup : t.lookup peer with
    | none =>
      rw [hlookup] at hhas
      cases hhas
    | some n =>
      obtain ⟨before, after, hslots, hslots'⟩ := exists_adjusted_of_lookup hlookup
        fun n => some { n with tentative := none, permanent := some .fresh }
      obtain rfl := address_of_lookup hlookup
      exact ⟨rfl, .changed (.replaced rfl) hslots hslots'⟩
  · rw [if_neg hhas, if_neg hhas]
    exact ⟨rfl, .kept rfl rfl⟩

theorem remove (h : Mirrors t.slots r) (peer : Address width) (relation : Relation) :
    (t.remove peer relation).1 = (r.remove peer relation).1 ∧
      Exchange peer t (t.remove peer relation).2 r (r.remove peer relation).2 := by
  unfold NeighborTable.remove Roster.remove
  rw [h.has_eq]
  cases hlookup : t.lookup peer with
  | none =>
    have hparts := Finmap.lookup_eq_none.mpr (h.lookup_eq_none_iff.mp hlookup)
    rw [adjust_of_absent hlookup, Roster.has, hparts]
    exact ⟨rfl, .kept rfl rfl⟩
  | some n =>
    obtain ⟨before, after, hslots, hslots'⟩ := exists_adjusted_of_lookup hlookup fun n =>
      if (n.without relation).relation.isSome then some (n.without relation) else none
    rw [Roster.has, h.lookup_of_lookup hlookup]
    refine ⟨rfl, ?_⟩
    obtain rfl := address_of_lookup hlookup
    dsimp only at hslots' ⊢
    by_cases hrest : n.parts.without relation = .blank
    · rw [if_neg (by rw [n.relation_without_eq_none_iff.mpr hrest]; decide)] at hslots'
      rw [if_pos hrest]
      exact .changed (.emptied rfl) hslots hslots'
    · rw [if_pos (Option.isSome_iff_ne_none.mpr fun hnone =>
        hrest (n.relation_without_eq_none_iff.mp hnone)), n.without_eq] at hslots'
      rw [if_neg hrest]
      exact .changed (.replaced rfl) hslots hslots'

end Mirrors

/-! ## Visits -/

theorem Mirrors.visitSlots {before slots : List (Option (Neighbor width))} {r : Roster width}
    (h : Mirrors (before ++ slots) r) (f : Address width → Permanent → σ → Permanent × σ) (s : σ) :
    let order := ((slots.filterMap id).filter (·.has .permanent)).map (·.address)
    Mirrors (before ++ (MeshSecurity.visitSlots f slots s).1) (r.visit f order s).1 ∧
      (MeshSecurity.visitSlots f slots s).2 = (r.visit f order s).2 := by
  induction slots generalizing before r s with
  | nil => exact ⟨h, rfl⟩
  | cons slot slots ih =>
    cases slot with
    | none =>
      rw [List.append_cons] at h
      have hrest := ih h s
      rw [List.append_assoc] at hrest
      exact hrest
    | some n =>
      obtain ⟨address, tentative, permanent⟩ := n
      cases permanent with
      | none =>
        rw [List.append_cons] at h
        have hrest := ih h s
        rw [List.append_assoc] at hrest
        exact hrest
      | some sender =>
        have hparts : r.lookup address = some ⟨tentative, some sender⟩ :=
          (h.mem_iff ⟨address, tentative, some sender⟩).mp (mem_middle_iff.mpr (.inl rfl))
        let visited : Neighbor width := ⟨address, tentative, some (f address sender s).1⟩
        have hvisit : r.visitPeer f address s =
            (r.insert address visited.parts, (f address sender s).2) := by
          rw [Roster.visitPeer, hparts]
          rfl
        have hreplaced : Mirrors (before ++ some visited :: slots)
            (r.insert address visited.parts) := h.replaced rfl
        rw [List.append_cons] at hreplaced
        have hrest := ih hreplaced (f address sender s).2
        rw [List.append_assoc] at hrest
        simp only [MeshSecurity.visitSlots]
        change Mirrors _ (r.visit f (address :: _) s).1 ∧ _ = (r.visit f (address :: _) s).2
        rw [Roster.visit, hvisit]
        exact hrest

theorem Mirrors.visit {t : NeighborTable width size} {r : Roster width} (h : Mirrors t.slots r)
    (f : Address width → Permanent → σ → Permanent × σ) (s : σ) :
    (t.visitPermanent f s).2 = (r.visit f t.permanentPeers s).2 ∧
      Mirrors (t.visitPermanent f s).1.slots (r.visit f t.permanentPeers s).1 := by
  have hslots : Mirrors ([] ++ t.slots) r := h
  exact (hslots.visitSlots f s).symm

theorem map_address_visitSlots (f : Address width → Permanent → σ → Permanent × σ)
    (slots : List (Option (Neighbor width))) (s : σ) :
    (visitSlots f slots s).1.map (·.map (·.address)) = slots.map (·.map (·.address)) := by
  induction slots generalizing s with
  | nil => rfl
  | cons slot slots ih =>
    cases slot with
    | none => exact congrArg (List.cons none) (ih s)
    | some n =>
      obtain ⟨address, tentative, permanent⟩ := n
      cases permanent with
      | none => exact congrArg (List.cons (some address)) (ih s)
      | some sender => exact congrArg (List.cons (some address)) (ih (f address sender s).2)

theorem getElem?_visitSlots_of_none (f : Address width → Permanent → σ → Permanent × σ)
    {slots : List (Option (Neighbor width))} {n : Neighbor width} (hn : n.permanent = none)
    {i : Nat} (hslot : slots[i]? = some (some n)) (s : σ) :
    (visitSlots f slots s).1[i]? = some (some n) := by
  induction slots generalizing i s with
  | nil => cases hslot
  | cons slot slots ih =>
    cases i with
    | zero =>
      cases hslot
      simp only [visitSlots, hn]
      rfl
    | succ i =>
      rw [List.getElem?_cons_succ] at hslot
      cases slot with
      | none => exact ih hslot s
      | some m =>
        obtain ⟨address, tentative, permanent⟩ := m
        cases permanent with
        | none => exact ih hslot s
        | some sender => exact ih hslot (f address sender s).2

/-- A visit keeps the address of every slot. -/
theorem exists_of_visited {t : NeighborTable width size}
    (f : Address width → Permanent → σ → Permanent × σ) (s : σ) {j : Nat} {n' : Neighbor width}
    (hn' : (t.visitPermanent f s).1.slots[j]? = some (some n')) :
    ∃ n, t.slots[j]? = some (some n) ∧ n.address = n'.address := by
  have haddress : (t.slots.map (·.map (·.address)))[j]? = some (some n'.address) := by
    rw [← map_address_visitSlots f t.slots s, List.getElem?_map]
    exact congrArg (Option.map (Option.map (·.address))) hn'
  rw [List.getElem?_map, Option.map_eq_some_iff] at haddress
  obtain ⟨slot, hslot, haddress⟩ := haddress
  obtain ⟨n, rfl, hn⟩ := Option.map_eq_some_iff.mp haddress
  exact ⟨n, hslot, hn⟩

/-- A visit leaves the entries that are not permanent as they are. -/
theorem visited_of_not_permanent {t : NeighborTable width size} (h : t.Distinct)
    (f : Address width → Permanent → σ → Permanent × σ) (s : σ) {n : Neighbor width}
    (hn : n.address ∉ t.permanentPeers) (i : Nat) :
    t.slots[i]? = some (some n) ↔ (t.visitPermanent f s).1.slots[i]? = some (some n) := by
  have hkept : ∀ m : Neighbor width, m.address = n.address → t.slots[i]? = some (some m) →
      (t.visitPermanent f s).1.slots[i]? = some (some m) := by
    intro m haddress hm
    have hentry : m ∈ t.entries :=
      List.mem_filterMap.mpr ⟨some m, List.mem_of_getElem? hm, rfl⟩
    have hnone : m.permanent = none := by
      rw [← haddress, mem_permanentPeers_iff h, (lookup_eq_some_iff_mem h).mpr hentry] at hn
      exact Option.not_isSome_iff_eq_none.mp hn
    exact getElem?_visitSlots_of_none f hnone hm s
  constructor
  · exact hkept n rfl
  · intro hn'
    obtain ⟨m, hm, haddress⟩ := exists_of_visited f s hn'
    rw [hkept m haddress hm] at hn'
    cases hn'
    exact hm

/-! ## Calls and runs -/

theorem index_unique {t : NeighborTable width size} (h : t.Distinct) {i j : Nat}
    {n n' : Neighbor width} (hi : t.slots[i]? = some (some n)) (hj : t.slots[j]? = some (some n'))
    (haddress : n'.address = n.address) : j = i := by
  have hapart : t.slots.Pairwise fun a b =>
      ∀ n, a = some n → ∀ m, b = some m → n.address ≠ m.address := by
    rw [Distinct, List.Nodup, List.pairwise_map, entries, List.pairwise_filterMap] at h
    exact h
  obtain ⟨hi', hi⟩ := List.getElem?_eq_some_iff.mp hi
  obtain ⟨hj', hj⟩ := List.getElem?_eq_some_iff.mp hj
  have hearlier := List.pairwise_iff_getElem.mp hapart
  rcases Nat.lt_trichotomy j i with hlt | heq | hgt
  · exact absurd haddress (hearlier j i hj' hi' hlt n' hj n hi)
  · exact heq
  · exact absurd haddress.symm (hearlier i j hi' hj' hgt n hi n' hj)

theorem insert_error {t : NeighborTable width size} {entry : Neighbor width} {e : Error}
    (h : (t.insert entry).1 = .error e) : (t.insert entry).2 = t := by
  unfold insert at h ⊢
  split at h
  · cases h
  · rename_i hnew
    split at h
    · rename_i hfull
      rw [if_neg hnew, if_pos hfull]
    · cases h

theorem addTentative_error {t : NeighborTable width size} {peer : Address width} {now : Instant}
    {e : Error} (h : (t.addTentative peer now).1 = .error e) : (t.addTentative peer now).2 = t := by
  unfold addTentative at h ⊢
  split at h
  · cases h
  · rename_i hnew
    rw [if_neg hnew]
    exact insert_error h

theorem promote_error {t : NeighborTable width size} {peer : Address width} {e : Error}
    (h : (t.promote peer).1 = .error e) : (t.promote peer).2 = t := by
  unfold promote at h ⊢
  split at h
  · cases h
  · rename_i habsent
    rw [if_neg habsent]

theorem perform_error {t : NeighborTable width size} {op : Operation width σ} {e : Error}
    (h : (t.perform op).1 = .done (.error e)) : (t.perform op).2 = t := by
  cases op with
  | insert entry => exact insert_error (by injection h)
  | addTentative peer now => exact addTentative_error (by injection h)
  | promote peer => exact promote_error (by injection h)
  | remove peer relation => cases h
  | visit f s => cases h

/-- A call of a table that represents a map: the answer and the table afterwards are those of the
map, a refused call changes nothing, an entry that stays is in its slot, and the entry of an address
that the call does not concern is as it was. -/
structure Follows (op : Operation width σ) (t : NeighborTable width size) (r : Roster width) :
    Prop where
  answer : (t.perform op).1 = (r.perform size t.permanentPeers op).1
  represents : Represents (t.perform op).2 (r.perform size t.permanentPeers op).2
  refused : ∀ e, (t.perform op).1 = .done (.error e) ↔ r.Refuses size op e
  unchanged : ∀ e, (t.perform op).1 = .done (.error e) → (t.perform op).2 = t
  unmoved : ∀ (i j : Nat) (n n' : Neighbor width), t.slots[i]? = some (some n) →
    (t.perform op).2.slots[j]? = some (some n') → n'.address = n.address → j = i
  others : ∀ (i : Nat) (n : Neighbor width), ¬ op.Concerns t n.address →
    (t.slots[i]? = some (some n) ↔ (t.perform op).2.slots[i]? = some (some n))

namespace Mirrors

variable {t : NeighborTable width size} {r : Roster width}

theorem perform_exchange (h : Mirrors t.slots r) (order : List (Address width))
    {op : Operation width σ} (hop : ∀ f s, op ≠ .visit f s) :
    (t.perform op).1 = (r.perform size order op).1 ∧
      ∃ peer, op.Concerns t peer ∧
        Exchange peer t (t.perform op).2 r (r.perform size order op).2 := by
  cases op with
  | insert entry =>
    obtain ⟨hanswer, hexchange⟩ := h.insert entry
    exact ⟨congrArg Answer.done hanswer, entry.address, rfl, hexchange⟩
  | addTentative peer now =>
    obtain ⟨hanswer, hexchange⟩ := h.addTentative peer now
    exact ⟨congrArg Answer.done hanswer, peer, rfl, hexchange⟩
  | promote peer =>
    obtain ⟨hanswer, hexchange⟩ := h.promote peer
    exact ⟨congrArg Answer.done hanswer, peer, rfl, hexchange⟩
  | remove peer relation =>
    obtain ⟨hanswer, hexchange⟩ := h.remove peer relation
    exact ⟨congrArg Answer.removed hanswer, peer, rfl, hexchange⟩
  | visit f s => exact absurd rfl (hop f s)

theorem perform (h : Mirrors t.slots r) (op : Operation width σ) :
    (t.perform op).1 = (r.perform size t.permanentPeers op).1 ∧
      Mirrors (t.perform op).2.slots (r.perform size t.permanentPeers op).2 := by
  by_cases hvisit : ∃ f s, op = .visit f s
  · obtain ⟨f, s, rfl⟩ := hvisit
    obtain ⟨hstate, hmirrors⟩ := h.visit f s
    exact ⟨congrArg Answer.visited hstate, hmirrors⟩
  · obtain ⟨hanswer, peer, -, hexchange⟩ :=
      h.perform_exchange t.permanentPeers fun f s hop => hvisit ⟨f, s, hop⟩
    exact ⟨hanswer, hexchange.mirrors h⟩

theorem place (h : Mirrors t.slots r) (op : Operation width σ) {j : Nat} {n' : Neighbor width}
    (hn' : (t.perform op).2.slots[j]? = some (some n')) :
    (∃ n, t.slots[j]? = some (some n) ∧ n.address = n'.address) ∨ n'.address ∉ r := by
  by_cases hvisit : ∃ f s, op = .visit f s
  · obtain ⟨f, s, rfl⟩ := hvisit
    exact .inl (exists_of_visited f s hn')
  · obtain ⟨-, peer, -, hexchange⟩ :=
      h.perform_exchange t.permanentPeers fun f s hop => hvisit ⟨f, s, hop⟩
    exact hexchange.place hn'

theorem follows (h : Mirrors t.slots r) (op : Operation width σ) : Follows op t r where
  answer := (h.perform op).1
  represents := (h.perform op).2.represents
  refused e := by rw [(h.perform op).1, Roster.perform_error_iff]
  unchanged _ herror := perform_error herror
  unmoved i j n n' hn hn' haddress := by
    obtain ⟨m, hm, hsame⟩ | hnew := h.place op hn'
    · exact index_unique h.nodup hn hm (hsame.trans haddress)
    · have hmem := (h.mem_iff n).mp (List.mem_of_getElem? hn)
      rw [haddress] at hnew
      exact absurd (Finmap.mem_of_lookup_eq_some hmem) hnew
  others i n hother := by
    by_cases hvisit : ∃ f s, op = .visit f s
    · obtain ⟨f, s, rfl⟩ := hvisit
      exact visited_of_not_permanent h.nodup f s hother i
    · obtain ⟨-, peer, hpeer, hexchange⟩ :=
        h.perform_exchange t.permanentPeers fun f s hop => hvisit ⟨f, s, hop⟩
      refine hexchange.others (fun haddress => hother ?_) i
      rwa [haddress]

theorem run (h : Mirrors t.slots r) (ops : List (Operation width σ)) :
    ∃ r', r.Runs size ops (t.run ops).1 r' ∧ Mirrors (t.run ops).2.slots r' := by
  induction ops generalizing t r with
  | nil => exact ⟨r, .nil, h⟩
  | cons op ops ih =>
    obtain ⟨hanswer, hmirrors⟩ := h.perform op
    obtain ⟨r', hruns, hrest⟩ := ih hmirrors
    refine ⟨r', ?_, hrest⟩
    change r.Runs size (op :: ops) ((t.perform op).1 :: _) r'
    rw [hanswer]
    exact .cons h.represents.visited hruns

end Mirrors

theorem mirrors_empty : Mirrors (empty : NeighborTable width size).slots ∅ := by
  have hslot : ∀ n : Neighbor width, some n ∉ (empty : NeighborTable width size).slots :=
    fun n hn => by cases List.eq_of_mem_replicate hn
  refine ⟨?_, fun n => ?_⟩
  · rw [empty, List.filterMap_replicate_of_none rfl]
    exact List.nodup_nil
  · rw [Finmap.lookup_empty]
    exact iff_of_false (hslot n) fun hnone => by cases hnone

/-- A neighbor table is a bounded finite map, whatever its capacity. Every sequence of calls on an
empty one is answered as the map would answer it, with its visits in some order, and leaves a table
that represents the map; and every further call follows the map. -/
theorem neighbor_table_is_map (ops : List (Operation width σ)) :
    ∃ r, Roster.Runs size ∅ ops (run ops (empty : NeighborTable width size)).1 r ∧
      Represents (run ops (empty : NeighborTable width size)).2 r ∧
      ∀ op : Operation width σ, Follows op (run ops (empty : NeighborTable width size)).2 r := by
  obtain ⟨r, hruns, hmirrors⟩ := mirrors_empty.run ops
  exact ⟨r, hruns, hmirrors.represents, hmirrors.follows⟩

/-- Two neighbors, the first of them heard after a visit that counts the permanent ones. -/
def twoNeighbors : List (Operation 8 Nat) :=
  [.addTentative (.repeated 1) ⟨5⟩, .promote (.repeated 1), .addTentative (.repeated 2) ⟨6⟩,
    .addTentative (.repeated 1) ⟨7⟩, .visit (fun _ _ visits => (⟨true⟩, visits + 1)) 0,
    .remove (.repeated 1) .tentative]

theorem neighbor_table_is_map_twoNeighbors :
    ∃ r : Roster 8, Represents (run twoNeighbors (empty : NeighborTable 8 2)).2 r ∧
      r.keys.card = 2 ∧ r.lookup (.repeated 1) = some ⟨none, some ⟨true⟩⟩ ∧
      r.Refuses 2 (.addTentative (.repeated 3) ⟨8⟩ : Operation 8 Nat) .capacityExceeded ∧
      ¬ r.Refuses 2 (.addTentative (.repeated 2) ⟨8⟩ : Operation 8 Nat) .capacityExceeded := by
  obtain ⟨r, -, hrepresents, hfollows⟩ := @neighbor_table_is_map 8 2 Nat twoNeighbors
  refine ⟨r, hrepresents, hrepresents.length.symm, ?_, ?_, ?_⟩
  · exact (hrepresents.entries ⟨.repeated 1, none, some ⟨true⟩⟩).mp (by decide)
  · exact ((hfollows (.addTentative (.repeated 3) ⟨8⟩)).refused _).mp rfl
  · intro hrefused
    cases ((hfollows (.addTentative (.repeated 2) ⟨8⟩)).refused _).mpr hrefused

end MeshSecurity.NeighborTable
