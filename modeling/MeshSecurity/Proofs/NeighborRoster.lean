import MeshSecurity.NeighborTable.Roster
import MeshSecurity.Proofs.NeighborSlots

/-!
# Slots that hold a roster

Slots hold a finite map where each of its entries is in one slot. Whatever a neighbor table with
such slots is asked is answered from the map.
-/

namespace MeshSecurity

variable {width size : Nat} {σ : Type}

namespace Neighbor

theorem ext_parts {n n' : Neighbor width} (haddress : n.address = n'.address)
    (hparts : n.parts = n'.parts) : n = n' := by
  obtain ⟨address, tentative, permanent⟩ := n
  obtain ⟨address', tentative', permanent'⟩ := n'
  cases haddress
  cases hparts
  rfl

theorem relation_without_eq_none_iff (n : Neighbor width) {relation : Relation} :
    (n.without relation).relation = none ↔ n.parts.without relation = .blank := by
  obtain ⟨address, tentative, permanent⟩ := n
  cases relation <;> cases tentative <;> cases permanent <;>
    simp [without, Neighbor.relation, parts, Parts.without, Parts.blank]

theorem without_eq (n : Neighbor width) (relation : Relation) :
    n.without relation = (n.parts.without relation).entry n.address := by
  cases relation <;> rfl

end Neighbor

/-! ## Operations on a roster -/

namespace Roster

open NeighborTable

theorem insert_erase_self (r : Roster width) (peer : Address width) (parts : Parts) :
    (r.erase peer).insert peer parts = r.insert peer parts := by
  apply Finmap.ext_lookup
  intro other
  by_cases hother : other = peer
  · rw [hother, Finmap.lookup_insert, Finmap.lookup_insert]
  · rw [Finmap.lookup_insert_of_ne _ hother, Finmap.lookup_insert_of_ne _ hother,
      Finmap.lookup_erase_ne hother]

variable {r : Roster width} {peer : Address width}

theorem put_of_mem (size : Nat) (h : peer ∈ r) (parts : Parts) :
    r.put size peer parts = (.ok (), r.insert peer parts) :=
  if_neg fun hfull => hfull.1 h

theorem put_of_room {size : Nat} (h : r.keys.card ≠ size) (parts : Parts) :
    r.put size peer parts = (.ok (), r.insert peer parts) :=
  if_neg fun hfull => h hfull.2

theorem put_of_full {size : Nat} (hnew : peer ∉ r) (hheld : r.keys.card = size) (parts : Parts) :
    r.put size peer parts = (.error .capacityExceeded, r) :=
  if_pos ⟨hnew, hheld⟩

variable {e : Error}

theorem put_error_iff {peer : Address width} {parts : Parts} :
    (r.put size peer parts).1 = .error e ↔
      e = .capacityExceeded ∧ peer ∉ r ∧ r.keys.card = size := by
  by_cases hfull : peer ∉ r ∧ r.keys.card = size
  · rw [put_of_full hfull.1 hfull.2, and_iff_left hfull, Except.error.injEq, eq_comm]
  · have hput : r.put size peer parts = (.ok (), r.insert peer parts) := if_neg hfull
    rw [hput]
    exact iff_of_false (fun herror => by cases herror) fun h => hfull h.2

theorem promote_error_iff {peer : Address width} :
    (r.promote peer).1 = .error e ↔ e = .peerNotFound ∧ ¬ r.has .tentative peer = true := by
  unfold Roster.promote
  by_cases hhas : r.has .tentative peer = true
  · rw [if_pos hhas]
    exact iff_of_false (fun herror => by cases herror) fun h => h.2 hhas
  · rw [if_neg hhas, and_iff_left hhas, Except.error.injEq, eq_comm]

theorem refuses_iff_of_entered {op : Operation width σ} {peer : Address width}
    (hentered : op.entered? = some peer) :
    r.Refuses size op e ↔ e = .capacityExceeded ∧ peer ∉ r ∧ r.keys.card = size := by
  constructor
  · intro h
    cases h with
    | full hentered' hnew hheld =>
      cases hentered.symm.trans hentered'
      exact ⟨rfl, hnew, hheld⟩
    | notFound => cases hentered
  · rintro ⟨rfl, hnew, hheld⟩
    exact .full hentered hnew hheld

theorem refuses_promote_iff {peer : Address width} :
    r.Refuses size (.promote peer : Operation width σ) e ↔
      e = .peerNotFound ∧ ¬ r.has .tentative peer = true := by
  constructor
  · intro h
    cases h with
    | full hentered => cases hentered
    | notFound habsent => exact ⟨rfl, habsent⟩
  · rintro ⟨rfl, habsent⟩
    exact .notFound habsent

theorem not_refuses {op : Operation width σ} (hentered : op.entered? = none)
    (hpromote : ∀ peer, op ≠ .promote peer) : ¬ r.Refuses size op e := by
  intro h
  cases h with
  | full hentered' => cases hentered.symm.trans hentered'
  | notFound => exact hpromote _ rfl

theorem perform_error_iff {order : List (Address width)} {op : Operation width σ} :
    (r.perform size order op).1 = .done (.error e) ↔ r.Refuses size op e := by
  have hdone : ∀ {result : Except Error Unit},
      (Answer.done result : Answer σ) = .done (.error e) ↔ result = .error e :=
    Iff.of_eq (Answer.done.injEq _ _)
  cases op with
  | insert entry => exact hdone.trans (put_error_iff.trans (refuses_iff_of_entered rfl).symm)
  | addTentative peer now =>
    exact hdone.trans (put_error_iff.trans (refuses_iff_of_entered rfl).symm)
  | promote peer => exact hdone.trans (promote_error_iff.trans refuses_promote_iff.symm)
  | remove peer relation =>
    exact iff_of_false (fun h => by cases h) (not_refuses rfl fun _ h => by cases h)
  | visit f s => exact iff_of_false (fun h => by cases h) (not_refuses rfl fun _ h => by cases h)

end Roster

namespace NeighborTable

/-! ## Slots and the map -/

/-- Slots that hold the entries of a roster, each of them once. -/
structure Mirrors (slots : List (Option (Neighbor width))) (r : Roster width) : Prop where
  nodup : ((slots.filterMap id).map (·.address)).Nodup
  mem_iff : ∀ n, some n ∈ slots ↔ r.lookup n.address = some n.parts

theorem filterMap_middle_none (before after : List (Option (Neighbor width))) :
    (before ++ none :: after).filterMap id = (before ++ after).filterMap id := by
  rw [List.filterMap_append, List.filterMap_append, List.filterMap_cons_none rfl]

theorem nodup_middle_iff {before after : List (Option (Neighbor width))} {n : Neighbor width} :
    (((before ++ some n :: after).filterMap id).map (·.address)).Nodup ↔
      (∀ m, some m ∈ before ++ after → m.address ≠ n.address) ∧
        (((before ++ after).filterMap id).map (·.address)).Nodup := by
  have hmem : n.address ∈ ((before ++ after).filterMap id).map (·.address) ↔
      ∃ m, some m ∈ before ++ after ∧ m.address = n.address := by
    simp only [List.mem_map, List.mem_filterMap, id_eq, exists_eq_right]
  rw [List.filterMap_append, List.filterMap_cons_some (show id (some n) = some n from rfl),
    List.map_append, List.map_cons, List.nodup_middle, ← List.map_append,
    ← List.filterMap_append, List.nodup_cons, hmem, not_exists]
  simp only [not_and]

theorem mem_middle_iff {before after : List (Option (Neighbor width))}
    {slot : Option (Neighbor width)} {m : Neighbor width} :
    some m ∈ before ++ slot :: after ↔ some m = slot ∨ some m ∈ before ++ after := by
  simp only [List.mem_append, List.mem_cons]
  exact or_left_comm

namespace Mirrors

variable {before after : List (Option (Neighbor width))} {n n' : Neighbor width}
  {r : Roster width}

theorem emptied (h : Mirrors (before ++ some n :: after) r) :
    Mirrors (before ++ none :: after) (r.erase n.address) := by
  obtain ⟨hothers, hnodup⟩ := nodup_middle_iff.mp h.nodup
  refine ⟨by rwa [filterMap_middle_none], fun m => ?_⟩
  by_cases hm : m.address = n.address
  · rw [hm, Finmap.lookup_erase]
    refine iff_of_false (fun hmem => ?_) (fun hfound => by cases hfound)
    obtain hnone | hrest := mem_middle_iff.mp hmem
    · cases hnone
    · exact hothers m hrest hm
  · rw [Finmap.lookup_erase_ne hm, ← h.mem_iff, mem_middle_iff, mem_middle_iff]
    have hne : ¬ some m = some n := fun heq => hm (by rw [Option.some.inj heq])
    rw [or_iff_right (fun hnone => by cases hnone), or_iff_right hne]

theorem filled (h : Mirrors (before ++ none :: after) r) (hnew : n.address ∉ r) :
    Mirrors (before ++ some n :: after) (r.insert n.address n.parts) := by
  have hothers : ∀ m, some m ∈ before ++ after → m.address ≠ n.address := by
    intro m hm haddress
    have hlookup := (h.mem_iff m).mp (mem_middle_iff.mpr (.inr hm))
    rw [haddress] at hlookup
    exact hnew (Finmap.mem_of_lookup_eq_some hlookup)
  refine ⟨nodup_middle_iff.mpr ⟨hothers, ?_⟩, fun m => ?_⟩
  · rw [← filterMap_middle_none]
    exact h.nodup
  · rw [mem_middle_iff]
    by_cases hm : m.address = n.address
    · rw [hm, Finmap.lookup_insert, or_iff_left (fun hrest => hothers m hrest hm),
        Option.some_inj, Option.some_inj]
      constructor
      · rintro rfl
        rfl
      · exact fun hparts => Neighbor.ext_parts hm hparts.symm
    · have hne : ¬ some m = some n := fun heq => hm (by rw [Option.some.inj heq])
      rw [Finmap.lookup_insert_of_ne _ hm, ← h.mem_iff, mem_middle_iff, or_iff_right hne,
        or_iff_right (fun hnone => by cases hnone)]

theorem replaced (h : Mirrors (before ++ some n :: after) r) (haddress : n'.address = n.address) :
    Mirrors (before ++ some n' :: after) (r.insert n'.address n'.parts) := by
  have hfilled := h.emptied.filled (n := n') (by rw [haddress]; exact Finmap.notMem_erase_self)
  rwa [← haddress, Roster.insert_erase_self] at hfilled

end Mirrors

/-! ## What a table shows of the map -/

/-- Whatever can be asked of a table is answered as from the map. -/
structure Represents (t : NeighborTable width size) (r : Roster width) : Prop where
  distinct : t.Distinct
  lookup : ∀ peer, t.lookup peer = (r.lookup peer).map (·.entry peer)
  entries : ∀ n, n ∈ t.entries ↔ r.lookup n.address = some n.parts
  length : t.length = r.keys.card
  count : ∀ relation,
    t.count relation = (r.keys.filter fun peer => r.has relation peer = true).card
  visited : Roster.IsVisitingOrder t.permanentPeers r

theorem length_eq_card {l : List (Neighbor width)} {peers : Finset (Address width)}
    (hl : (l.map (·.address)).Nodup) (hpeers : ∀ peer, peer ∈ peers ↔ ∃ n ∈ l, n.address = peer) :
    l.length = peers.card := by
  have hset : peers = (l.map (·.address)).toFinset := by
    ext peer
    rw [hpeers, List.mem_toFinset, List.mem_map]
  rw [hset, List.toFinset_card_of_nodup hl, List.length_map]

namespace Mirrors

variable {t : NeighborTable width size} {r : Roster width}

theorem mem_entries_iff (h : Mirrors t.slots r) (n : Neighbor width) :
    n ∈ t.entries ↔ r.lookup n.address = some n.parts := by
  rw [← h.mem_iff, NeighborTable.entries, List.mem_filterMap]
  simp only [id_eq, exists_eq_right]

theorem lookup_eq (h : Mirrors t.slots r) (peer : Address width) :
    t.lookup peer = (r.lookup peer).map (·.entry peer) := by
  cases hparts : r.lookup peer with
  | some parts =>
    have hentry : parts.entry peer ∈ t.entries := (h.mem_entries_iff _).mpr hparts
    exact (NeighborTable.lookup_eq_some_iff_mem h.nodup).mpr hentry
  | none =>
    cases hlookup : t.lookup peer with
    | none => rfl
    | some n =>
      have hentry := (h.mem_entries_iff n).mp (List.mem_of_find?_eq_some hlookup)
      rw [NeighborTable.address_of_lookup hlookup, hparts] at hentry
      cases hentry

theorem has_eq (h : Mirrors t.slots r) (relation : Relation) (peer : Address width) :
    (t.lookup peer).any (·.has relation) = r.has relation peer := by
  rw [h.lookup_eq, Option.any_map]
  cases relation <;> rfl

theorem lookup_eq_none_iff (h : Mirrors t.slots r) {peer : Address width} :
    t.lookup peer = none ↔ peer ∉ r := by
  rw [h.lookup_eq, Option.map_eq_none_iff, Finmap.lookup_eq_none]

theorem length_eq (h : Mirrors t.slots r) : t.length = r.keys.card := by
  apply length_eq_card h.nodup
  intro peer
  rw [Finmap.mem_keys, Finmap.mem_iff]
  constructor
  · rintro ⟨parts, hparts⟩
    exact ⟨parts.entry peer, (h.mem_entries_iff _).mpr hparts, rfl⟩
  · rintro ⟨n, hn, rfl⟩
    exact ⟨n.parts, (h.mem_entries_iff n).mp hn⟩

theorem count_eq (h : Mirrors t.slots r) (relation : Relation) :
    t.count relation = (r.keys.filter fun peer => r.has relation peer = true).card := by
  rw [NeighborTable.count, List.countP_eq_length_filter]
  apply length_eq_card (h.nodup.sublist (List.filter_sublist.map _))
  intro peer
  rw [Finset.mem_filter, Finmap.mem_keys, Finmap.mem_iff]
  constructor
  · rintro ⟨⟨parts, hparts⟩, hhas⟩
    have hentry : parts.entry peer ∈ t.entries := (h.mem_entries_iff _).mpr hparts
    rw [Roster.has, hparts] at hhas
    refine ⟨_, List.mem_filter.mpr ⟨hentry, ?_⟩, rfl⟩
    cases relation <;> exact hhas
  · rintro ⟨n, hn, rfl⟩
    obtain ⟨hentry, hhas⟩ := List.mem_filter.mp hn
    have hparts := (h.mem_entries_iff n).mp hentry
    refine ⟨⟨n.parts, hparts⟩, ?_⟩
    rw [Roster.has, hparts]
    cases relation <;> exact hhas

theorem represents (h : Mirrors t.slots r) : Represents t r where
  distinct := h.nodup
  lookup := h.lookup_eq
  entries := h.mem_entries_iff
  length := h.length_eq
  count := h.count_eq
  visited := ⟨NeighborTable.nodup_permanentPeers h.nodup, fun peer => by
    rw [NeighborTable.mem_permanentPeers_iff h.nodup, h.has_eq]⟩

end Mirrors

end NeighborTable

end MeshSecurity
