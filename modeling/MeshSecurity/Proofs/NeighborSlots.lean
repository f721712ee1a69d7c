import Mathlib.Data.List.Nodup
import MeshSecurity.Proofs.NeighborLookup

/-!
# The slot of a neighbor

Where no address is held twice, the entry of a peer is its slot: to empty it takes the peer from
the table and leaves all other slots alone.
-/

namespace MeshSecurity

variable {width size : Nat}

namespace NeighborTable

/-- No two slots hold entries of one address. -/
def Distinct (t : NeighborTable width size) : Prop := (t.entries.map (·.address)).Nodup

instance (t : NeighborTable width size) : Decidable t.Distinct :=
  inferInstanceAs (Decidable (t.entries.map (·.address)).Nodup)

/-- The slots without the entries of a peer. -/
def vacated (peer : Address width) (slots : List (Option (Neighbor width))) :
    List (Option (Neighbor width)) :=
  slots.map fun slot => if holds peer slot then none else slot

theorem holds_some {peer : Address width} {n : Neighbor width} :
    holds peer (some n) = true ↔ n.address = peer := by
  rw [holds, Option.any_some, beq_iff_eq]

theorem vacated_of_not_holds {peer : Address width} {slots : List (Option (Neighbor width))}
    (h : ∀ slot ∈ slots, ¬ holds peer slot = true) : vacated peer slots = slots := by
  rw [vacated, List.map_congr_left fun slot hslot => if_neg (h slot hslot)]
  exact List.map_id slots

theorem lookup_eq (peer : Address width) (t : NeighborTable width size) :
    t.lookup peer = (t.slots.find? (holds peer)).bind id :=
  List.find?_filterMap

theorem lookup_eq_some_iff {peer : Address width} {entry : Neighbor width}
    {t : NeighborTable width size} :
    t.lookup peer = some entry ↔ t.slots.find? (holds peer) = some (some entry) := by
  rw [lookup_eq, Option.bind_eq_some_iff]
  constructor
  · rintro ⟨slot, hfind, rfl⟩
    exact hfind
  · intro hfind
    exact ⟨some entry, hfind, rfl⟩

theorem lookup_eq_none_iff {peer : Address width} {t : NeighborTable width size} :
    t.lookup peer = none ↔ ∀ slot ∈ t.slots, ¬ holds peer slot = true := by
  rw [← List.find?_eq_none, lookup_eq]
  cases hfind : t.slots.find? (holds peer) with
  | none => simp
  | some slot =>
    cases slot with
    | none => exact absurd (List.find?_some hfind) Bool.false_ne_true
    | some n => simp

theorem lookup_of_vacated {peer : Address width} {t t' : NeighborTable width size}
    (h : t'.slots = vacated peer t.slots) : t'.lookup peer = none := by
  rw [lookup_eq_none_iff, h]
  intro slot hslot
  obtain ⟨old, -, rfl⟩ := List.mem_map.mp hslot
  by_cases hold : holds peer old = true
  · rw [if_pos hold]
    exact Bool.false_ne_true
  · rwa [if_neg hold]

theorem notMem_permanentPeers_of_lookup {peer : Address width} {t : NeighborTable width size}
    (h : t.lookup peer = none) : peer ∉ t.permanentPeers := by
  intro hmem
  obtain ⟨n, hn, haddress⟩ := List.mem_map.mp hmem
  have hentry : n ∈ t.entries := (List.mem_filter.mp hn).1
  rw [lookup, List.find?_eq_none] at h
  exact h n hentry (beq_iff_eq.mpr haddress)

theorem lookup_eq_some_iff_mem {t : NeighborTable width size} (h : t.Distinct)
    {entry : Neighbor width} : t.lookup entry.address = some entry ↔ entry ∈ t.entries := by
  constructor
  · exact List.mem_of_find?_eq_some
  · intro hentry
    cases hlookup : t.lookup entry.address with
    | none =>
      rw [lookup, List.find?_eq_none] at hlookup
      exact absurd (beq_self_eq_true entry.address) (hlookup entry hentry)
    | some other =>
      rw [List.inj_on_of_nodup_map h (List.mem_of_find?_eq_some hlookup) hentry
        (address_of_lookup hlookup)]

theorem nodup_permanentPeers {t : NeighborTable width size} (h : t.Distinct) :
    t.permanentPeers.Nodup :=
  List.Nodup.sublist (List.filter_sublist.map _) h

theorem mem_permanentPeers_iff {t : NeighborTable width size} (h : t.Distinct)
    {peer : Address width} :
    peer ∈ t.permanentPeers ↔ (t.lookup peer).any (·.has .permanent) = true := by
  constructor
  · intro hmem
    obtain ⟨n, hn, rfl⟩ := List.mem_map.mp hmem
    obtain ⟨hentry, hpermanent⟩ := List.mem_filter.mp hn
    rw [(lookup_eq_some_iff_mem h).mpr hentry]
    exact hpermanent
  · intro hany
    cases hlookup : t.lookup peer with
    | none =>
      rw [hlookup] at hany
      cases hany
    | some n =>
      rw [hlookup] at hany
      exact mem_permanentPeers_of_lookup hlookup hany

/-- A permanent neighbor is among them once, and nobody else is. -/
theorem count_permanentPeers {t : NeighborTable width size} (h : t.Distinct)
    (peer : Address width) :
    t.permanentPeers.count peer =
      if (t.lookup peer).any (·.has .permanent) then 1 else 0 := by
  by_cases hmem : peer ∈ t.permanentPeers
  · rw [List.count_eq_one_of_mem (nodup_permanentPeers h) hmem,
      if_pos ((mem_permanentPeers_iff h).mp hmem)]
  · rw [List.count_eq_zero_of_not_mem hmem,
      if_neg fun hany => hmem ((mem_permanentPeers_iff h).mpr hany)]

theorem exists_split_of_lookup {peer : Address width} {entry : Neighbor width}
    {t : NeighborTable width size} (h : t.lookup peer = some entry) :
    ∃ before after, t.slots = before ++ some entry :: after ∧
      ∀ slot ∈ before, ¬ holds peer slot = true := by
  obtain ⟨-, before, after, hslots, hbefore⟩ :=
    List.find?_eq_some_iff_append.mp (lookup_eq_some_iff.mp h)
  exact ⟨before, after, hslots, fun slot hslot => by simpa using hbefore slot hslot⟩

theorem adjustFirst_append {α : Type} {p : α → Bool} (f : α → α) {before : List α} {a : α}
    (hbefore : ∀ b ∈ before, ¬ p b = true) (ha : p a = true) (after : List α) :
    adjustFirst p f (before ++ a :: after) = before ++ f a :: after := by
  induction before with
  | nil => exact if_pos ha
  | cons b before ih =>
    rw [List.forall_mem_cons] at hbefore
    rw [List.cons_append, adjustFirst, if_neg hbefore.1, ih hbefore.2, List.cons_append]

theorem slots_adjust_of_split {peer : Address width} {entry : Neighbor width}
    {t : NeighborTable width size} {before after : List (Option (Neighbor width))}
    (f : Neighbor width → Option (Neighbor width))
    (hslots : t.slots = before ++ some entry :: after)
    (hbefore : ∀ slot ∈ before, ¬ holds peer slot = true) (haddress : entry.address = peer) :
    (t.adjust peer f).slots = before ++ f entry :: after := by
  change adjustFirst (holds peer) (·.bind f) t.slots = _
  rw [hslots]
  exact adjustFirst_append _ hbefore (holds_some.mpr haddress) after

/-- Where addresses are distinct, emptying the slot of a peer is all that is needed. -/
theorem vacated_of_split {peer : Address width} {entry : Neighbor width}
    {t : NeighborTable width size} (hdistinct : t.Distinct)
    {before after : List (Option (Neighbor width))}
    (hslots : t.slots = before ++ some entry :: after)
    (hbefore : ∀ slot ∈ before, ¬ holds peer slot = true) (haddress : entry.address = peer) :
    vacated peer t.slots = before ++ none :: after := by
  have hafter : ∀ slot ∈ after, ¬ holds peer slot = true := by
    intro slot hslot hholds
    rw [Distinct, entries, hslots, List.filterMap_append, List.map_append,
      List.nodup_append] at hdistinct
    obtain ⟨-, htail, -⟩ := hdistinct
    rw [List.filterMap_cons_some (show id (some entry) = some entry from rfl), List.map_cons,
      List.nodup_cons] at htail
    cases slot with
    | none => cases hholds
    | some n =>
      refine htail.1 (List.mem_map.mpr ⟨n, List.mem_filterMap.mpr ⟨some n, hslot, rfl⟩, ?_⟩)
      rw [holds_some.mp hholds, haddress]
  have hempty : (if holds peer (some entry) = true then none else some entry) = none :=
    if_pos (holds_some.mpr haddress)
  rw [hslots, vacated, List.map_append, List.map_cons, hempty]
  change vacated peer before ++ none :: vacated peer after = _
  rw [vacated_of_not_holds hbefore, vacated_of_not_holds hafter]

end NeighborTable

namespace Neighbor

theorem relation_of_ne_none {n : Neighbor width} (h : n.relation ≠ none) :
    n.relation = some (if n.permanent.isSome then .permanent else .tentative) := by
  unfold relation at h ⊢
  by_cases hpermanent : n.permanent.isSome = true
  · rw [if_pos hpermanent, if_pos hpermanent]
  · rw [if_neg hpermanent] at h ⊢
    rw [if_neg hpermanent]
    by_cases htentative : n.tentative.isSome = true
    · rw [if_pos htentative]
    · exact absurd (if_neg htentative) h

theorem relation_without {n : Neighbor width} {r : Relation} (hrelation : n.relation = some r)
    (hsingle : ¬ (r = .permanent ∧ n.has .tentative = true)) :
    (n.without r).relation = none := by
  obtain ⟨address, tentative, permanent⟩ := n
  cases permanent with
  | some sender =>
    cases hrelation
    cases tentative with
    | some started => exact absurd ⟨rfl, rfl⟩ hsingle
    | none => rfl
  | none =>
    cases tentative with
    | some started =>
      cases hrelation
      rfl
    | none => cases hrelation

end Neighbor

end MeshSecurity
