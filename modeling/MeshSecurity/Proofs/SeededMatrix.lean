import Mathlib.Data.List.FinRange
import Mathlib.Tactic.Ring
import MeshSecurity.Pairwise.Blom

/-!
# The matrix of a shared seed

Entries are drawn up to the diagonal, row by row, and each takes a block of the seed's stream for
itself. Every write keeps the matrix symmetric, and no later one reaches a place written before,
since no two of the places are equal or mirrored. So all nodes obtain one symmetric matrix, and the
entry at row `i` and column `j` is the first byte of the block with the number
`i (i + 1) / 2 + j + 1`.
-/

namespace MeshSecurity.ByteMatrix

variable {lambda : Nat}

/-! ## The places up to the diagonal -/

/-- How many places precede one up to the diagonal. -/
def position (place : Fin lambda × Fin lambda) : Nat :=
  place.1.val * (place.1.val + 1) / 2 + place.2.val

theorem triangular_succ (n : Nat) : (n + 1) * (n + 1 + 1) / 2 = n * (n + 1) / 2 + (n + 1) := by
  have hsplit : (n + 1) * (n + 1 + 1) = n * (n + 1) + 2 * (n + 1) := by ring
  rw [hsplit, Nat.add_mul_div_left _ _ (by decide)]

theorem flatMap_rows (n : Nat) :
    ((List.range n).flatMap fun i => (List.range (i + 1)).map fun j => i * (i + 1) / 2 + j) =
      List.range (n * (n + 1) / 2) := by
  induction n with
  | zero => rfl
  | succ n ih =>
    rw [List.range_succ, List.flatMap_append, ih, List.flatMap_singleton, triangular_succ]
    exact List.range_add.symm

theorem map_position_triangle :
    (triangle lambda).map position = List.range (lambda * (lambda + 1) / 2) := by
  have hrow (i : Fin lambda) :
      ((List.finRange (i + 1)).map fun j => (i, j.castLE i.isLt)).map position =
        (List.range (i + 1)).map fun j : Nat => i * (i + 1) / 2 + j := by
    rw [List.map_map, ← List.map_coe_finRange_eq_range, List.map_map]
    rfl
  rw [triangle, List.map_flatMap]
  simp only [hrow]
  rw [← flatMap_rows, ← List.map_coe_finRange_eq_range (n := lambda), List.flatMap_map]

theorem nodup_triangle : (triangle lambda).Nodup := by
  apply List.Nodup.of_map position
  rw [map_position_triangle]
  exact List.nodup_range

theorem mem_triangle_iff {i j : Fin lambda} : (i, j) ∈ triangle lambda ↔ j ≤ i := by
  rw [triangle, List.mem_flatMap]
  constructor
  · rintro ⟨row, -, hplace⟩
    obtain ⟨column, -, hcolumn⟩ := List.mem_map.mp hplace
    cases hcolumn
    exact Fin.le_def.mpr (Nat.le_of_lt_succ column.isLt)
  · intro hle
    refine ⟨i, List.mem_finRange i, List.mem_map.mpr ⟨⟨j, ?_⟩, List.mem_finRange _, rfl⟩⟩
    exact Nat.lt_succ_of_le (Fin.le_def.mp hle)

theorem getElem?_triangle {i j : Fin lambda} (hle : j ≤ i) :
    (triangle lambda)[position (i, j)]? = some (i, j) := by
  obtain ⟨k, hk⟩ := List.getElem?_of_mem (mem_triangle_iff.mpr hle)
  have hposition : ((triangle lambda).map position)[k]? = some (position (i, j)) := by
    rw [List.getElem?_map, hk, Option.map_some]
  rw [map_position_triangle] at hposition
  obtain ⟨_, hsame⟩ := List.getElem?_eq_some_iff.mp hposition
  rw [List.getElem_range] at hsame
  rw [← hsame, hk]

/-! ## Mirrored writes -/

theorem get_setMirrored (d : ByteMatrix lambda) (i j k l : Fin lambda) (byte : UInt8) :
    ((d.setMirrored i j byte).get k).get l =
      if (k = i ∧ l = j) ∨ (k = j ∧ l = i) then byte else (d.get k).get l := by
  change ((d.setMirrored i j byte)[k.val])[l.val] =
    if (k = i ∧ l = j) ∨ (k = j ∧ l = i) then byte else (d[k.val])[l.val]
  simp only [setMirrored, Fin.getElem_fin, Vector.getElem_set]
  grind

theorem isSymmetric_zero : (zero : ByteMatrix lambda).IsSymmetric := by
  intro i j
  simp [zero]

theorem isSymmetric_setMirrored {d : ByteMatrix lambda} (hd : d.IsSymmetric) (i j : Fin lambda)
    (byte : UInt8) : (d.setMirrored i j byte).IsSymmetric := by
  intro k l
  have hmirrored : (l = i ∧ k = j) ∨ (l = j ∧ k = i) ↔ (k = i ∧ l = j) ∨ (k = j ∧ l = i) := by
    tauto
  change ((d.setMirrored i j byte).get k).get l = ((d.setMirrored i j byte).get l).get k
  rw [get_setMirrored, get_setMirrored, hd.get_comm]
  simp only [hmirrored]

/-- Up to the diagonal, a write reaches its own place only. -/
theorem get_setMirrored_of_ne (d : ByteMatrix lambda) {i j k l : Fin lambda} (byte : UInt8)
    (hji : j ≤ i) (hlk : l ≤ k) (hne : (k, l) ≠ (i, j)) :
    ((d.setMirrored i j byte).get k).get l = (d.get k).get l := by
  rw [get_setMirrored]
  apply if_neg
  rintro (⟨rfl, rfl⟩ | ⟨rfl, rfl⟩)
  · exact hne rfl
  · -- a mirrored place that is not above the diagonal lies on it
    have hdiagonal : k = l := le_antisymm hji hlk
    subst hdiagonal
    exact hne rfl

theorem get_setMirrored_self (d : ByteMatrix lambda) (i j : Fin lambda) (byte : UInt8) :
    ((d.setMirrored i j byte).get i).get j = byte := by
  rw [get_setMirrored]
  exact if_pos (Or.inl ⟨rfl, rfl⟩)

/-! ## Entries from the stream -/

theorem padded_one (block : Bytes 32) : Bytes.padded 1 block.toList = #v[block.get 0] := by
  apply Vector.ext
  intro i hi
  obtain rfl : i = 0 := by omega
  simp [Bytes.padded, Vector.get]

/-- A request of one byte takes a whole block. -/
theorem fill_one (seed : Bytes 32) (blocks : UInt64) :
    RandomSource.fill 1 (SeedStream.mk seed blocks) =
      (some #v[(SeedStream.block seed (blocks + 1)).get 0],
        SeedStream.mk seed (blocks + 1)) := by
  have hbytes : SeedStream.blocksAfter seed blocks 1 =
      (SeedStream.block seed (blocks + 1)).toList := List.append_nil _
  rw [← padded_one, ← hbytes]
  rfl

/-- What becomes of the matrix `d` when bytes are drawn for the places, from a stream that has
produced some blocks. -/
structure Drawn (seed : Bytes 32) (blocks : UInt64) (places : List (Fin lambda × Fin lambda))
    (d d' : ByteMatrix lambda) : Prop where
  symmetric : d'.IsSymmetric
  entry {n : Nat} {i j : Fin lambda} (hplace : places[n]? = some (i, j)) :
    (d'.get i).get j = (SeedStream.block seed (blocks + (n + 1).toUInt64)).get 0
  others {i j : Fin lambda} (hle : j ≤ i) (hplace : (i, j) ∉ places) :
    (d'.get i).get j = (d.get i).get j

theorem drawEntries_drawn (seed : Bytes 32) (places : List (Fin lambda × Fin lambda))
    (hdistinct : places.Nodup) (hlower : ∀ place ∈ places, place.2 ≤ place.1)
    {d : ByteMatrix lambda} (hd : d.IsSymmetric) (blocks : UInt64) :
    ∃ d', (drawEntries places d (SeedStream.mk seed blocks)).1 = some d' ∧
      Drawn seed blocks places d d' := by
  induction places generalizing d blocks with
  | nil =>
    refine ⟨d, rfl, hd, ?_, ?_⟩
    · intro n i j hplace
      cases hplace
    · intro i j _ _
      rfl
  | cons place places ih =>
    obtain ⟨i, j⟩ := place
    obtain ⟨hnew, hdistinct⟩ := List.nodup_cons.mp hdistinct
    have hle : j ≤ i := hlower (i, j) List.mem_cons_self
    have hsymmetric :=
      isSymmetric_setMirrored hd i j ((SeedStream.block seed (blocks + 1)).get 0)
    obtain ⟨d', hdraw, hdrawn⟩ := ih hdistinct
      (fun place hplace => hlower place (List.mem_cons_of_mem _ hplace)) hsymmetric (blocks + 1)
    refine ⟨d', ?_, hdrawn.symmetric, ?_, ?_⟩
    · rw [drawEntries, fill_one]
      exact hdraw
    · intro n k l hplace
      cases n with
      | zero =>
        -- the place written first is not among those written later
        cases hplace
        rw [hdrawn.others hle hnew]
        exact get_setMirrored_self d i j _
      | succ n =>
        rw [hdrawn.entry hplace, SeedStream.add_toUInt64_succ blocks (n + 1)]
    · intro k l hlk hplace
      obtain ⟨hne, hplaces⟩ := not_or.mp (mt List.mem_cons.mpr hplace)
      rw [hdrawn.others hlk hplaces]
      exact get_setMirrored_of_ne d _ hle hlk hne

theorem IsSymmetric.ext {d d' : ByteMatrix lambda} (hd : d.IsSymmetric) (hd' : d'.IsSymmetric)
    (hentries : ∀ i j : Fin lambda, j ≤ i → (d'.get i).get j = (d.get i).get j) : d' = d := by
  have hall (i j : Fin lambda) : (d'.get i).get j = (d.get i).get j := by
    rcases le_total j i with hle | hle
    · exact hentries i j hle
    · rw [hd.get_comm, hd'.get_comm]
      exact hentries j i hle
  apply Vector.ext
  intro i hi
  apply Vector.ext
  intro j hj
  exact hall ⟨i, hi⟩ ⟨j, hj⟩

theorem exists_ofSeed (lambda : Nat) (seed : Bytes 32) :
    ∃ d : ByteMatrix lambda, ofSeed seed = some d ∧ d.IsSymmetric ∧
      ∀ i j : Fin lambda, j ≤ i → (d.get i).get j =
        (SeedStream.block seed (i.val * (i.val + 1) / 2 + j.val + 1).toUInt64).get 0 := by
  obtain ⟨d, hdraw, hdrawn⟩ := drawEntries_drawn seed (triangle lambda) nodup_triangle
    (fun place hplace => mem_triangle_iff.mp hplace) isSymmetric_zero 0
  refine ⟨d, hdraw, hdrawn.symmetric, ?_⟩
  intro i j hle
  rw [hdrawn.entry (getElem?_triangle hle), UInt64.zero_add]
  rfl

end MeshSecurity.ByteMatrix

namespace MeshSecurity.Blom

/-- The nodes of a seed have one symmetric matrix, in which the byte at row `i` and column `j` up to
the diagonal is the first of the block with the number `i (i + 1) / 2 + j + 1`, counted in a word.
Every node obtains its part from the seed, and it is its part of that matrix. -/
theorem seeded_matrix_common (lambda : Nat) (seed : Bytes 32) :
    ∃! d : ByteMatrix lambda, d.IsSymmetric ∧
      (∀ i j : Fin lambda, j ≤ i → (d.get i).get j =
        (SeedStream.block seed (i.val * (i.val + 1) / 2 + j.val + 1).toUInt64).get 0) ∧
      ∀ (width : Nat) (own : UInt16) (numbering : PeerNumbering width),
        ∃ node, ofSeed seed own numbering = .ok node ∧ ofMatrix d own numbering = .ok node := by
  obtain ⟨d, hseed, hsymmetric, hentries⟩ := ByteMatrix.exists_ofSeed lambda seed
  refine ⟨d, ⟨hsymmetric, hentries, ?_⟩, ?_⟩
  · intro width own numbering
    refine ⟨ofRow (d.map (coefficient own)) numbering, ?_, if_pos hsymmetric⟩
    rw [ofSeed, hseed]
    exact if_pos hsymmetric
  · rintro d' ⟨hsymmetric', hentries', -⟩
    apply hsymmetric.ext hsymmetric'
    intro i j hle
    rw [hentries i j hle, hentries' i j hle]

end MeshSecurity.Blom
