import Mathlib.Algebra.Group.Nat.Defs
import Mathlib.Data.List.Basic
import MeshSecurity.Random.SeedStream.Run

/-!
# No block serves two requests

While bytes are missing, each turn of the loop takes the block after the last one and leaves 32
bytes less to be delivered. So a request takes as many blocks as its length has parts of 32 bytes,
begun ones included, and its bytes are the front of theirs. The next request begins with the block
behind, so the blocks of a sequence of requests are numbered through.
-/

namespace MeshSecurity.SeedStream

/-! ## Consecutive blocks -/

theorem length_blocksAfter (seed : Bytes 32) (last : UInt64) (count : Nat) :
    (blocksAfter seed last count).length = 32 * count := by
  simp [blocksAfter, Nat.mul_comm]

/-- The numbers of the blocks after a block. -/
def numbersAfter (last : UInt64) (count : Nat) : List UInt64 :=
  (List.range count).map fun i => last + (i + 1).toUInt64

theorem blocksAfter_eq (seed : Bytes 32) (last : UInt64) (count : Nat) :
    blocksAfter seed last count =
      (numbersAfter last count).flatMap fun number => (block seed number).toList := by
  rw [blocksAfter, numbersAfter, List.flatMap_map]

theorem blocksAfter_add (seed : Bytes 32) (last : UInt64) (m k : Nat) :
    blocksAfter seed last (m + k) =
      blocksAfter seed last m ++ blocksAfter seed (last + m.toUInt64) k := by
  rw [blocksAfter, List.range_add, List.flatMap_append, List.flatMap_map]
  congr 1
  apply List.flatMap_congr
  intro i _
  rw [Nat.add_assoc, add_toUInt64_add]

theorem numbersAfter_succ (last : UInt64) (count : Nat) :
    numbersAfter last (count + 1) = (last + 1) :: numbersAfter (last + 1) count := by
  rw [numbersAfter, List.range_succ_eq_map, List.map_cons, List.map_map]
  congr 1
  apply List.map_congr_left
  intro i _
  exact add_toUInt64_succ last (i + 1)

theorem toNat_add_blocks {last : UInt64} {count : Nat} (h : last.toNat + count < 2 ^ 64) :
    (last + count.toUInt64).toNat = last.toNat + count := by
  rw [UInt64.toNat_add, Nat.toUInt64_eq, UInt64.toNat_ofNat', Nat.add_mod_mod,
    Nat.mod_eq_of_lt h]

theorem map_toNat_numbersAfter {last : UInt64} {count : Nat}
    (h : last.toNat + count < 2 ^ 64) :
    (numbersAfter last count).map UInt64.toNat = List.range' (last.toNat + 1) count := by
  rw [numbersAfter, List.map_map, List.range'_eq_map_range]
  apply List.map_congr_left
  intro i hi
  have hlt := List.mem_range.mp hi
  change (last + (i + 1).toUInt64).toNat = _
  rw [toNat_add_blocks (by omega)]
  omega

/-! ## The loop of a request -/

namespace Copying

variable {n : Nat} (seed : Bytes 32)

theorem take_copyBlock (c : Copying n) :
    (c.copyBlock seed).buffer.toList.take (c.copyBlock seed).offset =
      c.buffer.toList.take c.offset ++ (block seed (c.blocks + 1)).toList.take (n - c.offset) := by
  have hcount : (block seed (c.blocks + 1)).toList.take (min (n - c.offset) 32) =
      (block seed (c.blocks + 1)).toList.take (n - c.offset) := by
    rw [List.take_eq_take_iff, Vector.length_toList]
    omega
  have hoffset : (c.copyBlock seed).offset = c.offset +
      ((block seed (c.blocks + 1)).toList.take (min (n - c.offset) 32)).length := by
    rw [List.length_take, Vector.length_toList, Nat.min_assoc, Nat.min_self]
    rfl
  have hroom := (c.copyBlock seed).offset_le
  rw [hoffset] at hroom
  rw [hoffset, ← hcount]
  exact take_write c.buffer c.offset _ hroom

/-- Where the loop ends: the rest of the buffer holds the front of the blocks that were missing. -/
structure Completes (c done : Copying n) : Prop where
  buffer : done.buffer.toList = c.buffer.toList.take c.offset ++
    (blocksAfter seed c.blocks (blocksFor (n - c.offset))).take (n - c.offset)
  blocks : done.blocks = c.blocks + (blocksFor (n - c.offset)).toUInt64
  numbers : done.numbers = c.numbers ++ numbersAfter c.blocks (blocksFor (n - c.offset))

theorem completes_self {c : Copying n} (h : ¬ c.offset < n) : Completes seed c c := by
  have hrest : n - c.offset = 0 := Nat.sub_eq_zero_of_le (Nat.not_lt.mp h)
  constructor
  · rw [hrest, List.take_zero, List.append_nil, List.take_of_length_le]
    rw [Vector.length_toList]
    exact Nat.not_lt.mp h
  · rw [hrest]
    exact (UInt64.add_zero _).symm
  · rw [hrest]
    exact (List.append_nil _).symm

theorem completes_copyBlock {c done : Copying n} (h : c.offset < n)
    (hdone : Completes seed (c.copyBlock seed) done) : Completes seed c done := by
  have hoffset : (c.copyBlock seed).offset = c.offset + min (n - c.offset) 32 := rfl
  have hblocks : (c.copyBlock seed).blocks = c.blocks + 1 := rfl
  have hnumbers : (c.copyBlock seed).numbers = c.numbers ++ [c.blocks + 1] := rfl
  have hcount := blocksFor_of_pos (Nat.sub_pos_of_lt h)
  have hrest : n - (c.copyBlock seed).offset = n - c.offset - 32 := by
    omega
  constructor
  · rw [hdone.buffer, take_copyBlock, hcount, blocksAfter_eq, blocksAfter_eq, numbersAfter_succ,
      List.flatMap_cons, List.take_append, Vector.length_toList, hblocks, hrest, List.append_assoc]
  · rw [hdone.blocks, hblocks, hrest, hcount, add_toUInt64_succ]
  · rw [hdone.numbers, hnumbers, hblocks, hrest, hcount, numbersAfter_succ, List.append_assoc]
    rfl

theorem copyAll_completes (c : Copying n) : Completes seed c (c.copyAll seed) := by
  fun_induction copyAll seed c with
  | case1 c h ih => exact completes_copyBlock seed h ih
  | case2 c h => exact completes_self seed h

end Copying

/-! ## Requests -/

section Request

variable {n : Nat} (buffer : Bytes n) (s : SeedStream)

theorem le_length_blocksAfter (n : Nat) :
    n ≤ (blocksAfter s.seed s.blocks (blocksFor n)).length := by
  rw [length_blocksAfter, blocksFor]
  omega

theorem deliver_eq : deliver buffer s =
    (⟨(blocksAfter s.seed s.blocks (blocksFor n)).take n, numbersAfter s.blocks (blocksFor n),
      s.blocks + (blocksFor n).toUInt64⟩,
      { s with blocks := s.blocks + (blocksFor n).toUInt64 }) := by
  have hdone := Copying.copyAll_completes s.seed (Copying.start buffer s.blocks)
  have hbuffer : ((Copying.start buffer s.blocks).copyAll s.seed).buffer.toList =
      (blocksAfter s.seed s.blocks (blocksFor n)).take n := hdone.buffer
  have hblocks : ((Copying.start buffer s.blocks).copyAll s.seed).blocks =
      s.blocks + (blocksFor n).toUInt64 := hdone.blocks
  have hnumbers : ((Copying.start buffer s.blocks).copyAll s.seed).numbers =
      numbersAfter s.blocks (blocksFor n) := hdone.numbers
  rw [deliver, hbuffer, hblocks, hnumbers]

theorem bytes_fill (n : Nat) : (RandomSource.fill n s).1.map (·.toList) =
    some ((blocksAfter s.seed s.blocks (blocksFor n)).take n) := by
  change some (Bytes.padded n (blocksAfter s.seed s.blocks (blocksFor n))).toList = _
  rw [Bytes.toList_padded, Nat.sub_eq_zero_of_le (le_length_blocksAfter s n)]
  exact congrArg some (List.append_nil _)

/-- The source answers with what the loop delivers, whatever the buffer held. -/
theorem fill_eq_deliver :
    (RandomSource.fill n s).1.map (·.toList) = some (deliver buffer s).1.bytes ∧
      (RandomSource.fill n s).2 = (deliver buffer s).2 := by
  rw [deliver_eq, bytes_fill]
  exact ⟨rfl, rfl⟩

/-- What a request of `n` bytes delivers behind `before` blocks: the front of the next blocks, in
order and as many as it needs. -/
structure Delivered (seed : Bytes 32) (before n : Nat) (d : Delivery) : Prop where
  numbers : d.numbers.map UInt64.toNat = List.range' (before + 1) (blocksFor n)
  bytes : d.bytes = (d.numbers.flatMap fun number => (block seed number).toList).take n
  length : d.bytes.length = n
  blocks : d.blocks.toNat = before + blocksFor n

theorem delivered_deliver (hfew : s.blocks.toNat + blocksFor n < 2 ^ 64) :
    Delivered s.seed s.blocks.toNat n (deliver buffer s).1 := by
  rw [deliver_eq]
  constructor
  · exact map_toNat_numbersAfter hfew
  · dsimp only
    rw [← blocksAfter_eq]
  · rw [List.length_take]
    exact Nat.min_eq_left (le_length_blocksAfter s n)
  · exact toNat_add_blocks hfew

theorem Delivered.mem_numbers {seed : Bytes 32} {before n : Nat} {d : Delivery}
    (h : Delivered seed before n d) {number : UInt64} (hnumber : number ∈ d.numbers) :
    before < number.toNat ∧ number.toNat ≤ before + blocksFor n := by
  have hmem : number.toNat ∈ d.numbers.map UInt64.toNat := List.mem_map_of_mem hnumber
  rw [h.numbers, List.mem_range'_1] at hmem
  omega

end Request

/-! ## Sequences of requests -/

/-- What a sequence of requests delivers, each behind the blocks of those before. -/
structure DeliveredAll (s : SeedStream) (lengths : List Nat) (deliveries : List Delivery)
    (after : SeedStream) : Prop where
  filled : fillAll lengths s = (deliveries.map fun d => some d.bytes, after)
  seed : after.seed = s.seed
  blocks : after.blocks.toNat = s.blocks.toNat + blocksForAll lengths
  each {k n : Nat} (hk : lengths[k]? = some n) : ∃ d, deliveries[k]? = some d ∧
    Delivered s.seed (s.blocks.toNat + blocksForAll (lengths.take k)) n d
  fresh {d : Delivery} (hd : d ∈ deliveries) {number : UInt64} (hnumber : number ∈ d.numbers) :
    s.blocks.toNat < number.toNat
  disjoint : (deliveries.map Delivery.numbers).Pairwise List.Disjoint

theorem deliveredAll_nil (s : SeedStream) : DeliveredAll s [] [] s := by
  refine ⟨rfl, rfl, rfl, ?_, ?_, List.Pairwise.nil⟩
  · intro k n hk
    cases hk
  · intro d hd
    cases hd

theorem fillAll_cons (n : Nat) (lengths : List Nat) (s : SeedStream) :
    fillAll (n :: lengths) s =
      ((RandomSource.fill n s).1.map (·.toList) :: (fillAll lengths (RandomSource.fill n s).2).1,
        (fillAll lengths (RandomSource.fill n s).2).2) := rfl

theorem DeliveredAll.cons {n : Nat} (buffer : Bytes n) {s after : SeedStream} {lengths : List Nat}
    {deliveries : List Delivery} (hfew : s.blocks.toNat + blocksFor n < 2 ^ 64)
    (h : DeliveredAll (deliver buffer s).2 lengths deliveries after) :
    DeliveredAll s (n :: lengths) ((deliver buffer s).1 :: deliveries) after := by
  have hfirst := delivered_deliver buffer s hfew
  have hseed : (deliver buffer s).2.seed = s.seed := rfl
  have hblocks : (deliver buffer s).2.blocks.toNat = s.blocks.toNat + blocksFor n := hfirst.blocks
  constructor
  · obtain ⟨hbytes, hafter⟩ := fill_eq_deliver buffer s
    rw [fillAll_cons, hbytes, hafter, h.filled, List.map_cons]
  · exact h.seed
  · rw [h.blocks, hblocks, blocksForAll, Nat.add_assoc]
  · intro k m hk
    cases k with
    | zero =>
      obtain rfl : n = m := Option.some.inj hk
      exact ⟨_, rfl, hfirst⟩
    | succ k =>
      obtain ⟨d, hd, hdelivered⟩ := h.each (show lengths[k]? = some m from hk)
      rw [hseed, hblocks, Nat.add_assoc] at hdelivered
      exact ⟨d, hd, hdelivered⟩
  · intro d hd number hnumber
    rcases List.mem_cons.mp hd with rfl | hd
    · exact (hfirst.mem_numbers hnumber).1
    · have hlater := h.fresh hd hnumber
      omega
  · rw [List.map_cons, List.pairwise_cons]
    refine ⟨?_, h.disjoint⟩
    intro numbers hnumbers number hnumber hnumber'
    obtain ⟨d, hd, rfl⟩ := List.mem_map.mp hnumbers
    have hearlier := (hfirst.mem_numbers hnumber).2
    have hlater := h.fresh hd hnumber'
    omega

theorem deliverAll_delivered (buffers : List (Σ n, Bytes n)) (s : SeedStream)
    (hfew : s.blocks.toNat + blocksForAll (buffers.map Sigma.fst) < 2 ^ 64) :
    DeliveredAll s (buffers.map Sigma.fst) (deliverAll buffers s).1 (deliverAll buffers s).2 := by
  induction buffers generalizing s with
  | nil => exact deliveredAll_nil s
  | cons first buffers ih =>
    obtain ⟨n, buffer⟩ := first
    have htotal : s.blocks.toNat + (blocksFor n + blocksForAll (buffers.map Sigma.fst)) < 2 ^ 64 :=
      hfew
    have hfirst := delivered_deliver buffer s (by omega)
    have hblocks : (deliver buffer s).2.blocks.toNat = s.blocks.toNat + blocksFor n :=
      hfirst.blocks
    exact DeliveredAll.cons buffer (by omega) (ih (deliver buffer s).2 (by omega))

/-! ## Cutting a request -/

theorem fillAll_append (lengths later : List Nat) (s : SeedStream) :
    fillAll (lengths ++ later) s =
      ((fillAll lengths s).1 ++ (fillAll later (fillAll lengths s).2).1,
        (fillAll later (fillAll lengths s).2).2) := by
  induction lengths generalizing s with
  | nil => rfl
  | cons n lengths ih => rw [List.cons_append, fillAll_cons, fillAll_cons, ih, List.cons_append]

theorem length_fillAll (lengths : List Nat) (s : SeedStream) :
    (fillAll lengths s).1.length = lengths.length := by
  induction lengths generalizing s with
  | nil => rfl
  | cons n lengths ih => rw [fillAll_cons, List.length_cons, ih, List.length_cons]

/-- A request of whole blocks and a rest may be made as two. -/
theorem fill_add (m r : Nat) (s : SeedStream) :
    ∃ whole rest, whole.length = 32 * m ∧
      (RandomSource.fill (32 * m) s).1.map (·.toList) = some whole ∧
      (RandomSource.fill r (RandomSource.fill (32 * m) s).2).1.map (·.toList) = some rest ∧
      (RandomSource.fill (32 * m + r) s).1.map (·.toList) = some (whole ++ rest) ∧
      (RandomSource.fill (32 * m + r) s).2 =
        (RandomSource.fill r (RandomSource.fill (32 * m) s).2).2 := by
  have hwhole : blocksFor (32 * m) = m := blocksFor_add m 0
  have hafter : (RandomSource.fill (32 * m) s).2 = ⟨s.seed, s.blocks + m.toUInt64⟩ :=
    congrArg (fun count : Nat => SeedStream.mk s.seed (s.blocks + count.toUInt64)) hwhole
  have hlength := length_blocksAfter s.seed s.blocks m
  have hall : (blocksAfter s.seed s.blocks (m + blocksFor r)).take (32 * m + r) =
      blocksAfter s.seed s.blocks m ++
        (blocksAfter s.seed (s.blocks + m.toUInt64) (blocksFor r)).take r := by
    rw [blocksAfter_add, ← hlength, List.take_length_add_append]
  rw [hafter, bytes_fill, bytes_fill, bytes_fill, hwhole, blocksFor_add, hall,
    List.take_of_length_le (Nat.le_of_eq hlength)]
  refine ⟨_, _, hlength, rfl, rfl, rfl, ?_⟩
  change SeedStream.mk s.seed (s.blocks + (blocksFor (32 * m + r)).toUInt64) =
    ⟨s.seed, s.blocks + m.toUInt64 + (blocksFor r).toUInt64⟩
  rw [blocksFor_add, add_toUInt64_add]

theorem fillAll_cut (before later : List Nat) (m r : Nat) (s : SeedStream) :
    ∃ answers whole rest answers' after,
      fillAll (before ++ (32 * m + r) :: later) s =
        (answers ++ some (whole ++ rest) :: answers', after) ∧
      fillAll (before ++ 32 * m :: r :: later) s =
        (answers ++ some whole :: some rest :: answers', after) ∧
      answers.length = before.length ∧ whole.length = 32 * m := by
  obtain ⟨whole, rest, hlength, hwhole, hrest, hall, hafter⟩ :=
    fill_add m r (fillAll before s).2
  let t := (RandomSource.fill r (RandomSource.fill (32 * m) (fillAll before s).2).2).2
  refine ⟨(fillAll before s).1, whole, rest, (fillAll later t).1, (fillAll later t).2, ?_, ?_,
    length_fillAll before s, hlength⟩
  · rw [fillAll_append, fillAll_cons, hall, hafter]
  · rw [fillAll_append, fillAll_cons, fillAll_cons, hwhole, hrest]

/-- Whatever is asked of the stream of a seed, in whatever buffers: a request delivers the front of
the blocks that follow those of the requests before, as many as it needs, and counts them. No block
serves two requests, as long as their numbers fit into a word. A request of whole blocks and a rest
may be cut in two at any place of a sequence, and the answers and the stream stay the same. -/
theorem stream_never_reused (seed : Bytes 32) :
    (∀ buffers : List (Σ n, Bytes n), blocksForAll (buffers.map Sigma.fst) < 2 ^ 64 →
      ∃ deliveries after, deliverAll buffers (ofSeed seed) = (deliveries, after) ∧
        fillAll (buffers.map Sigma.fst) (ofSeed seed) =
          (deliveries.map fun d => some d.bytes, after) ∧
        after.blocks.toNat = blocksForAll (buffers.map Sigma.fst) ∧
        (∀ k n, (buffers.map Sigma.fst)[k]? = some n → ∃ d, deliveries[k]? = some d ∧
          Delivered seed (blocksForAll ((buffers.map Sigma.fst).take k)) n d) ∧
        (deliveries.map Delivery.numbers).Pairwise List.Disjoint) ∧
      ∀ (before later : List Nat) (m r : Nat), ∃ answers whole rest answers' after,
        fillAll (before ++ (32 * m + r) :: later) (ofSeed seed) =
          (answers ++ some (whole ++ rest) :: answers', after) ∧
        fillAll (before ++ 32 * m :: r :: later) (ofSeed seed) =
          (answers ++ some whole :: some rest :: answers', after) ∧
        answers.length = before.length ∧ whole.length = 32 * m := by
  refine ⟨?_, fun before later m r => fillAll_cut before later m r (ofSeed seed)⟩
  intro buffers hfew
  have hnone : (ofSeed seed).blocks.toNat = 0 := rfl
  have hall := deliverAll_delivered buffers (ofSeed seed) (by rwa [hnone, Nat.zero_add])
  refine ⟨_, _, rfl, hall.filled, ?_, ?_, hall.disjoint⟩
  · rw [hall.blocks, hnone, Nat.zero_add]
  · intro k n hk
    obtain ⟨d, hd, hdelivered⟩ := hall.each hk
    rw [hnone, Nat.zero_add] at hdelivered
    exact ⟨d, hd, hdelivered⟩

/-- A request of 33 bytes takes two blocks, an empty one takes none. -/
theorem stream_never_reused_threeRequests :
    blocksForAll [33, 0, 5] < 2 ^ 64 ∧
      ∃ deliveries after, deliverAll [⟨33, Bytes.padded 33 []⟩, ⟨0, Bytes.padded 0 []⟩,
          ⟨5, Bytes.padded 5 []⟩] (ofSeed (Bytes.padded 32 [7])) = (deliveries, after) ∧
        after.blocks.toNat = 3 ∧
        ∃ d, deliveries[2]? = some d ∧ d.numbers.map UInt64.toNat = [3] ∧ d.bytes.length = 5 := by
  obtain ⟨hall, -⟩ := stream_never_reused (Bytes.padded 32 [7])
  obtain ⟨deliveries, after, hrun, -, hblocks, heach, -⟩ := hall [⟨33, Bytes.padded 33 []⟩,
    ⟨0, Bytes.padded 0 []⟩, ⟨5, Bytes.padded 5 []⟩] (by decide)
  obtain ⟨d, hd, hdelivered⟩ := heach 2 5 rfl
  exact ⟨by decide, deliveries, after, hrun, hblocks, d, hd, hdelivered.numbers,
    hdelivered.length⟩

end MeshSecurity.SeedStream
