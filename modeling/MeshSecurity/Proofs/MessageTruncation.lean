import MeshSecurity.Journal

/-!
# The truncation of messages

A message keeps the longest front of its text that fits. While all parts fit, it is the text itself.
The part that overflows is cut at the first character that does not fit, but the parts behind it are
still written: one that begins with a character small enough for the bytes left over appears behind
the cut, at most three bytes in all. So the message is the longest front exactly if no such part
follows.
-/

namespace MeshSecurity

/-- `message` is the longest front of `text` that takes at most `limit` bytes. -/
structure IsTruncation (limit : Nat) (text message : String) : Prop where
  front : message.toList <+: text.toList
  fits : message.utf8ByteSize ≤ limit
  longest : ∀ other : String, other.toList <+: text.toList → other.utf8ByteSize ≤ limit →
    other.utf8ByteSize ≤ message.utf8ByteSize

namespace Message

theorem utf8ByteSize_ofList (cs : List Char) : (String.ofList cs).utf8ByteSize = size cs := by
  induction cs with
  | nil => rfl
  | cons c cs ih =>
    rw [String.ofList_cons, String.utf8ByteSize_append, String.utf8ByteSize_singleton, ih]
    rfl

theorem size_toList (s : String) : size s.toList = s.utf8ByteSize := by
  rw [← utf8ByteSize_ofList, String.ofList_toList]

theorem size_cons (c : Char) (cs : List Char) : size (c :: cs) = c.utf8Size + size cs := rfl

theorem size_append (cs ds : List Char) : size (cs ++ ds) = size cs + size ds := by
  rw [← utf8ByteSize_ofList, String.ofList_append, String.utf8ByteSize_append,
    utf8ByteSize_ofList, utf8ByteSize_ofList]

theorem size_le_of_prefix {cs ds : List Char} (h : cs <+: ds) : size cs ≤ size ds := by
  obtain ⟨rest, rfl⟩ := h
  rw [size_append]
  exact Nat.le_add_right _ _

/-! ## The characters that fit -/

variable {room : Nat}

theorem fitting_prefix (room : Nat) (cs : List Char) : fitting room cs <+: cs := by
  induction cs generalizing room with
  | nil => exact List.nil_prefix
  | cons c cs ih =>
    rw [fitting]
    split
    · exact List.cons_prefix_cons.mpr ⟨rfl, ih _⟩
    · exact List.nil_prefix

theorem size_fitting_le (room : Nat) (cs : List Char) : size (fitting room cs) ≤ room := by
  induction cs generalizing room with
  | nil => exact Nat.zero_le _
  | cons c cs ih =>
    rw [fitting]
    split
    · rename_i hfits
      have hrest := ih (room - c.utf8Size)
      rw [size_cons]
      omega
    · exact Nat.zero_le _

/-- Where a front fits, the rest is cut to the room that is left. -/
theorem fitting_append {m : List Char} (hm : size m ≤ room) (cs : List Char) :
    fitting room (m ++ cs) = m ++ fitting (room - size m) cs := by
  induction m generalizing room with
  | nil => rfl
  | cons c m ih =>
    rw [size_cons] at hm
    rw [List.cons_append, fitting, if_pos (by omega), ih (by omega), size_cons, Nat.sub_sub]
    rfl

theorem fitting_of_le {cs : List Char} (h : size cs ≤ room) : fitting room cs = cs := by
  have happend := fitting_append h []
  rwa [List.append_nil, fitting, List.append_nil] at happend

/-- A front that does not fit is cut as the whole is. -/
theorem fitting_append_of_lt {m : List Char} (hm : room < size m) (cs : List Char) :
    fitting room (m ++ cs) = fitting room m := by
  induction m generalizing room with
  | nil => exact absurd hm (Nat.not_lt_zero _)
  | cons c m ih =>
    rw [size_cons] at hm
    rw [List.cons_append, fitting, fitting]
    split
    · rw [ih (by omega)]
    · rfl

theorem prefix_fitting {cs front : List Char} (hfront : front <+: cs) (hsize : size front ≤ room) :
    front <+: fitting room cs := by
  obtain ⟨rest, rfl⟩ := hfront
  rw [fitting_append hsize]
  exact List.prefix_append _ _

/-- Fewer bytes are left over than a character may take. -/
theorem lt_size_fitting_add {cs : List Char} (h : room < size cs) :
    room < size (fitting room cs) + 4 := by
  induction cs generalizing room with
  | nil => exact absurd h (Nat.not_lt_zero _)
  | cons c cs ih =>
    have hfour := c.utf8Size_le_four
    rw [size_cons] at h
    rw [fitting]
    split
    · have hrest : room - c.utf8Size < size (fitting (room - c.utf8Size) cs) + 4 := ih (by omega)
      rw [size_cons]
      omega
    · omega

theorem fitting_eq_nil_iff {cs : List Char} :
    fitting room cs = [] ↔ ∀ c ∈ cs.head?, room < c.utf8Size := by
  cases cs with
  | nil => simp [fitting]
  | cons c cs =>
    rw [fitting]
    split <;> simp <;> omega

theorem isTruncation_fitting (limit : Nat) (text : String) :
    IsTruncation limit text (String.ofList (fitting limit text.toList)) := by
  refine ⟨?_, ?_, ?_⟩
  · rw [String.toList_ofList]
    exact fitting_prefix _ _
  · rw [utf8ByteSize_ofList]
    exact size_fitting_le _ _
  · intro other hfront hsize
    rw [← size_toList] at hsize
    rw [utf8ByteSize_ofList, ← size_toList]
    exact size_le_of_prefix (prefix_fitting hfront hsize)

/-! ## Part by part -/

/-- No part begins with a character that fits behind `used` bytes. -/
def NoneFitsBehind (used : Nat) (parts : List String) : Prop :=
  ∀ part ∈ parts, ∀ c ∈ part.toList.head?, maxSize < used + c.utf8Size

theorem noneFitsBehind_cons {used : Nat} {part : String} {parts : List String} :
    NoneFitsBehind used (part :: parts) ↔
      (∀ c ∈ part.toList.head?, maxSize < used + c.utf8Size) ∧ NoneFitsBehind used parts :=
  List.forall_mem_cons

/-- The characters of a message after parts are written to it. -/
def written (m : List Char) (parts : List String) : List Char :=
  (parts.map String.toList).foldl append m

theorem written_cons (m : List Char) (part : String) (parts : List String) :
    written m (part :: parts) = written (append m part.toList) parts := rfl

/-- A message only grows. It stays as it is exactly if no part finds room for its first
character. -/
theorem written_grows (parts : List String) {m : List Char} (hm : size m ≤ maxSize) :
    ∃ rest, written m parts = m ++ rest ∧ size (m ++ rest) ≤ maxSize ∧
      (rest = [] ↔ NoneFitsBehind (size m) parts) := by
  induction parts generalizing m with
  | nil =>
    refine ⟨[], (List.append_nil m).symm, ?_, ?_⟩
    · rwa [List.append_nil]
    · simp [NoneFitsBehind]
  | cons part parts ih =>
    have hfitted := size_fitting_le (maxSize - size m) part.toList
    have hgrown : size (append m part.toList) ≤ maxSize := by
      rw [append, size_append]
      omega
    obtain ⟨rest, hwritten, hsize, hrest⟩ := ih hgrown
    refine ⟨fitting (maxSize - size m) part.toList ++ rest, ?_, ?_, ?_⟩
    · rw [written_cons, hwritten, append, List.append_assoc]
    · rwa [append, List.append_assoc] at hsize
    · have hfirst : fitting (maxSize - size m) part.toList = [] ↔
          ∀ c ∈ part.toList.head?, maxSize < size m + c.utf8Size := by
        rw [fitting_eq_nil_iff]
        simp only [Nat.sub_lt_iff_lt_add' hm]
      rw [List.append_eq_nil_iff, noneFitsBehind_cons, ← hfirst]
      apply and_congr_right
      intro hnone
      rw [hrest, append, hnone, List.append_nil]

/-- No part behind an overflow begins with a character that fits behind `used` bytes. The text
written before the parts is `text`. -/
def NoneFitsAfterOverflow (used : Nat) (text : List Char) (parts : List String) : Prop :=
  ∀ before after, parts = before ++ after →
    maxSize < size (text ++ before.flatMap String.toList) → NoneFitsBehind used after

theorem noneFitsAfterOverflow_cons_of_le {used : Nat} {text : List Char} {part : String}
    {parts : List String} (h : size (text ++ part.toList) ≤ maxSize) :
    NoneFitsAfterOverflow used text (part :: parts) ↔
      NoneFitsAfterOverflow used (text ++ part.toList) parts := by
  constructor
  · intro hnone before after hparts hover
    apply hnone (part :: before) after (by rw [hparts, List.cons_append])
    rwa [List.flatMap_cons, ← List.append_assoc]
  · intro hnone before after hparts hover
    cases before with
    | nil =>
      rw [List.flatMap_nil, List.append_nil] at hover
      rw [size_append] at h
      omega
    | cons first before =>
      rw [List.cons_append, List.cons.injEq] at hparts
      obtain ⟨rfl, hparts⟩ := hparts
      apply hnone before after hparts
      rwa [List.flatMap_cons, ← List.append_assoc] at hover

theorem noneFitsAfterOverflow_cons_of_lt {used : Nat} {text : List Char} {part : String}
    {parts : List String} (htext : size text ≤ maxSize)
    (h : maxSize < size (text ++ part.toList)) :
    NoneFitsAfterOverflow used text (part :: parts) ↔ NoneFitsBehind used parts := by
  constructor
  · intro hnone
    apply hnone [part] parts rfl
    rwa [List.flatMap_singleton]
  · intro hnone before after hparts hover
    cases before with
    | nil =>
      rw [List.flatMap_nil, List.append_nil] at hover
      omega
    | cons first before =>
      rw [List.cons_append, List.cons.injEq] at hparts
      obtain ⟨rfl, rfl⟩ := hparts
      intro later hlater
      exact hnone later (List.mem_append_right before hlater)

/-- What is written to a text that fits is the longest front of it and the parts that fits, and
what finds room behind that. -/
theorem written_eq (parts : List String) {text : List Char} (htext : size text ≤ maxSize) :
    ∃ front rest, front = fitting maxSize (text ++ parts.flatMap String.toList) ∧
      written text parts = front ++ rest ∧ size (front ++ rest) ≤ maxSize ∧ size rest ≤ 3 ∧
      (rest = [] ↔ NoneFitsAfterOverflow (size front) text parts) := by
  induction parts generalizing text with
  | nil =>
    refine ⟨text, [], ?_, (List.append_nil text).symm, ?_, Nat.zero_le _, ?_⟩
    · rw [List.flatMap_nil, List.append_nil, fitting_of_le htext]
    · rwa [List.append_nil]
    · refine ⟨fun _ before after hparts _ part hpart => ?_, fun _ => rfl⟩
      rw [(List.append_eq_nil_iff.mp hparts.symm).2] at hpart
      cases hpart
  | cons part parts ih =>
    have happend : append text part.toList = fitting maxSize (text ++ part.toList) :=
      (fitting_append htext _).symm
    rw [List.flatMap_cons, ← List.append_assoc, written_cons, happend]
    by_cases hfits : size (text ++ part.toList) ≤ maxSize
    · rw [fitting_of_le hfits]
      simp only [noneFitsAfterOverflow_cons_of_le hfits]
      exact ih hfits
    · -- the part overflows, and what comes behind is only appended
      have hover := Nat.lt_of_not_le hfits
      rw [fitting_append_of_lt hover]
      obtain ⟨rest, hwritten, hsize, hrest⟩ :=
        written_grows parts (size_fitting_le maxSize (text ++ part.toList))
      refine ⟨_, rest, rfl, hwritten, hsize, ?_, ?_⟩
      · have hleft := lt_size_fitting_add hover
        rw [size_append] at hsize
        omega
      · rw [hrest, noneFitsAfterOverflow_cons_of_lt htext hover]

theorem ofParts_eq (parts : List String) : ofParts parts = String.ofList (written [] parts) := rfl

/-- A part adds the longest front of itself that fits into the room that is left. -/
theorem ofParts_append (before : List String) (part : String) :
    ∃ added, ofParts (before ++ [part]) = ofParts before ++ added ∧
      IsTruncation (maxSize - (ofParts before).utf8ByteSize) part added := by
  have hwritten : written [] (before ++ [part]) = append (written [] before) part.toList := by
    rw [written, List.map_append, List.foldl_append]
    rfl
  refine ⟨_, ?_, isTruncation_fitting _ part⟩
  rw [ofParts_eq, hwritten, append, String.ofList_append, ← utf8ByteSize_ofList]
  rfl

end Message

theorem IsTruncation.append_iff {limit : Nat} {text front rest : String}
    (h : IsTruncation limit text front) :
    IsTruncation limit text (front ++ rest) ↔ rest = "" := by
  constructor
  · intro hall
    have hsize := h.longest _ hall.front hall.fits
    rw [String.utf8ByteSize_append] at hsize
    exact String.utf8ByteSize_eq_zero_iff.mp (by omega)
  · rintro rfl
    rwa [String.append_empty]

namespace Journal

open Message

/-- The message of a record that is kept is made of the longest front of the text that fits and of
at most three bytes behind it. It is that front alone exactly if no part behind an overflow begins
with a character that fits behind the front. Each part has added the longest front of itself that
fitted into the room left by those before. -/
theorem recorded_truncation_iff (j : Journal) (level : Level) (now : Instant) (component : String)
    (parts : List String) (hkept : j.records level = true) :
    ∃ front rest, IsTruncation maxSize (String.join parts) front ∧
      (j.write level now component parts).last = some ⟨level, now, component, front ++ rest⟩ ∧
      (front ++ rest).utf8ByteSize ≤ maxSize ∧ rest.utf8ByteSize ≤ 3 ∧
      (IsTruncation maxSize (String.join parts) (front ++ rest) ↔
        ∀ before after, parts = before ++ after → maxSize < (String.join before).utf8ByteSize →
          ∀ part ∈ after, ∀ c ∈ part.toList.head?, maxSize < front.utf8ByteSize + c.utf8Size) ∧
      front ++ rest = ofParts parts ∧
      ∀ before part, ∃ added, ofParts (before ++ [part]) = ofParts before ++ added ∧
        IsTruncation (maxSize - (ofParts before).utf8ByteSize) part added := by
  have hnone : size [] ≤ maxSize := Nat.zero_le _
  obtain ⟨front, rest, hfront, hwritten, hsize, hrest, hiff⟩ := written_eq parts hnone
  have htruncation : IsTruncation maxSize (String.join parts) (String.ofList front) := by
    rw [hfront, List.nil_append, ← String.toList_join]
    exact isTruncation_fitting _ _
  have hmessage : String.ofList front ++ String.ofList rest = ofParts parts := by
    rw [ofParts_eq, hwritten, String.ofList_append]
  refine ⟨String.ofList front, String.ofList rest, htruncation, ?_, ?_, ?_, ?_, hmessage,
    ofParts_append⟩
  · rw [write, if_pos hkept, last_push, hmessage]
  · rwa [← String.ofList_append, utf8ByteSize_ofList]
  · rwa [utf8ByteSize_ofList]
  · rw [htruncation.append_iff, String.ofList_eq_empty_iff, hiff, utf8ByteSize_ofList]
    simp only [NoneFitsAfterOverflow, List.nil_append, ← String.toList_join, size_toList]
    rfl

/-- The first part leaves no byte, so no part behind it finds room. -/
theorem recorded_truncation_iff_exactFit :
    empty.records .error = true ∧
      ∃ message, (empty.write .error ⟨1⟩ "test"
          [String.ofList (List.replicate 96 'x'), "é", "y"]).last =
            some ⟨.error, ⟨1⟩, "test", message⟩ ∧
        IsTruncation maxSize (String.join [String.ofList (List.replicate 96 'x'), "é", "y"])
          message := by
  obtain ⟨front, rest, hfront, hlast, -, -, hiff, -⟩ := recorded_truncation_iff empty .error ⟨1⟩
    "test" [String.ofList (List.replicate 96 'x'), "é", "y"] rfl
  have hfull : maxSize ≤ front.utf8ByteSize := by
    have hsize : (String.ofList (List.replicate 96 'x')).utf8ByteSize = maxSize := by
      rw [utf8ByteSize_ofList]
      rfl
    have hfirst : (String.ofList (List.replicate 96 'x')).toList <+:
        (String.join [String.ofList (List.replicate 96 'x'), "é", "y"]).toList := by
      rw [String.toList_join, List.flatMap_cons]
      exact List.prefix_append _ _
    rw [← hsize]
    exact hfront.longest _ hfirst (Nat.le_of_eq hsize)
  refine ⟨rfl, front ++ rest, hlast, hiff.mpr ?_⟩
  intro before after _ _ part _ c _
  have hpos := c.utf8Size_pos
  omega

/-- A character of two bytes does not fit into the one byte that is left, but the character of the
next part does. -/
theorem stray_character_kept :
    (empty.write .error ⟨1⟩ "test" [String.ofList (List.replicate 95 'x'), "é", "y"]).last =
        some ⟨.error, ⟨1⟩, "test", String.ofList (List.replicate 95 'x' ++ ['y'])⟩ ∧
      ¬ IsTruncation maxSize (String.join [String.ofList (List.replicate 95 'x'), "é", "y"])
        (String.ofList (List.replicate 95 'x' ++ ['y'])) := by
  have hmessage : ofParts [String.ofList (List.replicate 95 'x'), "é", "y"] =
      String.ofList (List.replicate 95 'x' ++ ['y']) := by
    decide +kernel
  refine ⟨?_, ?_⟩
  · have hkept : empty.records .error = true := rfl
    rw [write, if_pos hkept, last_push, hmessage]
  · intro htruncation
    have hfront := htruncation.front
    rw [String.toList_join, List.flatMap_cons, String.toList_ofList, String.toList_ofList,
      List.prefix_append_right_inj] at hfront
    exact absurd hfront (by decide)

end Journal

end MeshSecurity
