import FormsAudit.Proofs.Markup.Position

/-!
# Offsets while the input comes in

The index is asked for places before the input has come in as a whole.  `ofReads` is the index after
some reads, and `counted` the bytes that offsets count by then: all that was read but the mark.  As
long as no mark is cut by the end of the first read, the index gives each offset up to the end of
these bytes the line and the column of its place, and it gives the same answer after more reads.

Lines and columns are then as good as offsets: an offset can be computed back from them
(`offsetAt`), and a later offset has a later line, or a later column on the same line
(`lineColumn_lt`).
-/

namespace FormsAudit.Markup

/-! ## The last line of some bytes -/

/-- `StartsLastLine before start` says that `start` is the offset just after the last line feed of
`before`, or zero where there is none. -/
inductive StartsLastLine : List UInt8 → Nat → Prop
  | only {line : List UInt8} (h : 0x0A ∉ line) : StartsLastLine line 0
  | after (earlier : List UInt8) {line : List UInt8} (h : 0x0A ∉ line) :
      StartsLastLine (earlier ++ 0x0A :: line) (earlier.length + 1)

/-- Bytes without a line feed stay on the line. -/
theorem lineColumn_append (before : List UInt8) {line : List UInt8} (h : 0x0A ∉ line) :
    lineColumn (before ++ line) = ((lineColumn before).1, (lineColumn before).2 + line.length) := by
  induction line using List.reverseRecOn with
  | nil => simp
  | append_singleton line byte ih =>
    simp only [List.mem_append, List.mem_singleton, not_or] at h
    rw [← List.append_assoc, lineColumn_concat, if_neg (Ne.symm h.2), ih h.1, List.length_append]
    rfl

/-- The column counts from the start of the last line. -/
theorem StartsLastLine.start_add_column {before : List UInt8} {start : Nat}
    (h : StartsLastLine before start) : start + (lineColumn before).2 = before.length + 1 := by
  cases h with
  | only hline =>
    have hcolumn : (lineColumn before).2 = 1 + before.length :=
      congrArg Prod.snd (lineColumn_append [] hline)
    omega
  | after earlier hline =>
    have hcolumn := lineColumn_append (earlier ++ [0x0A]) hline
    rw [List.append_assoc, List.singleton_append] at hcolumn
    rw [hcolumn, lineColumn_concat, if_pos rfl]
    simp only [List.length_append, List.length_cons]
    omega

theorem exists_startsLastLine (before : List UInt8) : ∃ start, StartsLastLine before start := by
  induction before using List.reverseRecOn with
  | nil => exact ⟨0, .only List.not_mem_nil⟩
  | append_singleton before byte ih =>
    by_cases hbyte : byte = 0x0A
    · exact ⟨before.length + 1, hbyte ▸ .after before List.not_mem_nil⟩
    · have hlonger {line : List UInt8} (hline : 0x0A ∉ line) : 0x0A ∉ line ++ [byte] := by
        simp [hline, Ne.symm hbyte]
      obtain ⟨start, hstart⟩ := ih
      cases hstart with
      | only hline => exact ⟨0, .only (hlonger hline)⟩
      | after earlier hline =>
        refine ⟨earlier.length + 1, ?_⟩
        rw [List.append_assoc, List.cons_append]
        exact .after earlier (hlonger hline)

/-! ## Lines and columns in order -/

/-- More bytes end on a later line, or further on in the same line. -/
theorem lineColumn_lt (before : List UInt8) {further : List UInt8} (h : further ≠ []) :
    Prod.Lex (· < ·) (· < ·) (lineColumn before) (lineColumn (before ++ further)) := by
  by_cases hfeed : 0x0A ∈ further
  · have hcount : 0 < further.count 0x0A := List.count_pos_iff.mpr hfeed
    rw [Prod.lex_def]
    exact .inl (by simp only [lineColumn, List.count_append]; omega)
  · have hlength : 0 < further.length := List.length_pos_iff.mpr h
    rw [lineColumn_append before hfeed, Prod.lex_def]
    exact .inr ⟨rfl, Nat.lt_add_of_pos_right hlength⟩

/-! ## Back to the offset -/

/-- Where the line of a number starts, the first line being the one of number one. -/
def lineStart : List UInt8 → Nat → Nat
  | [], _ => 0
  | byte :: rest, line =>
    if line ≤ 1 then 0 else lineStart rest (if byte = 0x0A then line - 1 else line) + 1

/-- The offset of a line and a column. -/
def offsetAt (content : List UInt8) (line column : Nat) : Nat :=
  lineStart content line + (column - 1)

/-- The line that the bytes before a place end on is found among all bytes. -/
theorem lineStart_of_startsLastLine {before : List UInt8} {start : Nat}
    (h : StartsLastLine before start) (rest : List UInt8) :
    lineStart (before ++ rest) (lineColumn before).1 = start := by
  cases h with
  | only hline =>
    rw [show (lineColumn before).1 = 1 by simp [lineColumn, List.count_eq_zero.mpr hline]]
    cases before ++ rest <;> simp [lineStart]
  | after earlier hline =>
    rename_i line
    have hnumber : (lineColumn (earlier ++ 0x0A :: line)).1 = earlier.count 0x0A + 2 := by
      simp [lineColumn, List.count_eq_zero.mpr hline]
    rw [hnumber, List.append_assoc, List.cons_append]
    clear hnumber hline
    -- each byte before the last line feed is passed, and each line feed among them counted
    induction earlier with
    | nil => cases line ++ rest <;> simp [lineStart]
    | cons byte earlier ih =>
      rw [List.cons_append, lineStart, if_neg (by omega), List.length_cons, List.count_cons]
      by_cases hbyte : byte = 0x0A
      · simpa [hbyte] using ih
      · simpa [hbyte] using ih

theorem offsetAt_lineColumn (before rest : List UInt8) :
    offsetAt (before ++ rest) (lineColumn before).1 (lineColumn before).2 = before.length := by
  obtain ⟨start, hstart⟩ := exists_startsLastLine before
  have hcolumn := hstart.start_add_column
  have hpositive : 0 < (lineColumn before).2 := Nat.succ_pos _
  rw [offsetAt, lineStart_of_startsLastLine hstart]
  omega

namespace LineIndex

/-! ## The index after some reads -/

/-- The index after some reads. -/
def ofReads (reads : List (List UInt8)) : LineIndex :=
  reads.foldl read empty

/-- The bytes that offsets count after some reads. -/
def counted (reads : List (List UInt8)) : List UInt8 :=
  reads.flatten.drop (markLength reads.flatten)

/-- A byte order mark at the beginning of the input, if there is one, lies in the first read. -/
def MarkInFirst (reads : List (List UInt8)) : Prop :=
  byteOrderMark <+: reads.flatten → byteOrderMark <+: reads.headD []

variable {reads later : List (List UInt8)}

/-- What holds of a mark in the whole input holds of it in the reads so far. -/
theorem MarkInFirst.of_append (h : MarkInFirst (reads ++ later)) : MarkInFirst reads := by
  intro hmark
  have hwhole : byteOrderMark <+: (reads ++ later).headD [] :=
    h (hmark.trans (by simp))
  cases reads with
  | nil => exact absurd hmark (by decide)
  | cons first rest => simpa using hwhole

theorem ofReads_eq (h : MarkInFirst reads) :
    ofReads reads =
      ⟨reads.flatten.length, markLength reads.flatten,
        noteLines 0 [markLength reads.flatten] reads.flatten⟩ := by
  by_cases hmark : byteOrderMark <+: reads.flatten
  · have hhead : byteOrderMark <+: reads.headD [] := h hmark
    cases reads with
    | nil => exact absurd hmark (by decide)
    | cons first rest =>
      rw [List.headD_cons] at hhead
      have hfirst : 0 < first.length := Nat.lt_of_lt_of_le (by decide) hhead.length_le
      have hread : empty.read first =
          ⟨first.length, byteOrderMark.length, noteLines 0 [byteOrderMark.length] first⟩ := by
        simp [read, empty, hhead]
      have hlength : markLength (first :: rest).flatten = byteOrderMark.length :=
        if_pos (List.isPrefixOf_iff_prefix.mpr hmark)
      rw [ofReads, List.foldl_cons, hread, foldl_read (.inl hfirst), hlength]
      simp [noteLines_append]
  · have hlength : markLength reads.flatten = 0 :=
      if_neg (fun h => hmark (List.isPrefixOf_iff_prefix.mp h))
    rw [ofReads, foldl_read (.inr hmark), hlength]
    simp [empty]

/-- The bytes counted so far stay the first ones that are counted. -/
theorem counted_isPrefix (h : MarkInFirst (reads ++ later)) :
    counted reads <+: counted (reads ++ later) := by
  by_cases hmark : byteOrderMark <+: (reads ++ later).flatten
  · cases reads with
    | nil => simp [counted]
    | cons first rest =>
      have hhead : byteOrderMark <+: (first :: rest).flatten :=
        (show byteOrderMark <+: first by simpa using h hmark).trans (by simp)
      simp only [counted, markLength, List.isPrefixOf_iff_prefix.mpr hmark,
        List.isPrefixOf_iff_prefix.mpr hhead, if_true]
      rw [List.flatten_append, List.drop_append_of_le_length hhead.length_le]
      exact List.prefix_append _ _
  · have hpart : ¬ byteOrderMark <+: reads.flatten := fun hpart => hmark (hpart.trans (by simp))
    simp only [counted, markLength, List.isPrefixOf_iff_prefix, if_neg hmark, if_neg hpart,
      List.drop_zero]
    rw [List.flatten_append]
    exact List.prefix_append _ _

theorem locate_ofReads (h : MarkInFirst reads) {offset : Nat}
    (hoffset : offset ≤ (counted reads).length) :
    (ofReads reads).locate offset =
      (saturate (lineColumn ((counted reads).take offset)).1,
        saturate (lineColumn ((counted reads).take offset)).2) := by
  rw [ofReads_eq h, locate_mk List.prefix_rfl hoffset, counted]

/-- The line and the column of an offset are numbers of 32 bits. -/
def Fits (content : List UInt8) (offset : Nat) : Prop :=
  (lineColumn (content.take offset)).1 < UInt32.size ∧
    (lineColumn (content.take offset)).2 < UInt32.size

theorem toNat_saturate {n : Nat} (h : n < UInt32.size) : (saturate n).toNat = n := by
  rw [saturate, if_pos h]
  exact Nat.mod_eq_of_lt h

/-- `Places index content` says that the index places the offsets of `content`. -/
structure Places (index : LineIndex) (content : List UInt8) : Prop where
  /-- The line counts the line feeds before the offset, the column counts from the last of them. -/
  place : ∀ offset ≤ content.length, Fits content offset →
    ∃ start, StartsLastLine (content.take offset) start ∧
      (index.locate offset).1.toNat = 1 + (content.take offset).count 0x0A ∧
      (index.locate offset).2.toNat = 1 + offset - start
  /-- The offset is found again by the line and the column. -/
  recovered : ∀ offset ≤ content.length, Fits content offset →
    offsetAt content (index.locate offset).1.toNat (index.locate offset).2.toNat = offset
  /-- A later offset has a later place. -/
  increasing : ∀ offset next, offset < next → next ≤ content.length →
    Fits content offset → Fits content next →
      Prod.Lex (· < ·) (· < ·) (index.locate offset) (index.locate next)

/-- An index that gives lines and columns as they are counted in `content` places its offsets. -/
theorem places_of_locate {index : LineIndex} {content : List UInt8}
    (h : ∀ offset ≤ content.length, index.locate offset =
      (saturate (lineColumn (content.take offset)).1,
        saturate (lineColumn (content.take offset)).2)) :
    Places index content := by
  have hnumbers : ∀ offset ≤ content.length, Fits content offset →
      (index.locate offset).1.toNat = (lineColumn (content.take offset)).1 ∧
        (index.locate offset).2.toNat = (lineColumn (content.take offset)).2 := by
    intro offset hoffset hfits
    rw [h offset hoffset]
    exact ⟨toNat_saturate hfits.1, toNat_saturate hfits.2⟩
  refine ⟨?_, ?_, ?_⟩
  · intro offset hoffset hfits
    obtain ⟨start, hstart⟩ := exists_startsLastLine (content.take offset)
    obtain ⟨hline, hcolumn⟩ := hnumbers offset hoffset hfits
    have hsum := hstart.start_add_column
    rw [List.length_take, Nat.min_eq_left hoffset] at hsum
    refine ⟨start, hstart, ?_, ?_⟩
    · rw [hline, lineColumn, Nat.add_comm]
    · rw [hcolumn]
      omega
  · intro offset hoffset hfits
    obtain ⟨hline, hcolumn⟩ := hnumbers offset hoffset hfits
    have hback := offsetAt_lineColumn (content.take offset) (content.drop offset)
    rwa [List.take_append_drop, List.length_take, Nat.min_eq_left hoffset, ← hline,
      ← hcolumn] at hback
  · intro offset next hlt hnext hfits hfits'
    obtain ⟨hline, hcolumn⟩ := hnumbers offset (by omega) hfits
    obtain ⟨hline', hcolumn'⟩ := hnumbers next hnext hfits'
    have hmore : content.take next =
        content.take offset ++ (content.drop offset).take (next - offset) := by
      rw [← List.take_add, Nat.add_sub_of_le (Nat.le_of_lt hlt)]
    have hne : (content.drop offset).take (next - offset) ≠ [] := by
      apply List.ne_nil_of_length_pos
      rw [List.length_take, List.length_drop]
      omega
    have hlex := lineColumn_lt (content.take offset) hne
    rw [← hmore] at hlex
    -- from numbers without a bound to those of 32 bits
    rw [Prod.lex_def] at hlex ⊢
    simp only [UInt32.lt_iff_toNat_lt, ← UInt32.toNat_inj]
    rwa [hline, hline', hcolumn, hcolumn']

/-- **Offsets have the places that are counted in what was read, and keep them.**  The mark of the
input, if it has one, has to lie in the first read. -/
theorem ofReads_places (h : MarkInFirst (reads ++ later)) :
    Places (ofReads reads) (counted reads) ∧
      ∀ offset ≤ (counted reads).length,
        (ofReads (reads ++ later)).locate offset = (ofReads reads).locate offset := by
  have hreads : MarkInFirst reads := h.of_append
  refine ⟨places_of_locate fun offset hoffset => locate_ofReads hreads hoffset, ?_⟩
  intro offset hoffset
  obtain ⟨rest, hrest⟩ := counted_isPrefix h
  have hwhole : offset ≤ (counted (reads ++ later)).length := by
    rw [← hrest, List.length_append]
    omega
  rw [locate_ofReads h hwhole, locate_ofReads hreads hoffset, ← hrest,
    List.take_append_of_le_length hoffset]

/-- A mark in the first read, whose line goes on in the second. -/
theorem ofReads_places_marked :
    Places (ofReads [[0xEF, 0xBB, 0xBF, 0x61, 0x0A], [0x62]]) [0x61, 0x0A, 0x62] ∧
      ∀ offset ≤ 3,
        (ofReads ([[0xEF, 0xBB, 0xBF, 0x61, 0x0A], [0x62]] ++ [[0x0A], [0x63]])).locate offset =
          (ofReads [[0xEF, 0xBB, 0xBF, 0x61, 0x0A], [0x62]]).locate offset :=
  ofReads_places fun _ => by decide

end LineIndex

end FormsAudit.Markup
