import FormsAudit.Markup.Position
import Mathlib.Data.List.Basic
import Mathlib.Data.List.Induction

/-!
# Lines and columns of a place

`lineColumn before` is the line and the column of the place that the bytes `before` lead up to, said
without any index: lines are ended by line feeds and columns count bytes.  The index that is built
read by read gives the same answer for every offset of the content of a source, whatever its reads
(`locate_ofSource`).

The one exception is a byte order mark of UTF-16.  The content leaves it out, but the index does not
know of it.
-/

namespace FormsAudit.Markup

/-- The line and the column, both from one, of the place after `before`. -/
def lineColumn (before : List UInt8) : Nat × Nat :=
  (before.count 0x0A + 1, (before.reverse.takeWhile (· ≠ 0x0A)).length + 1)

theorem lineColumn_concat (before : List UInt8) (byte : UInt8) :
    lineColumn (before ++ [byte]) =
      if byte = 0x0A then ((lineColumn before).1 + 1, 1)
      else ((lineColumn before).1, (lineColumn before).2 + 1) := by
  by_cases hbyte : byte = 0x0A
  · simp [lineColumn, hbyte, List.count_append]
  · simp [lineColumn, hbyte, List.count_append]

namespace LineIndex

/-! ## Starts of lines -/

theorem noteLines_append (consumed : Nat) (starts : List Nat) (first second : List UInt8) :
    noteLines consumed starts (first ++ second) =
      noteLines (consumed + first.length) (noteLines consumed starts first) second := by
  induction first generalizing consumed starts with
  | nil => rfl
  | cons byte rest ih =>
    simp only [List.cons_append, noteLines, ih, List.length_cons]
    congr 1
    omega

theorem length_noteLines (consumed : Nat) (starts : List Nat) (bytes : List UInt8) :
    (noteLines consumed starts bytes).length = bytes.count 0x0A + starts.length := by
  induction bytes generalizing consumed starts with
  | nil => simp [noteLines]
  | cons byte rest ih =>
    rw [noteLines, ih, List.count_cons]
    by_cases hbyte : byte = 0x0A
    · simp [hbyte]
      omega
    · simp [hbyte]

/-- The latest line starts as many bytes back as the column says. -/
theorem exists_head_noteLines (consumed : Nat) (starts : List Nat) (bytes : List UInt8) :
    ∃ start rest, noteLines consumed (consumed :: starts) bytes = start :: rest ∧
      start + (lineColumn bytes).2 = consumed + bytes.length + 1 := by
  induction bytes using List.reverseRecOn with
  | nil => exact ⟨consumed, starts, rfl, by simp [lineColumn]⟩
  | append_singleton bytes byte ih =>
    obtain ⟨start, rest, hnote, hstart⟩ := ih
    rw [noteLines_append, hnote, lineColumn_concat]
    by_cases hbyte : byte = 0x0A
    · -- a line feed begins a line right after it
      refine ⟨consumed + bytes.length + 1, start :: rest, ?_, ?_⟩
      · simp [noteLines, hbyte]
      · simp [hbyte]
        omega
    · refine ⟨start, rest, ?_, ?_⟩
      · simp [noteLines, hbyte]
      · simp [hbyte]
        omega

/-- Lines that start later than the bytes read so far are no answer. -/
theorem dropWhile_noteLines_of_le {position consumed : Nat} (h : position ≤ consumed)
    (starts : List Nat) (bytes : List UInt8) :
    (noteLines consumed starts bytes).dropWhile (position < ·) =
      starts.dropWhile (position < ·) := by
  induction bytes generalizing consumed starts with
  | nil => rfl
  | cons byte rest ih =>
    have hrest : position ≤ consumed + 1 := by omega
    rw [noteLines, ih hrest]
    split
    · apply List.dropWhile_cons_of_pos
      rw [decide_eq_true_eq]
      omega
    · rfl

/-- The lines that start no later than a position are those of the bytes before it. -/
theorem dropWhile_noteLines {position consumed : Nat} {starts : List Nat}
    (hstarts : starts.dropWhile (position < ·) = starts) (bytes : List UInt8) :
    (noteLines consumed starts bytes).dropWhile (position < ·) =
      noteLines consumed starts (bytes.take (position - consumed)) := by
  induction bytes generalizing consumed starts with
  | nil => simpa [noteLines] using hstarts
  | cons byte rest ih =>
    rcases Nat.lt_or_ge consumed position with hlt | hge
    · -- the byte is before the position, and a line that it begins starts there at the latest
      obtain ⟨left, hleft⟩ : ∃ left, position - consumed = left + 1 :=
        ⟨position - consumed - 1, by omega⟩
      rw [hleft, List.take_succ_cons, noteLines, noteLines, ih]
      · congr 2
        omega
      · split
        · apply List.dropWhile_cons_of_neg
          rw [decide_eq_true_eq]
          omega
        · exact hstarts
    · -- all bytes from here on are after the position
      rw [dropWhile_noteLines_of_le hge, hstarts, Nat.sub_eq_zero_of_le hge]
      rfl

/-! ## The index of a source -/

/-- Only the first bytes are searched for a byte order mark. -/
theorem foldl_read {index : LineIndex} {reads : List (List UInt8)}
    (h : 0 < index.consumed ∨ ¬ byteOrderMark <+: reads.flatten) :
    reads.foldl read index =
      ⟨index.consumed + reads.flatten.length, index.mark,
        noteLines index.consumed index.starts reads.flatten⟩ := by
  induction reads generalizing index with
  | nil => rfl
  | cons bytes rest ih =>
    have hread : index.read bytes =
        ⟨index.consumed + bytes.length, index.mark,
          noteLines index.consumed index.starts bytes⟩ := by
      rcases h with hpos | hmark
      · simp [read, show index.consumed ≠ 0 by omega]
      · have hbytes : ¬ byteOrderMark <+: bytes :=
          fun hpre => hmark (hpre.trans (by simp))
        simp [read, hbytes]
    -- an empty read leaves the next one to be the first
    have hlater : 0 < index.consumed + bytes.length ∨ ¬ byteOrderMark <+: rest.flatten := by
      cases bytes with
      | nil => simpa using h
      | cons byte bytes => exact .inl (by rw [List.length_cons]; omega)
    rw [List.foldl_cons, hread, ih hlater]
    simp [noteLines_append, Nat.add_assoc]

/-- The bytes of the mark of UTF-8 that a read begins with. -/
def markLength (bytes : List UInt8) : Nat :=
  if byteOrderMark.isPrefixOf bytes then byteOrderMark.length else 0

theorem ofSource_eq {source : Source} (hreads : ∀ bytes ∈ source.reads, bytes ≠ []) :
    ofSource source =
      ⟨source.bytes.length, markLength source.firstRead,
        noteLines 0 [markLength source.firstRead] source.bytes⟩ := by
  obtain ⟨reads, failure⟩ := source
  cases reads with
  | nil => rfl
  | cons first rest =>
    have hfirst : 0 < first.length :=
      List.length_pos_iff.mpr (hreads first (List.mem_cons_self ..))
    have hread : empty.read first =
        ⟨first.length, markLength first, noteLines 0 [markLength first] first⟩ := by
      unfold read markLength
      by_cases hmark : byteOrderMark.isPrefixOf first <;> simp [empty, hmark]
    simp only [ofSource, List.foldl_cons, hread]
    rw [foldl_read (.inl hfirst)]
    simp [Source.bytes, Source.firstRead, noteLines_append]

/-- The input begins with the mark that is found in its first bytes, if one is. -/
theorem take_markLength {opening bytes : List UInt8} (h : opening <+: bytes) :
    bytes.take (markLength opening) = byteOrderMark.take (markLength opening) := by
  unfold markLength
  split
  · rename_i hmark
    have hpre : byteOrderMark <+: bytes := (List.isPrefixOf_iff_prefix.mp hmark).trans h
    rw [← List.prefix_iff_eq_take.mp hpre, List.take_length]
  · rfl

/-- No line starts inside of the mark. -/
theorem noteLines_mark (bytes : List UInt8) :
    noteLines 0 [markLength bytes] (byteOrderMark.take (markLength bytes)) = [markLength bytes] ∧
      (byteOrderMark.take (markLength bytes)).length = markLength bytes := by
  unfold markLength
  split <;> exact ⟨rfl, rfl⟩

/-- Apart from the marks of UTF-16, the content leaves out what the index leaves out. -/
theorem mark_ofFirstRead {bytes : List UInt8} (h : (Signature.ofFirstRead bytes).mark ≠ 2) :
    (Signature.ofFirstRead bytes).mark = markLength bytes := by
  revert h
  unfold Signature.ofFirstRead markLength
  split
  · simp
  · simp
  · simp [byteOrderMark]
  · simp [byteOrderMark]
  · simp [byteOrderMark]
  · rename_i hother _ _
    intro _
    -- the mark of UTF-8 would have been found before
    have hmark : ¬ byteOrderMark.isPrefixOf bytes = true := by
      intro hmark
      obtain ⟨rest, rfl⟩ := List.isPrefixOf_iff_prefix.mp hmark
      exact hother rest rfl
    rw [if_neg hmark]

/-- The index of an input, with the mark that is found in its first bytes, gives every offset the
line and the column of its place, cut off at the largest number of 32 bits. -/
theorem locate_mk {opening bytes : List UInt8} (h : opening <+: bytes) {offset : Nat}
    (hoffset : offset ≤ (bytes.drop (markLength opening)).length) :
    locate ⟨bytes.length, markLength opening, noteLines 0 [markLength opening] bytes⟩ offset =
      (saturate (lineColumn ((bytes.drop (markLength opening)).take offset)).1,
        saturate (lineColumn ((bytes.drop (markLength opening)).take offset)).2) := by
  set mark := markLength opening with hset
  set content := bytes.drop mark with hcontent
  -- of all starts of lines, those up to the offset are those of the content before it
  have hstarts : (noteLines 0 [mark] bytes).dropWhile (offset + mark < ·) =
      noteLines mark [mark] (content.take offset) := by
    rw [dropWhile_noteLines (List.dropWhile_cons_of_neg (by simp)), Nat.sub_zero,
      Nat.add_comm offset mark, List.take_add, ← hcontent, noteLines_append, take_markLength h,
      (noteLines_mark _).1, (noteLines_mark _).2, Nat.zero_add]
  obtain ⟨start, rest, hnote, hstart⟩ := exists_head_noteLines mark [] (content.take offset)
  have hlength := length_noteLines mark [mark] (content.take offset)
  simp only [locate, hstarts, hnote, List.headD_cons]
  rw [List.length_take, Nat.min_eq_left hoffset] at hstart
  have hline : max (rest.length + 1) 1 = (lineColumn (content.take offset)).1 := by
    rw [hnote] at hlength
    simp only [List.length_cons, List.length_nil] at hlength
    simp only [lineColumn]
    omega
  have hcolumn : offset + mark - start + 1 = (lineColumn (content.take offset)).2 := by
    have hpositive : 0 < (lineColumn (content.take offset)).2 := Nat.succ_pos _
    omega
  rw [List.length_cons, hline, hcolumn]

/-- **An offset of the content has the line and the column of its place.**  They are cut off at the
largest number of 32 bits. -/
theorem locate_ofSource {source : Source} (hreads : ∀ bytes ∈ source.reads, bytes ≠ [])
    (hmark : source.signature.mark ≠ 2) {offset : Nat}
    (hoffset : offset ≤ source.content.length) :
    (ofSource source).locate offset =
      (saturate (lineColumn (source.content.take offset)).1,
        saturate (lineColumn (source.content.take offset)).2) := by
  have hcontent : source.content = source.bytes.drop (markLength source.firstRead) := by
    rw [Source.content, ← mark_ofFirstRead hmark]
    rfl
  have hopening : source.firstRead <+: source.bytes := by
    unfold Source.firstRead Source.bytes
    cases source.reads with
    | nil => exact List.prefix_rfl
    | cons first rest => exact List.prefix_append _ _
  rw [hcontent] at hoffset ⊢
  rw [ofSource_eq hreads, locate_mk hopening hoffset]

end LineIndex

end FormsAudit.Markup
