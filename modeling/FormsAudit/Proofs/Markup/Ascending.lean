import FormsAudit.Proofs.Markup.Cutting
import FormsAudit.Proofs.Markup.Offset

/-!
# Places in the order of the offsets

A later offset never has an earlier place (`LineIndex.locate_mono`).  Nothing is asked of the index
but that its lines can be counted in 32 bits: the lines that start up to an offset are the last ones
of those that start up to a later one, so either there are fewer of them, or the latest is the same.
Offsets behind all that has been read are no exception.

For the lines of some first reads that is so if the input is shorter than 32 bits can tell and has a
byte that is no line feed.
-/

namespace FormsAudit.Markup

/-- The first place is the second or comes before it: on an earlier line, or in the same line no
further on. -/
def Precedes (first second : UInt32 × UInt32) : Prop :=
  Prod.Lex (· < ·) (· ≤ ·) first second

instance : DecidableRel Precedes := fun _ _ => decidable_of_iff _ (Prod.lex_def).symm

namespace LineIndex

theorem one_le_saturate {n : Nat} (h : 1 ≤ n) : 1 ≤ saturate n := by
  unfold saturate
  split
  · rename_i hsize
    rw [UInt32.le_iff_toNat_le]
    exact h.trans (Nat.mod_eq_of_lt hsize).ge
  · decide

/-- Lines and columns count from one. -/
theorem one_le_locate (index : LineIndex) (offset : Nat) :
    1 ≤ (index.locate offset).1 ∧ 1 ≤ (index.locate offset).2 :=
  ⟨one_le_saturate (Nat.le_max_right _ _), one_le_saturate (Nat.le_add_left _ _)⟩

theorem saturate_le {m n : Nat} (h : m ≤ n) : saturate m ≤ saturate n := by
  unfold saturate
  split
  · rename_i hm
    rw [UInt32.le_iff_toNat_le, show m.toUInt32.toNat = m from Nat.mod_eq_of_lt hm]
    split
    · rename_i hn
      exact h.trans (Nat.mod_eq_of_lt hn).ge
    · exact Nat.le_pred_of_lt hm
  · rename_i hm
    rw [if_neg fun hn => hm (h.trans_lt hn)]
    exact UInt32.le_refl _

theorem saturate_lt {m n : Nat} (h : m < n) (hn : n < UInt32.size) : saturate m < saturate n := by
  rw [UInt32.lt_iff_toNat_lt, toNat_saturate hn, toNat_saturate (h.trans hn)]
  exact h

/-- The lines that start no later than a position, latest first. -/
def linesUpTo (index : LineIndex) (position : Nat) : List Nat :=
  index.starts.dropWhile (position < ·)

/-- Where the line of a position starts, given the lines up to it. -/
def startOfLast (index : LineIndex) (lines : List Nat) : Nat :=
  lines.headD (index.starts.getLastD 0)

theorem locate_eq (index : LineIndex) (offset : Nat) :
    index.locate offset =
      (saturate (max (index.linesUpTo (offset + index.mark)).length 1),
        saturate (offset + index.mark -
          index.startOfLast (index.linesUpTo (offset + index.mark)) + 1)) := rfl

/-- The lines up to a position are the last ones of those up to a later position. -/
theorem linesUpTo_isSuffix (index : LineIndex) {position later : Nat} (h : position ≤ later) :
    index.linesUpTo position <:+ index.linesUpTo later := by
  unfold linesUpTo
  induction index.starts with
  | nil => exact List.suffix_rfl
  | cons start starts ih =>
    by_cases hlater : later < start
    · have hposition : position < start := h.trans_lt hlater
      rwa [List.dropWhile_cons_of_pos (by simpa using hposition),
        List.dropWhile_cons_of_pos (by simpa using hlater)]
    · rw [List.dropWhile_cons_of_neg (p := (later < ·)) (by simpa using hlater)]
      exact List.dropWhile_suffix _

/-- As long as they are not more, the lines up to a later position end with the same one. -/
theorem startOfLast_eq {index : LineIndex} {lines later : List Nat} (h : lines <:+ later)
    (hlater : later <:+ index.starts) (hlength : max later.length 1 ≤ max lines.length 1) :
    index.startOfLast lines = index.startOfLast later := by
  rcases eq_or_ne lines [] with rfl | hne
  · -- the first line is the only one up to the later position, if one starts there at all
    obtain ⟨others, hothers⟩ := hlater
    cases later with
    | nil => rfl
    | cons start rest =>
      obtain rfl : rest = [] := by
        cases rest with
        | nil => rfl
        | cons => simp at hlength
      simp [startOfLast, ← hothers]
  · have hpositive := List.length_pos_iff.mpr hne
    rw [h.eq_of_length_le (by omega)]

/-- **A later offset never has an earlier place.** -/
theorem locate_mono {index : LineIndex} (hlines : index.starts.length < UInt32.size)
    {offset later : Nat} (h : offset ≤ later) :
    Precedes (index.locate offset) (index.locate later) := by
  have hposition : offset + index.mark ≤ later + index.mark := Nat.add_le_add_right h _
  have hsuffix := index.linesUpTo_isSuffix hposition
  have hwhole : index.linesUpTo (later + index.mark) <:+ index.starts := List.dropWhile_suffix _
  have hlength := hsuffix.length_le
  have hbound := hwhole.length_le
  rw [Precedes, Prod.lex_def, locate_eq, locate_eq]
  rcases Nat.lt_or_ge (max (index.linesUpTo (offset + index.mark)).length 1)
      (max (index.linesUpTo (later + index.mark)).length 1) with hlt | hge
  · left
    exact saturate_lt hlt (by omega)
  · right
    refine ⟨congrArg saturate (by omega), ?_⟩
    rw [startOfLast_eq hsuffix hwhole hge]
    exact saturate_le (by omega)

/-! ## The lines of some reads -/

/-- There are no more lines than there are line feeds, and one. -/
theorem length_starts_le {source : Source} (hreads : ∀ read ∈ source.reads, read ≠ [])
    {reads : List (List UInt8)} (hpre : reads <+: source.reads) :
    (reads.foldl read .empty).starts.length ≤ source.bytes.count 0x0A + 1 := by
  obtain ⟨later, hlater⟩ := hpre
  have hpart : reads.flatten <+: source.bytes := by
    rw [Source.bytes, ← hlater, List.flatten_append]
    exact List.prefix_append _ _
  have hindex := @ofSource_eq ⟨reads, none⟩ (reads_of_isPrefix ⟨later, hlater⟩ hreads)
  calc (reads.foldl read .empty).starts.length
      = (ofSource ⟨reads, none⟩).starts.length := rfl
    _ = reads.flatten.count 0x0A + 1 := by
        rw [hindex]
        exact length_noteLines 0 _ _
    _ ≤ source.bytes.count 0x0A + 1 := by
        have hcount := hpart.sublist.count_le 0x0A
        omega

end LineIndex

end FormsAudit.Markup
