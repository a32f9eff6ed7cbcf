import FormsAudit.CapturedLog
import FormsAudit.Proofs.Text.Numeral
import Mathlib.Data.List.TakeWhile

/-!
# What is written to a log is read back

A log is a sequence of blocks with other lines between them (`Segment`).  Reading it gives one
finding for each block, in order, and none for the other lines (`parse_textOf`).

What makes a line the first of a block is its beginning alone (`heading?_eq_some_iff`), so a line
that has no such beginning is passed over wherever it stands, and the second and third line of a
block are used up with it whatever they look like.  That is one step of `blocks` for each segment.
-/

namespace FormsAudit.CapturedLog

/-! ## First lines -/

theorem cutAtColon?_eq_some_iff {text first rest : List Char} :
    cutAtColon? text = some (first, rest) ↔ text = first ++ ':' :: rest ∧ ':' ∉ first := by
  constructor
  · intro h
    have hsplit : text = text.takeWhile (· ≠ ':') ++ text.dropWhile (· ≠ ':') :=
      List.takeWhile_append_dropWhile.symm
    unfold cutAtColon? at h
    split at h
    · cases h
    · rename_i c tail htail
      obtain ⟨hfirst, rfl⟩ := Prod.mk.inj (Option.some.inj h)
      have hc : c = ':' := by
        have hnot := List.head?_dropWhile_not (· ≠ ':') text
        rw [htail] at hnot
        simpa using hnot
      rw [htail, hc, hfirst] at hsplit
      refine ⟨hsplit, fun hmem => ?_⟩
      rw [← hfirst] at hmem
      simpa using List.mem_takeWhile_imp hmem
  · rintro ⟨rfl, hfirst⟩
    have hall : ∀ c ∈ first, decide (c ≠ ':') = true := by
      intro c hc
      exact decide_eq_true fun h => hfirst (h ▸ hc)
    rw [cutAtColon?, List.dropWhile_append_of_pos hall, List.takeWhile_append_of_pos hall]
    simp

/-- The line begins as the first line of a block does: with a name, a number in digits of any
script and a third part, each ended by a colon. -/
def BeginsBlock (line : List Char) : Prop :=
  ∃ file digits kind rest, line = file ++ ':' :: (digits ++ ':' :: (kind ++ ':' :: rest)) ∧
    (file ≠ [] ∧ ':' ∉ file) ∧ (digits ≠ [] ∧ ∀ c ∈ digits, Unicode.isDecimalDigit c = true) ∧
    ':' ∉ kind

theorem heading?_eq_some_iff {line : List Char} {heading : LogHeading} :
    heading? line = some heading ↔ ∃ file digits kind rest,
      line = file ++ ':' :: (digits ++ ':' :: (kind ++ ':' :: rest)) ∧
      (file ≠ [] ∧ ':' ∉ file) ∧
      (digits ≠ [] ∧ ∀ c ∈ digits, Unicode.isDecimalDigit c = true) ∧
      ':' ∉ kind ∧
      heading = ⟨file, digits, ((kind.dropWhile isGap).reverse.dropWhile isGap).reverse,
        rest.dropWhile isGap⟩ := by
  constructor
  · intro h
    simp only [heading?, Option.bind_eq_bind, Option.bind_eq_some_iff, Prod.exists,
      cutAtColon?_eq_some_iff, Option.ite_none_left_eq_some, Option.some.injEq] at h
    obtain ⟨file, _, ⟨rfl, hfile⟩, digits, _, ⟨rfl, hdigits⟩, kind, rest, ⟨rfl, hkind⟩, hshape,
      rfl⟩ := h
    simp only [Bool.or_eq_true, not_or, List.isEmpty_iff, Bool.not_eq_true', Bool.not_eq_false,
      List.all_eq_true] at hshape
    obtain ⟨⟨hfileNe, hdigitsNe⟩, hall⟩ := hshape
    exact ⟨file, digits, kind, rest, rfl, ⟨hfileNe, hfile⟩, ⟨hdigitsNe, hall⟩, hkind, rfl⟩
  · rintro ⟨file, digits, kind, rest, rfl, ⟨hfileNe, hfile⟩, ⟨hdigitsNe, hall⟩, hkind, rfl⟩
    have hdigits : ':' ∉ digits := by
      intro hmem
      have hcolon : Unicode.isDecimalDigit ':' = false := by decide
      rw [hall ':' hmem] at hcolon
      cases hcolon
    have hcut : ∀ first rest, ':' ∉ first →
        cutAtColon? (first ++ ':' :: rest) = some (first, rest) := fun _ _ h =>
      cutAtColon?_eq_some_iff.mpr ⟨rfl, h⟩
    simpa [heading?, hcut, hfile, hdigits, hkind] using And.intro ⟨hfileNe, hdigitsNe⟩ hall

theorem isSome_heading?_iff {line : List Char} : (heading? line).isSome ↔ BeginsBlock line := by
  rw [Option.isSome_iff_exists]
  constructor
  · rintro ⟨heading, h⟩
    obtain ⟨file, digits, kind, rest, hline, hfile, hdigits, hkind, -⟩ := heading?_eq_some_iff.mp h
    exact ⟨file, digits, kind, rest, hline, hfile, hdigits, hkind⟩
  · rintro ⟨file, digits, kind, rest, hline, hfile, hdigits, hkind⟩
    exact ⟨_, heading?_eq_some_iff.mpr ⟨file, digits, kind, rest, hline, hfile, hdigits, hkind, rfl⟩⟩

instance (line : List Char) : Decidable (BeginsBlock line) :=
  decidable_of_iff _ isSome_heading?_iff

theorem content?_eq_some {line : List Char} (h : '\r' ∉ line) : content? line = some line := by
  have hlast : line.getLast? ≠ some '\r' := fun hlast => h (List.mem_of_getLast? hlast)
  simp [content?, hlast, h]

theorem exists_of_content?_eq_some {line content : List Char} (h : content? line = some content) :
    '\r' ∉ content ∧ ∃ ending, line = content ++ ending := by
  simp only [content?, Option.ite_none_left_eq_some, Option.some.injEq] at h
  obtain ⟨hplain, rfl⟩ := h
  refine ⟨by simpa using hplain, ?_⟩
  split
  · rename_i hlast
    exact ⟨['\r'], (List.dropLast_append_getLast? '\r' hlast).symm⟩
  · exact ⟨[], (List.append_nil line).symm⟩

/-- A carriage return at its end does not make a line the first of a block. -/
theorem not_beginsBlock_content? {line content : List Char} (h : ¬ BeginsBlock line)
    (hcontent : content? line = some content) : ¬ BeginsBlock content := by
  obtain ⟨-, ending, rfl⟩ := exists_of_content?_eq_some hcontent
  rintro ⟨file, digits, kind, rest, rfl, hshape⟩
  exact h ⟨file, digits, kind, rest ++ ending, by simp, hshape⟩

/-! ## Steps -/

theorem block?_eq_none {first : List Char} (h : ¬ BeginsBlock first) (second third : List Char) :
    block? first second third = none := by
  have hheading : (content? first).bind heading? = none := by
    rw [Option.bind_eq_none_iff]
    intro content hcontent
    rw [← Option.not_isSome_iff_eq_none, isSome_heading?_iff]
    exact not_beginsBlock_content? h hcontent
  simp [block?, hheading]

/-- A line that does not begin a block is passed over. -/
theorem blocks_cons {line : List Char} (h : ¬ BeginsBlock line) (lines : List (List Char)) :
    blocks (line :: lines) = blocks lines := by
  match lines with
  | [] => simp [blocks]
  | [second] => simp [blocks]
  | second :: third :: rest => rw [blocks, block?_eq_none h]

/-! ## Logs -/

/-- What the lint tool writes about one problem. -/
structure Problem where
  file : List Char
  /-- The digits of the line number. -/
  digits : List Char
  /-- The line number. -/
  number : UInt32
  kind : List Char
  message : List Char
  /-- The line of the source. -/
  source : List Char
  /-- What stands before the caret. -/
  indent : List Char
  /-- What stands after the caret. -/
  rest : List Char

/-- None of the characters occurs in the text. -/
def Avoids (text characters : List Char) : Prop :=
  ∀ c ∈ characters, c ∉ text

instance (text characters : List Char) : Decidable (Avoids text characters) :=
  List.decidableBAll (fun c => c ∉ text) characters

/-- The text does not begin with a character that `blank` tells. -/
def StartsClear (blank : Char → Bool) (text : List Char) : Prop :=
  ∀ c ∈ text.head?, blank c = false

/-- The text does not end with a character that `blank` tells. -/
def EndsClear (blank : Char → Bool) (text : List Char) : Prop :=
  StartsClear blank text.reverse

theorem startsClear_nil (blank : Char → Bool) : StartsClear blank [] := by
  simp [StartsClear]

theorem startsClear_cons {blank : Char → Bool} {c : Char} {text : List Char} :
    StartsClear blank (c :: text) ↔ blank c = false := by
  simp [StartsClear]

instance (blank : Char → Bool) : DecidablePred (StartsClear blank)
  | [] => isTrue (startsClear_nil blank)
  | _ :: _ => decidable_of_iff _ startsClear_cons.symm

instance (blank : Char → Bool) (text : List Char) : Decidable (EndsClear blank text) :=
  inferInstanceAs (Decidable (StartsClear blank text.reverse))

theorem dropWhile_eq_self {blank : Char → Bool} {text : List Char} (h : StartsClear blank text) :
    text.dropWhile blank = text := by
  cases text with
  | nil => rfl
  | cons c text => exact List.dropWhile_cons_of_neg (by simp [startsClear_cons.mp h])

theorem reverse_dropWhile_reverse {blank : Char → Bool} {text : List Char}
    (h : EndsClear blank text) : (text.reverse.dropWhile blank).reverse = text := by
  rw [dropWhile_eq_self h, List.reverse_reverse]

/-- Spaces around a text without gaps at its ends are all that is taken from it. -/
theorem trim_spaced {text : List Char} (hstart : StartsClear isGap text)
    (hend : EndsClear isGap text) :
    (((' ' :: text ++ [' ']).dropWhile isGap).reverse.dropWhile isGap).reverse = text := by
  have hspace : isGap ' ' = true := by decide
  cases text with
  | nil => decide
  | cons c rest =>
    have hc : isGap c = false := startsClear_cons.mp hstart
    calc (((' ' :: (c :: rest) ++ [' ']).dropWhile isGap).reverse.dropWhile isGap).reverse
        = ((c :: rest ++ [' ']).reverse.dropWhile isGap).reverse := by
          simp [hspace, hc]
      _ = ((c :: rest).reverse.dropWhile isGap).reverse := by
          rw [List.reverse_append, List.reverse_singleton, List.singleton_append,
            List.dropWhile_cons_of_pos hspace]
      _ = c :: rest := reverse_dropWhile_reverse hend

namespace Problem

/-- The first line of the block. -/
def heading (problem : Problem) : List Char :=
  problem.file ++ ':' :: (problem.digits ++ ':' :: (' ' :: problem.kind ++ [' '] ++
    ':' :: ' ' :: problem.message))

/-- The third line of the block. -/
def pointer (problem : Problem) : List Char :=
  problem.indent ++ '^' :: problem.rest

/-- The block that is read from the three lines: gaps at the ends of the kind and before the message
are not kept. -/
def readBlock (problem : Problem) : LogBlock :=
  ⟨⟨problem.file, problem.digits,
    (((' ' :: problem.kind ++ [' ']).dropWhile isGap).reverse.dropWhile isGap).reverse,
    (' ' :: problem.message).dropWhile isGap⟩, problem.indent.length⟩

/-- Whether the three lines are a block at all. -/
@[mk_iff]
structure Readable (problem : Problem) : Prop where
  file_ne_nil : problem.file ≠ []
  file_avoids : Avoids problem.file [':', '\r', '\n']
  writes : Numeral.Writes 10 problem.digits problem.number.toNat
  kind_avoids : Avoids problem.kind [':', '\r', '\n']
  message_avoids : Avoids problem.message ['\r', '\n']
  source_avoids : Avoids problem.source ['\r', '\n']
  indent_gaps : problem.indent.all isGap = true
  rest_plain : '\n' ∉ problem.rest

instance (problem : Problem) : Decidable problem.Readable :=
  decidable_of_iff _ (readable_iff problem).symm

namespace Readable

variable {problem : Problem} (h : problem.Readable)

include h

theorem isDecimalDigit : ∀ c ∈ problem.digits, Unicode.isDecimalDigit c = true := by
  have hdigit : ∀ value < 10, Unicode.isDecimalDigit (Nat.digitChar value) = true ∧
      Unicode.isDecimalDigit (Nat.digitChar value).toUpper = true := by
    decide
  intro c hc
  obtain ⟨value, hvalue, rfl | rfl⟩ := h.writes.isDigit c hc
  · exact (hdigit value hvalue).1
  · exact (hdigit value hvalue).2

theorem heading?_eq_some : heading? problem.heading = some problem.readBlock.heading := by
  rw [heading?_eq_some_iff]
  refine ⟨problem.file, problem.digits, ' ' :: problem.kind ++ [' '], ' ' :: problem.message, rfl,
    ⟨h.file_ne_nil, h.file_avoids ':' (by simp)⟩, ⟨h.writes.1, h.isDecimalDigit⟩, ?_, rfl⟩
  simpa using h.kind_avoids ':' (by simp)

theorem notMem_heading {c : Char} (hc : c ∈ ['\r', '\n']) : c ∉ problem.heading := by
  have hfile : c ∉ problem.file := h.file_avoids c (by grind)
  have hkind : c ∉ problem.kind := h.kind_avoids c (by grind)
  have hmessage : c ∉ problem.message := h.message_avoids c hc
  have hdigits : c ∉ problem.digits := by
    intro hmem
    have hdigit := h.isDecimalDigit c hmem
    rcases List.mem_pair.mp hc with rfl | rfl <;> revert hdigit <;> decide
  have hmarks : c ≠ ':' ∧ c ≠ ' ' := by
    rcases List.mem_pair.mp hc with rfl | rfl <;> decide
  simp [heading, hfile, hdigits, hkind, hmessage, hmarks]

theorem notMem_pointer : '\n' ∉ problem.pointer := by
  have hindent : '\n' ∉ problem.indent := fun hmem => by
    have hgap := List.all_eq_true.mp h.indent_gaps '\n' hmem
    revert hgap
    decide
  simp [pointer, hindent, h.rest_plain]

theorem notMem_of_mem_lines {line : List Char}
    (hline : line ∈ [problem.heading, problem.source, problem.pointer]) : '\n' ∉ line := by
  simp only [List.mem_cons, List.not_mem_nil, or_false] at hline
  rcases hline with rfl | rfl | rfl
  · exact h.notMem_heading (by simp)
  · exact h.source_avoids '\n' (by simp)
  · exact h.notMem_pointer

theorem indent?_pointer : indent? problem.pointer = some problem.indent.length := by
  have hcaret : ∀ rest, ('^' :: rest).dropWhile isGap = '^' :: rest ∧
      ('^' :: rest).takeWhile isGap = [] := fun rest =>
    ⟨List.dropWhile_cons_of_neg (by decide), List.takeWhile_cons_of_neg (by decide)⟩
  have hgaps : ∀ c ∈ problem.indent, isGap c = true := List.all_eq_true.mp h.indent_gaps
  rw [indent?, pointer, List.dropWhile_append_of_pos hgaps, List.takeWhile_append_of_pos hgaps]
  simp [hcaret]

theorem block?_eq_some :
    block? problem.heading problem.source problem.pointer = some problem.readBlock := by
  have hheading : content? problem.heading = some problem.heading :=
    content?_eq_some (h.notMem_heading (by simp))
  have hsource : content? problem.source = some problem.source :=
    content?_eq_some (h.source_avoids '\r' (by simp))
  simp [block?, hheading, h.heading?_eq_some, hsource, h.indent?_pointer, readBlock]

theorem readDecimal_digits :
    Numeral.readDecimal UInt32.size problem.digits = .ok problem.number.toNat :=
  (Numeral.readDecimal_eq_ok_iff (by decide)).mpr
    ⟨problem.number.toNat_lt, problem.digits, .inl rfl, h.writes⟩

end Readable

/-- Whether the parts are such that the three lines tell them apart. -/
@[mk_iff]
structure WellShaped (problem : Problem) : Prop where
  file_ne_nil : problem.file ≠ []
  file_avoids : Avoids problem.file [':', '\r', '\n', '\\']
  file_start : StartsClear Unicode.isBlank problem.file
  file_end : EndsClear Unicode.isBlank problem.file
  writes : Numeral.Writes 10 problem.digits problem.number.toNat
  kind_avoids : Avoids problem.kind [':', '\r', '\n']
  kind_start : StartsClear isGap problem.kind
  kind_end : EndsClear isGap problem.kind
  message_avoids : Avoids problem.message ['\r', '\n']
  message_start : StartsClear isGap problem.message
  message_end : EndsClear Unicode.isBlank problem.message
  source_avoids : Avoids problem.source ['\r', '\n']
  indent_gaps : problem.indent.all isGap = true
  rest_plain : '\n' ∉ problem.rest

instance (problem : Problem) : Decidable problem.WellShaped :=
  decidable_of_iff _ (wellShaped_iff problem).symm

/-- The block that the three lines are. -/
def block (problem : Problem) : LogBlock :=
  ⟨⟨problem.file, problem.digits, problem.kind, problem.message⟩, problem.indent.length⟩

/-- The finding about the problem: its column is one more than the length of the indent, as a number
of 32 bits. -/
def diagnostic (problem : Problem) : Diagnostic :=
  .ofRule (classify problem.kind) (String.ofList problem.message)
    ⟨String.ofList problem.file, problem.number, 1 + problem.indent.length.toUInt32, none⟩

namespace WellShaped

variable {problem : Problem} (h : problem.WellShaped)

include h

theorem readable : problem.Readable where
  file_ne_nil := h.file_ne_nil
  file_avoids := fun c hc => h.file_avoids c (by grind)
  writes := h.writes
  kind_avoids := h.kind_avoids
  message_avoids := h.message_avoids
  source_avoids := h.source_avoids
  indent_gaps := h.indent_gaps
  rest_plain := h.rest_plain

theorem readBlock_eq : problem.readBlock = problem.block := by
  rw [readBlock, trim_spaced h.kind_start h.kind_end, List.dropWhile_cons_of_pos (by decide),
    dropWhile_eq_self h.message_start]
  rfl

theorem block?_eq_some :
    block? problem.heading problem.source problem.pointer = some problem.block :=
  h.readBlock_eq ▸ h.readable.block?_eq_some

theorem diagnostic?_block : diagnostic? problem.block = some problem.diagnostic := by
  have hfile : (Unicode.trim problem.file).map (fun c => if c = '\\' then '/' else c) =
      problem.file := by
    rw [Unicode.trim, Unicode.trimStart, dropWhile_eq_self h.file_start, Unicode.trimEnd,
      reverse_dropWhile_reverse h.file_end]
    refine (List.map_congr_left fun c hc => ?_).trans (List.map_id _)
    exact if_neg fun hslash : c = '\\' => h.file_avoids '\\' (by simp) (hslash ▸ hc)
  have hmessage : Unicode.trimEnd problem.message = problem.message :=
    reverse_dropWhile_reverse h.message_end
  rw [diagnostic?]
  simp only [block, h.readable.readDecimal_digits, hfile, hmessage, diagnostic, UInt32.add_comm 1]
  simp

end WellShaped

end Problem

/-- What stands in a log: the lines about a problem, or another line. -/
inductive Segment where
  | block (problem : Problem)
  | noise (line : List Char)

namespace Segment

def lines : Segment → List (List Char)
  | .block problem => [problem.heading, problem.source, problem.pointer]
  | .noise line => [line]

/-- Whether a problem is well shaped, and whether another line begins no block. -/
def WellShaped : Segment → Prop
  | .block problem => problem.WellShaped
  | .noise line => '\n' ∉ line ∧ ¬ BeginsBlock line

/-- The problem of which the segment tells. -/
def problem? : Segment → Option Problem
  | .block problem => some problem
  | .noise _ => none

instance : DecidablePred WellShaped
  | .block problem => inferInstanceAs (Decidable problem.WellShaped)
  | .noise line => inferInstanceAs (Decidable ('\n' ∉ line ∧ ¬ BeginsBlock line))

theorem lines_ne_nil (segment : Segment) : segment.lines ≠ [] := by
  cases segment <;> simp [lines]

theorem notMem_of_mem_lines {segment : Segment} (h : segment.WellShaped) {line : List Char}
    (hline : line ∈ segment.lines) : '\n' ∉ line := by
  cases segment with
  | noise other =>
    obtain rfl := List.mem_singleton.mp hline
    exact h.1
  | block problem =>
    have hshape : problem.WellShaped := h
    exact hshape.readable.notMem_of_mem_lines hline

end Segment

/-- The lines of the segments as one text. -/
def textOf (segments : List Segment) : List Char :=
  ['\n'].intercalate (segments.flatMap Segment.lines)

theorem blocks_flatMap_lines {segments : List Segment} (h : ∀ s ∈ segments, s.WellShaped) :
    blocks (segments.flatMap Segment.lines) =
      (segments.filterMap Segment.problem?).map Problem.block := by
  induction segments with
  | nil => simp [blocks]
  | cons segment segments ih =>
    obtain ⟨hsegment, hrest⟩ := List.forall_mem_cons.mp h
    cases segment with
    | block problem =>
      have hblock := Problem.WellShaped.block?_eq_some hsegment
      simp only [List.flatMap_cons, Segment.lines, List.cons_append, List.nil_append, blocks,
        hblock, ih hrest, Segment.problem?, List.filterMap_cons, List.map_cons]
    | noise line =>
      simp only [List.flatMap_cons, Segment.lines, List.cons_append, List.nil_append,
        blocks_cons hsegment.2, ih hrest, Segment.problem?, List.filterMap_cons]

theorem splitOn_textOf {segments : List Segment} (h : ∀ s ∈ segments, s.WellShaped)
    (hne : segments ≠ []) : (textOf segments).splitOn '\n' = segments.flatMap Segment.lines := by
  refine List.splitOn_intercalate _ ?_ ?_
  · intro line hline
    obtain ⟨segment, hsegment, hline⟩ := List.mem_flatMap.mp hline
    exact Segment.notMem_of_mem_lines (h segment hsegment) hline
  · obtain ⟨segment, hsegment⟩ := List.exists_mem_of_ne_nil segments hne
    simp only [ne_eq, List.flatMap_eq_nil_iff, not_forall]
    exact ⟨segment, hsegment, segment.lines_ne_nil⟩

/-- **Reading a log that tells problems gives a finding about each, in order, and no other.** -/
theorem parse_textOf (segments : List Segment) (h : ∀ s ∈ segments, s.WellShaped) :
    parse (textOf segments) =
      (segments.filterMap Segment.problem?).map Problem.diagnostic := by
  have hproblem : ∀ problem ∈ segments.filterMap Segment.problem?, problem.WellShaped := by
    intro problem hmem
    obtain ⟨segment, hsegment, htold⟩ := List.mem_filterMap.mp hmem
    cases segment with
    | noise line => cases htold
    | block told =>
      obtain rfl := Option.some.inj htold
      exact h (.block told) hsegment
  have hblocks : blocks ((textOf segments).splitOn '\n') =
      (segments.filterMap Segment.problem?).map Problem.block := by
    by_cases hne : segments = []
    · -- the empty text is one line
      subst hne
      simp [textOf, blocks]
    · rw [splitOn_textOf h hne, blocks_flatMap_lines h]
  rw [parse, hblocks, List.filterMap_map]
  calc (segments.filterMap Segment.problem?).filterMap (diagnostic? ∘ Problem.block)
      = (segments.filterMap Segment.problem?).filterMap (some ∘ Problem.diagnostic) :=
        List.filterMap_congr fun problem hmem => (hproblem problem hmem).diagnostic?_block
    _ = (segments.filterMap Segment.problem?).map Problem.diagnostic := by
        rw [List.filterMap_eq_map]

/-- A log whose lines look like other lines than they are. -/
def deceivingLog : List Segment := [
  .noise "a.xml:12: no third colon".toList,
  .block
    { file := "forms/a b.xml".toList
      digits := "007".toList
      number := 7
      kind := "parser error".toList
      message := "tag mismatch: a".toList
      source := "b.xml:8: error : in the source".toList
      indent := "\t ".toList
      rest := "c.xml:9: error : after it".toList },
  .noise "  ^\r".toList,
  .block
    { file := "d.xml".toList
      digits := "4294967295".toList
      number := 4294967295
      kind := []
      message := []
      source := []
      indent := []
      rest := [] },
  .noise []]

theorem parse_textOf_deceivingLog :
    (∀ s ∈ deceivingLog, s.WellShaped) ∧
    textOf deceivingLog =
      "a.xml:12: no third colon\nforms/a b.xml:007: parser error : tag mismatch: a\n".toList ++
      "b.xml:8: error : in the source\n\t ^c.xml:9: error : after it\n".toList ++
      "  ^\r\nd.xml:4294967295:  : \n\n^\n".toList ∧
    parse (textOf deceivingLog) =
      [⟨.parserError, "tag mismatch: a", .error, ⟨"forms/a b.xml", 7, 3, none⟩⟩,
        ⟨.otherError, "", .warning, ⟨"d.xml", 4294967295, 1, none⟩⟩] := by
  have hshape : ∀ s ∈ deceivingLog, s.WellShaped := by decide
  exact ⟨hshape, by decide +kernel, (parse_textOf deceivingLog hshape).trans (by decide)⟩

end FormsAudit.CapturedLog
