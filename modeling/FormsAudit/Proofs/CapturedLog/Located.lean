import FormsAudit.Proofs.CapturedLog.RoundTrip
import FormsAudit.Proofs.Text.SplitOn
import FormsAudit.Proofs.Unicode.Blank

/-!
# Where the findings of a log lie

Each finding is told by three lines of the log, one after the other (`Tells`).  Its message and its
file have no character of those that the lines are told apart by, and its column counts from one
(`Located`).  The line is the number that was written and the file is what was written without the
blanks around it, so these are zero and empty if the log says no more: a block is reported whatever
its file and its line number are (`parse_located`).
-/

namespace FormsAudit.CapturedLog

/-! ## The lines of a finding -/

/-- In the text three lines stand one after the other, of which the first has the file, the digits of
the line number and two more parts, with colons between, and the third an indent before a caret. -/
structure Tells (text file digits indent : List Char) : Prop where
  lines : ∃ before kind rest second tail after, text.splitOn '\n' =
    before ++ (file ++ ':' :: (digits ++ ':' :: (kind ++ ':' :: rest))) :: second ::
      (indent ++ '^' :: tail) :: after
  file : file ≠ [] ∧ ':' ∉ file
  digits : digits ≠ [] ∧ ∀ c ∈ digits, Unicode.isDecimalDigit c = true
  indent : ∀ c ∈ indent, isGap c = true

theorem exists_of_mem_blocks {lines : List (List Char)} {block : LogBlock}
    (h : block ∈ blocks lines) :
    ∃ before first second third after,
      lines = before ++ first :: second :: third :: after ∧
        block? first second third = some block := by
  induction lines using blocks.induct with
  | case1 first second third rest found hfound ih =>
    rw [blocks, hfound] at h
    rcases List.mem_cons.mp h with rfl | h
    · exact ⟨[], first, second, third, rest, rfl, hfound⟩
    · obtain ⟨before, first', second', third', after, rfl, hblock⟩ := ih h
      exact ⟨first :: second :: third :: before, first', second', third', after, rfl, hblock⟩
  | case2 first second third rest hnone ih =>
    rw [blocks, hnone] at h
    obtain ⟨before, first', second', third', after, hlines, hblock⟩ := ih h
    exact ⟨first :: before, first', second', third', after, by rw [hlines]; rfl, hblock⟩
  | case3 lines hshort =>
    rw [blocks.eq_def] at h
    split at h
    · rename_i first second third rest
      exact absurd rfl (hshort first second third rest)
    · cases h

theorem exists_of_indent?_eq_some {line : List Char} {length : Nat}
    (h : indent? line = some length) :
    ∃ indent tail, line = indent ++ '^' :: tail ∧ indent.length = length ∧
      ∀ c ∈ indent, isGap c = true := by
  simp only [indent?, Option.ite_none_right_eq_some, Option.some.injEq] at h
  obtain ⟨hcaret, hlength⟩ := h
  obtain ⟨tail, htail⟩ := List.head?_eq_some_iff.mp hcaret
  refine ⟨line.takeWhile isGap, tail, ?_, hlength, fun c => List.mem_takeWhile_imp⟩
  rw [← htail, List.takeWhile_append_dropWhile]

theorem Avoids.of_subset {text part characters : List Char} (h : Avoids text characters)
    (hpart : ∀ c ∈ part, c ∈ text) : Avoids part characters :=
  fun c hc hmem => h c hc (hpart c hmem)

/-- What a block says is told by three lines of the text. -/
theorem exists_of_mem_blocks_splitOn {text : List Char} {block : LogBlock}
    (h : block ∈ blocks (text.splitOn '\n')) :
    ∃ indent, Tells text block.heading.file block.heading.line indent ∧
      block.indent = indent.length ∧
      Avoids block.heading.file ['\r', '\n'] ∧ Avoids block.heading.message ['\r', '\n'] := by
  obtain ⟨before, first, second, third, after, hlines, hblock⟩ := exists_of_mem_blocks h
  simp only [block?, Option.bind_eq_bind, Option.bind_eq_some_iff, Option.pure_def,
    Option.some.injEq] at hblock
  obtain ⟨heading, ⟨content, hcontent, hheading⟩, -, -, length, hindent, rfl⟩ := hblock
  obtain ⟨hreturn, ending, rfl⟩ := exists_of_content?_eq_some hcontent
  obtain ⟨indent, tail, rfl, rfl, hgaps⟩ := exists_of_indent?_eq_some hindent
  have hmem : content ++ ending ∈ text.splitOn '\n' := by
    rw [hlines]
    simp
  have havoids : Avoids content ['\r', '\n'] := by
    have hfeed := notMem_of_mem_splitOn hmem
    simp only [List.mem_append, not_or] at hfeed
    simp [Avoids, hreturn, hfeed.1]
  obtain ⟨file, digits, kind, rest, rfl, hfile, hdigits, -, rfl⟩ := heading?_eq_some_iff.mp hheading
  refine ⟨indent, ⟨⟨before, kind, rest ++ ending, second, tail, after, ?_⟩, hfile, hdigits,
    hgaps⟩, rfl, ?_, ?_⟩
  · simpa using hlines
  · exact havoids.of_subset fun c hc => by simp [hc]
  · refine havoids.of_subset fun c hc => ?_
    have hrest : c ∈ rest := (List.dropWhile_suffix _).mem hc
    simp [hrest]

/-! ## Findings -/

theorem exists_of_diagnostic?_eq_some {block : LogBlock} {finding : Diagnostic}
    (h : diagnostic? block = some finding) :
    ∃ line < UInt32.size, Numeral.WritesDecimal block.heading.line line ∧
      finding = .ofRule (classify block.heading.kind)
        (String.ofList (Unicode.trimEnd block.heading.message))
        ⟨String.ofList ((Unicode.trim block.heading.file).map fun c => if c = '\\' then '/' else c),
          line.toUInt32, block.indent.toUInt32 + 1, none⟩ := by
  unfold diagnostic? at h
  dsimp only at h
  split at h
  · cases h
  · rename_i line hline
    obtain ⟨hlt, hwrites⟩ := (Numeral.readDecimal_eq_ok_iff (by decide)).mp hline
    exact ⟨line, hlt, hwrites, (Option.some.inj h).symm⟩

/-- A number that is written in nothing but digits has no sign. -/
theorem writes_of_isDecimalDigit {digits : List Char} {number : Nat}
    (h : Numeral.WritesDecimal digits number)
    (hdigits : ∀ c ∈ digits, Unicode.isDecimalDigit c = true) :
    Numeral.Writes 10 digits number := by
  obtain ⟨_, rfl | rfl, hwrites⟩ := h
  · exact hwrites
  · have hplus : Unicode.isDecimalDigit '+' = false := by decide
    rw [hdigits '+' List.mem_cons_self] at hplus
    cases hplus

/-- A name that is read from a line has neither a colon nor a backslash left. -/
theorem avoids_map_trim {file : List Char} (hcolon : ':' ∉ file) (h : Avoids file ['\r', '\n']) :
    Avoids ((Unicode.trim file).map fun c => if c = '\\' then '/' else c)
      [':', '\\', '\r', '\n'] := by
  intro c hc hmem
  obtain ⟨d, hd, hdc⟩ := List.mem_map.mp hmem
  by_cases hslash : d = '\\'
  · rw [if_pos hslash] at hdc
    subst hdc
    revert hc
    decide
  · rw [if_neg hslash] at hdc
    subst hdc
    have hfile : d ∈ file := Unicode.mem_of_mem_trim hd
    simp only [List.mem_cons, List.not_mem_nil, or_false] at hc
    rcases hc with rfl | hc | hc
    · exact hcolon hfile
    · exact hslash hc
    · exact h d (by simpa using hc) hfile

theorem Tells.length_lt {text file digits indent : List Char} (h : Tells text file digits indent) :
    indent.length < text.length := by
  obtain ⟨before, kind, rest, second, tail, after, hlines⟩ := h.lines
  have hmem : indent ++ '^' :: tail ∈ text.splitOn '\n' := by
    rw [hlines]
    simp
  have hlength := (infix_of_mem_splitOn hmem).length_le
  rw [List.length_append, List.length_cons] at hlength
  omega

/-- The name of a file is empty just if nothing but blanks is written for it. -/
theorem ofList_map_trim_eq_empty_iff {file : List Char} :
    String.ofList ((Unicode.trim file).map fun c => if c = '\\' then '/' else c) = "" ↔
      ∀ c ∈ file, Unicode.isBlank c = true := by
  rw [← Unicode.trim_eq_nil_iff]
  simp [← String.toList_inj]

/-- What a finding has from the log: its message and its file are parts of a line, and three lines of
the log say where it lies. -/
structure Located (text : List Char) (finding : Diagnostic) : Prop where
  message : Avoids finding.message.toList ['\r', '\n']
  file : Avoids finding.location.file.toList [':', '\\', '\r', '\n']
  told : ∃ file digits indent, Tells text file digits indent ∧
    (finding.location.file = "" ↔ ∀ c ∈ file, Unicode.isBlank c = true) ∧
    (finding.location.line = 0 ↔ ∀ c ∈ digits, c = '0') ∧
    finding.location.startColumn.toNat = (indent.length + 1) % UInt32.size ∧
    (text.length < UInt32.size → finding.location.startColumn.toNat = indent.length + 1)

theorem located_of_mem_parse {text : List Char} {finding : Diagnostic}
    (h : finding ∈ parse text) : Located text finding := by
  obtain ⟨block, hblock, htold⟩ := List.mem_filterMap.mp h
  obtain ⟨indent, htells, hindent, hfile, hmessage⟩ := exists_of_mem_blocks_splitOn hblock
  obtain ⟨line, hlt, hwrites, rfl⟩ := exists_of_diagnostic?_eq_some htold
  have hzero := (writes_of_isDecimalDigit hwrites htells.digits.2).eq_zero_iff
  have hsize : UInt32.size = 4294967296 := rfl
  refine ⟨?message, ?file, block.heading.file, block.heading.line, indent, htells,
    ofList_map_trim_eq_empty_iff, ?line, ?wrapped, ?column⟩
  case message =>
    have havoids := hmessage.of_subset fun c => Unicode.mem_of_mem_trimEnd (c := c)
    simpa [Diagnostic.ofRule] using havoids
  case file => simpa using avoids_map_trim htells.file.2 hfile
  case line =>
    rw [← hzero, ← UInt32.toNat_inj]
    simp [Nat.mod_eq_of_lt hlt]
  case wrapped => simp [hindent, hsize]
  case column =>
    intro htext
    have hlength := htells.length_lt
    have hcolumn : indent.length + 1 < 4294967296 := by omega
    simp [hindent, Nat.mod_eq_of_lt hcolumn]

/-! ## Blocks that are reported -/

/-- Three lines that are a block are reported, whatever their file and their line number are. -/
theorem Problem.Readable.parse_block {problem : Problem} (h : problem.Readable) :
    ∃ finding, parse (textOf [.block problem]) = [finding] ∧
      finding.location.line = problem.number ∧
      (finding.location.file = "" ↔ ∀ c ∈ problem.file, Unicode.isBlank c = true) := by
  have hlines : (textOf [.block problem]).splitOn '\n' =
      [problem.heading, problem.source, problem.pointer] :=
    List.splitOn_intercalate _ (fun _ => h.notMem_of_mem_lines) (List.cons_ne_nil _ _)
  have hblocks : blocks [problem.heading, problem.source, problem.pointer] =
      [problem.readBlock] := by
    simp [blocks, h.block?_eq_some]
  obtain ⟨finding, htold, hline, hfile⟩ : ∃ finding, diagnostic? problem.readBlock = some finding ∧
      finding.location.line = problem.number ∧ (finding.location.file = "" ↔ _) := by
    simp only [diagnostic?, Problem.readBlock, h.readDecimal_digits]
    exact ⟨_, rfl, by simp, ofList_map_trim_eq_empty_iff⟩
  exact ⟨finding, by simp [parse, hlines, hblocks, htold], hline, hfile⟩

/-- **Where the findings of a log lie.**  A finding is told by three lines of the log.  Neither its
message nor its file has a character that ends a line, and its file has no colon and no backslash.
The file is without a name just if nothing but blanks is written for it, and the line is zero just if
nothing but zeros are.  The column is the one behind the indent, unless the text is so long that it
has no number of 32 bits.

No block is passed over for what it says: three lines that are a block are reported with line zero
and without a name for the file as well. -/
theorem parse_located (text : List Char) (problem : Problem) :
    (∀ finding ∈ parse text, Located text finding) ∧
      (problem.Readable → ∃ finding, parse (textOf [.block problem]) = [finding] ∧
        finding.location.line = problem.number ∧
        (finding.location.file = "" ↔ ∀ c ∈ problem.file, Unicode.isBlank c = true)) :=
  ⟨fun _ => located_of_mem_parse, Problem.Readable.parse_block⟩

/-- A problem in line zero of a file whose name is a tab. -/
def placelessProblem : Problem where
  file := ['\t']
  digits := ['0', '0']
  number := 0
  kind := []
  message := []
  source := "<x/>".toList
  indent := [' ']
  rest := []

/-- A log with blanks around the name of a file and zeros before the line number. -/
def paddedLog : List Char :=
  " forms\\a.xml\t:007: parser error : x \r\n<x/>\n \t^\n".toList

theorem parse_located_paddedLog :
    (parse paddedLog = [⟨.parserError, "x", .error, ⟨"forms/a.xml", 7, 3, none⟩⟩] ∧
      ∃ file digits indent, Tells paddedLog file digits indent ∧ indent.length = 2 ∧
        (∃ c ∈ file, Unicode.isBlank c = false) ∧ ∃ c ∈ digits, c ≠ '0') ∧
    placelessProblem.Readable ∧
      ∃ finding, parse "\t:00:  : \n<x/>\n ^".toList = [finding] ∧
        finding.location.line = 0 ∧ finding.location.file = "" := by
  have hparse : parse paddedLog =
      [⟨.parserError, "x", .error, ⟨"forms/a.xml", 7, 3, none⟩⟩] := by
    decide +kernel
  obtain ⟨hlocated, hreported⟩ := parse_located paddedLog placelessProblem
  obtain ⟨-, -, file, digits, indent, htells, hfile, hline, -, hcolumn⟩ :=
    hlocated _ (hparse ▸ List.mem_singleton_self _)
  have hlength : paddedLog.length < UInt32.size := by decide
  have hreadable : placelessProblem.Readable := by decide
  have hblank : ∀ c ∈ placelessProblem.file, Unicode.isBlank c = true :=
    List.forall_mem_singleton.mpr (by decide)
  obtain ⟨finding, htold, hzero, hname⟩ := hreported hreadable
  refine ⟨⟨hparse, file, digits, indent, htells, Nat.succ.inj (hcolumn hlength).symm, ?_, ?_⟩,
    hreadable, finding, htold, hzero, hname.mpr hblank⟩
  · have hnamed : ¬ ∀ c ∈ file, Unicode.isBlank c = true := fun h => absurd (hfile.mpr h) (by decide)
    simpa using hnamed
  · have hnumbered : ¬ ∀ c ∈ digits, c = '0' := fun h => absurd (hline.mpr h) (by decide)
    simpa using hnumbered

/-- Line zero is reported, and so is a file without a name. -/
theorem parse_unlocated :
    parse "a.xml:0: parser error : Bad thing\n<x/>\n  ^\n".toList =
        [⟨.parserError, "Bad thing", .error, ⟨"a.xml", 0, 3, none⟩⟩] ∧
      parse " :3: parser error : Bad thing\n<x/>\n  ^\n".toList =
        [⟨.parserError, "Bad thing", .error, ⟨"", 3, 3, none⟩⟩] := by
  decide +kernel

end FormsAudit.CapturedLog
