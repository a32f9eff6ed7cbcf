import FormsAudit.Proofs.CapturedLog.Located

/-!
# Line ends of a log

A log says the same whichever way its lines end, with a line feed alone or with a carriage return
before it, be it the same way for all lines or not (`SameLines.parse_eq`).

The lines of the two texts are the same but for a carriage return at the end (`Returned`).  The first
and the second line of a block are read without it, and the third line is read only up to its caret.
So a block begins in the one text where it begins in the other (`block?_congr`), uses up as many
lines, and the search goes on at corresponding lines (`blocks_congr`).
-/

namespace FormsAudit.CapturedLog

/-! ## Texts with other line ends -/

/-- The second text is the first with a carriage return before some of its line feeds. -/
inductive SameLines : List Char → List Char → Prop
  | nil : SameLines [] []
  | char (c : Char) {text other : List Char} (h : SameLines text other) :
    SameLines (c :: text) (c :: other)
  | returned {text other : List Char} (h : SameLines text other) :
    SameLines ('\n' :: text) ('\r' :: '\n' :: other)

/-- The text with a carriage return before every line feed. -/
def withReturns (text : List Char) : List Char :=
  text.flatMap fun c => if c = '\n' then ['\r', '\n'] else [c]

theorem sameLines_withReturns (text : List Char) : SameLines text (withReturns text) := by
  induction text with
  | nil => exact .nil
  | cons c text ih =>
    by_cases hfeed : c = '\n'
    · subst hfeed
      exact .returned ih
    · have htext : withReturns (c :: text) = c :: withReturns text := by
        simp [withReturns, hfeed]
      rw [htext]
      exact .char c ih

/-! ## Lines -/

/-- The second line is the first, perhaps with a carriage return at its end. -/
def Returned (line other : List Char) : Prop :=
  other = line ∨ other = line ++ ['\r']

theorem Returned.cons {line other : List Char} (h : Returned line other) (c : Char) :
    Returned (c :: line) (c :: other) := by
  rcases h with rfl | rfl
  · exact .inl rfl
  · exact .inr rfl

theorem SameLines.forall₂_splitOn {text other : List Char} (h : SameLines text other) :
    List.Forall₂ Returned (text.splitOn '\n') (other.splitOn '\n') := by
  induction h with
  | nil => exact .cons (.inl rfl) .nil
  | @char c text other _ ih =>
    rw [List.splitOn_cons_eq_if_modifyHead, List.splitOn_cons_eq_if_modifyHead]
    split
    · exact .cons (.inl rfl) ih
    · generalize text.splitOn '\n' = lines at ih
      generalize other.splitOn '\n' = others at ih
      cases ih with
      | nil => exact .nil
      | cons hfirst hrest => exact .cons (hfirst.cons c) hrest
  | @returned text other _ ih =>
    have hother : ('\r' :: '\n' :: other).splitOn '\n' = ['\r'] :: other.splitOn '\n' := by
      rw [List.splitOn_cons_eq_if_modifyHead, List.splitOn_cons_eq_if_modifyHead]
      rfl
    have htext : ('\n' :: text).splitOn '\n' = [] :: text.splitOn '\n' := by
      rw [List.splitOn_cons_eq_if_modifyHead]
      rfl
    rw [hother, htext]
    exact .cons (.inr rfl) ih

/-- The first and the second line of a block are read without the carriage return. -/
theorem content?_of_returned {line other : List Char} (h : Returned line other)
    (hplain : '\r' ∉ line) : content? other = some line := by
  rcases h with rfl | rfl
  · exact content?_eq_some hplain
  · simp [content?, hplain]

/-- The third line of a block is read up to the caret. -/
theorem indent?_congr {line other : List Char} (h : Returned line other) :
    indent? other = indent? line := by
  rcases h with rfl | rfl
  · rfl
  have hdrop : ['\r'].dropWhile isGap = ['\r'] := by decide
  have htake : ['\r'].takeWhile isGap = [] := by decide
  by_cases hgaps : line.dropWhile isGap = []
  · -- no caret follows the gaps, with the carriage return behind them or without
    simp [indent?, List.dropWhile_append, hgaps, hdrop]
  · obtain ⟨c, rest, hrest⟩ := List.exists_cons_of_ne_nil hgaps
    have hhead : ((line ++ ['\r']).dropWhile isGap).head? = (line.dropWhile isGap).head? := by
      simp [List.dropWhile_append, hrest]
    have hindent : (line ++ ['\r']).takeWhile isGap = line.takeWhile isGap := by
      rw [List.takeWhile_append]
      split
      · rename_i hlength
        rw [htake, List.append_nil]
        exact ((List.takeWhile_prefix isGap).eq_of_length hlength).symm
      · rfl
    rw [indent?, indent?, hhead, hindent]

/-! ## Blocks -/

theorem block?_congr {first second third first' second' third' : List Char}
    (hfirst : Returned first first') (hsecond : Returned second second')
    (hthird : Returned third third') (hplain : '\r' ∉ first) (hplain' : '\r' ∉ second) :
    block? first' second' third' = block? first second third := by
  unfold block?
  rw [content?_of_returned hfirst hplain, content?_of_returned hsecond hplain',
    content?_eq_some hplain, content?_eq_some hplain', indent?_congr hthird]

/-- The blocks among lines and among the same lines with carriage returns are the same. -/
theorem blocks_congr {lines others : List (List Char)} (h : List.Forall₂ Returned lines others)
    (hplain : ∀ line ∈ lines, '\r' ∉ line) : blocks others = blocks lines := by
  induction lines using blocks.induct generalizing others with
  | case1 first second third rest block hblock ih =>
    obtain _ | ⟨hfirst, _ | ⟨hsecond, _ | ⟨hthird, hrest⟩⟩⟩ := h
    simp only [List.forall_mem_cons] at hplain
    have hothers := block?_congr hfirst hsecond hthird hplain.1 hplain.2.1
    rw [blocks, blocks, hothers, hblock]
    exact congrArg (block :: ·) (ih hrest hplain.2.2.2)
  | case2 first second third rest hblock ih =>
    obtain _ | ⟨hfirst, _ | ⟨hsecond, _ | ⟨hthird, hrest⟩⟩⟩ := h
    have hfollowing := (List.forall_mem_cons.mp hplain).2
    simp only [List.forall_mem_cons] at hplain
    have hothers := block?_congr hfirst hsecond hthird hplain.1 hplain.2.1
    rw [blocks, blocks, hothers, hblock]
    exact ih (.cons hsecond (.cons hthird hrest)) hfollowing
  | case3 lines hshort =>
    -- fewer than three lines
    obtain _ | ⟨-, _ | ⟨-, _ | ⟨-, -⟩⟩⟩ := h
    · rfl
    · simp [blocks]
    · simp [blocks]
    · exact absurd rfl (hshort _ _ _ _)

/-! ## Logs -/

/-- A text without carriage returns tells what it tells with one before any of its line feeds. -/
theorem SameLines.parse_eq {text other : List Char} (h : SameLines text other)
    (hplain : '\r' ∉ text) : parse other = parse text := by
  have hlines : ∀ line ∈ text.splitOn '\n', '\r' ∉ line := fun line hline hmem =>
    hplain ((infix_of_mem_splitOn hline).mem hmem)
  rw [parse, parse, blocks_congr h.forall₂_splitOn hlines]

/-- **Line ends do not matter.**  A text without carriage returns tells the same findings when each
of its lines ends with a carriage return and a line feed. -/
theorem parse_withReturns (text : List Char) (hplain : '\r' ∉ text) :
    parse (withReturns text) = parse text :=
  (sameLines_withReturns text).parse_eq hplain

/-- A log of two problems, between which a third has no caret. -/
def gappyLog : List Char :=
  "a.xml:7: parser error : x \n<b/>\n\t ^\nb.xml:8: e :\n\n  \nc.xml:9: e : y\n\n^".toList

theorem parse_withReturns_gappyLog :
    '\r' ∉ gappyLog ∧
      withReturns gappyLog =
        ("a.xml:7: parser error : x \r\n<b/>\r\n\t ^\r\nb.xml:8: e :\r\n\r\n  \r\n" ++
          "c.xml:9: e : y\r\n\r\n^").toList ∧
      parse (withReturns gappyLog) =
        [⟨.parserError, "x", .error, ⟨"a.xml", 7, 3, none⟩⟩,
          ⟨.otherError, "y", .warning, ⟨"c.xml", 9, 1, none⟩⟩] := by
  have hplain : '\r' ∉ gappyLog := by decide +kernel
  refine ⟨hplain, by decide +kernel, ?_⟩
  calc parse (withReturns gappyLog)
      = parse gappyLog := parse_withReturns gappyLog hplain
    _ = _ := by decide +kernel

end FormsAudit.CapturedLog
