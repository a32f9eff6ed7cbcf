import FormsAudit.Proofs.Markup.Position
import FormsAudit.Proofs.Markup.Lexed
import Mathlib.Data.List.Infix

/-!
# Sources that begin alike

`Continued source longer rest` says that the source `longer` yields what `source` yields and then
`rest`, and that both are taken to be in the same encoding.  What the lexer says of the shorter one
it then says of the longer one, and an offset that the shorter one has is in the same line and
column of both.

Sources that are read in pieces of one size and begin alike are so related, with one exception:
bytes so few that they may or may not go on as the signature of an encoding (`briefs`).
-/

namespace FormsAudit.Markup

/-! ## Pieces -/

section Pieces

variable (limit : Nat) (bytes : List UInt8)

theorem ne_nil_of_mem_pieces : ∀ piece ∈ pieces limit bytes, piece ≠ [] := by
  induction bytes using pieces.induct limit with
  | case1 bytes hstop hempty => simp [pieces, hstop, hempty]
  | case2 bytes hstop hempty =>
    rw [pieces, dif_pos hstop, if_neg hempty]
    simpa using hempty
  | case3 bytes hgo ih =>
    rw [pieces, dif_neg hgo]
    rw [not_or] at hgo
    intro piece hpiece
    rcases List.mem_cons.mp hpiece with rfl | hpiece
    · rw [Ne, List.take_eq_nil_iff]
      exact fun h => h.elim hgo.2 hgo.1
    · exact ih piece hpiece

theorem flatten_pieces : (pieces limit bytes).flatten = bytes := by
  induction bytes using pieces.induct limit with
  | case1 bytes hstop hempty =>
    rw [pieces, dif_pos hstop, if_pos hempty]
    exact (List.isEmpty_iff.mp hempty).symm
  | case2 bytes hstop hempty => simp [pieces, hstop, hempty]
  | case3 bytes hgo ih => rw [pieces, dif_neg hgo, List.flatten_cons, ih, List.take_append_drop]

theorem headD_pieces :
    (pieces limit bytes).headD [] = if limit = 0 then bytes else bytes.take limit := by
  rw [pieces]
  split
  · rename_i hstop
    cases bytes with
    | nil => simp
    | cons byte bytes =>
      have hlimit : limit = 0 := hstop.resolve_left (List.cons_ne_nil byte bytes)
      simp [hlimit]
  · rename_i hgo
    rw [if_neg (not_or.mp hgo).2]
    rfl

end Pieces

/-! ## Signatures -/

/-- What the first bytes of a document may say about its encoding. -/
def signatures : List (List UInt8 × Signature) :=
  [([0xFE, 0xFF], ⟨.utf16be, 2⟩), ([0xFF, 0xFE], ⟨.utf16le, 2⟩), (byteOrderMark, ⟨.utf8, 3⟩),
    ([0x00, 0x3C, 0x00, 0x3F], ⟨.utf16be, 0⟩), ([0x3C, 0x00, 0x3F, 0x00], ⟨.utf16le, 0⟩)]

/-- Bytes that may still go on as a signature. -/
def briefs : List (List UInt8) :=
  signatures.flatMap fun entry => entry.1.dropLast.inits

theorem ofFirstRead_of_isPrefix {entry : List UInt8 × Signature} (h : entry ∈ signatures)
    {bytes : List UInt8} (hpre : entry.1 <+: bytes) : Signature.ofFirstRead bytes = entry.2 := by
  obtain ⟨rest, rfl⟩ := hpre
  simp only [signatures, List.mem_cons, List.not_mem_nil, or_false] at h
  rcases h with rfl | rfl | rfl | rfl | rfl <;> rfl

theorem ofFirstRead_of_not_isPrefix {bytes : List UInt8}
    (h : ∀ entry ∈ signatures, ¬ entry.1 <+: bytes) :
    Signature.ofFirstRead bytes = ⟨.utf8, 0⟩ := by
  simp only [signatures, List.mem_cons, List.not_mem_nil, or_false, forall_eq_or_imp,
    forall_eq] at h
  obtain ⟨hbe, hle, hmark, hbePlain, hlePlain⟩ := h
  unfold Signature.ofFirstRead
  split
  · exact absurd (List.prefix_append [_, _] _) hbe
  · exact absurd (List.prefix_append [_, _] _) hle
  · exact absurd (List.prefix_append [_, _, _] _) hmark
  · exact absurd (List.prefix_append [_, _, _, _] _) hbePlain
  · exact absurd (List.prefix_append [_, _, _, _] _) hlePlain
  · rfl

/-- Further bytes do not change what the first ones say about the encoding, unless those are a part
of a signature. -/
theorem ofFirstRead_append (first rest : List UInt8) :
    Signature.ofFirstRead (first ++ rest) = Signature.ofFirstRead first ∨
      first ∈ briefs ∧ Signature.ofFirstRead first = ⟨.utf8, 0⟩ := by
  by_cases hfirst : ∃ entry ∈ signatures, entry.1 <+: first
  · obtain ⟨entry, hentry, hpre⟩ := hfirst
    left
    rw [ofFirstRead_of_isPrefix hentry hpre,
      ofFirstRead_of_isPrefix hentry (hpre.trans (List.prefix_append first rest))]
  · have hplain : ∀ entry ∈ signatures, ¬ entry.1 <+: first := by
      simpa using hfirst
    rw [ofFirstRead_of_not_isPrefix hplain]
    by_cases hlonger : ∃ entry ∈ signatures, entry.1 <+: first ++ rest
    · obtain ⟨entry, hentry, hpre⟩ := hlonger
      right
      refine ⟨?_, rfl⟩
      -- the first bytes and the signature begin the same bytes, and the first are fewer
      have hshort : first.length < entry.1.length := by
        by_contra hle
        exact hplain entry hentry (List.prefix_of_prefix_length_le hpre
          (List.prefix_append first rest) (Nat.not_lt.mp hle))
      have hbegins : first <+: entry.1.dropLast := by
        refine List.prefix_of_prefix_length_le (List.prefix_append first rest)
          ((List.dropLast_prefix _).trans hpre) ?_
        rw [List.length_dropLast]
        omega
      exact List.mem_flatMap.mpr ⟨entry, hentry, (List.mem_inits _ _).mpr hbegins⟩
    · exact .inl (ofFirstRead_of_not_isPrefix (by simpa using hlonger))

theorem mark_le (bytes : List UInt8) : (Signature.ofFirstRead bytes).mark ≤ bytes.length := by
  by_cases h : ∃ entry ∈ signatures, entry.1 <+: bytes
  · obtain ⟨entry, hentry, hpre⟩ := h
    have hmark : ∀ entry ∈ signatures, entry.2.mark ≤ entry.1.length := by decide
    rw [ofFirstRead_of_isPrefix hentry hpre]
    exact (hmark entry hentry).trans hpre.length_le
  · rw [ofFirstRead_of_not_isPrefix (by simpa using h)]
    exact Nat.zero_le _

theorem markLength_eq (bytes : List UInt8) : LineIndex.markLength bytes =
    if (Signature.ofFirstRead bytes).mark = 3 then 3 else 0 := by
  by_cases hmark : byteOrderMark <+: bytes
  · have hentry : (byteOrderMark, (⟨.utf8, 3⟩ : Signature)) ∈ signatures := by simp [signatures]
    rw [ofFirstRead_of_isPrefix hentry hmark, LineIndex.markLength,
      if_pos (List.isPrefixOf_iff_prefix.mpr hmark)]
    rfl
  · have hne : (Signature.ofFirstRead bytes).mark ≠ 3 := by
      by_cases h : ∃ entry ∈ signatures, entry.1 <+: bytes
      · obtain ⟨entry, hentry, hpre⟩ := h
        rw [ofFirstRead_of_isPrefix hentry hpre]
        have honly : ∀ entry ∈ signatures, entry.2.mark = 3 → entry.1 = byteOrderMark := by decide
        exact fun heq => hmark (honly entry hentry heq ▸ hpre)
      · rw [ofFirstRead_of_not_isPrefix (by simpa using h)]
        decide
    rw [if_neg hne, LineIndex.markLength, if_neg (mt List.isPrefixOf_iff_prefix.mp hmark)]

/-! ## Continued sources -/

theorem markLength_eq_of_signature {source other : Source}
    (h : other.signature = source.signature) :
    LineIndex.markLength other.firstRead = LineIndex.markLength source.firstRead := by
  rw [markLength_eq, markLength_eq]
  exact congrArg (fun signature : Signature => if signature.mark = 3 then 3 else 0) h

/-- The source `longer` yields what `source` yields and then `rest`, in the same encoding. -/
structure Continued (source longer : Source) (rest : List UInt8) : Prop where
  reads : ∀ bytes ∈ source.reads, bytes ≠ []
  longer_reads : ∀ bytes ∈ longer.reads, bytes ≠ []
  bytes : longer.bytes = source.bytes ++ rest
  signature : longer.signature = source.signature

theorem mark_le_length_bytes (source : Source) : source.signature.mark ≤ source.bytes.length := by
  refine (mark_le source.firstRead).trans ?_
  unfold Source.firstRead Source.bytes
  cases source.reads with
  | nil => exact Nat.zero_le _
  | cons first reads => simp

/-- A source that fails has the tokens that its bytes complete. -/
theorem tokens_of_failure {source : Source} {error : SystemError} {lexer : Lexer}
    (hfailure : source.failure = some error)
    (hlex : (lex .initial source.content).2 = .ready lexer) :
    source.tokens = ⟨(lex .initial source.content).1, .unreadable error⟩ := by
  have heq : lex .initial source.content =
      ((lex .initial source.content).1, .ready lexer) := Prod.ext rfl hlex
  rw [Source.tokens, heq, hfailure]

/-- A source that does not fail ends as its bytes do. -/
theorem tokens_of_ready {source : Source} {lexer : Lexer} (hfailure : source.failure = none)
    (hlex : (lex .initial source.content).2 = .ready lexer) :
    source.tokens =
      ⟨(lex .initial source.content).1 ++ lexer.finish.tokens, lexer.finish.ending⟩ := by
  have heq : lex .initial source.content =
      ((lex .initial source.content).1, .ready lexer) := Prod.ext rfl hlex
  rw [Source.tokens, heq, hfailure]

/-- A source that the lexer rejects has the tokens before. -/
theorem tokens_of_rejected {source : Source} {offset : Nat} {reason : Rejection}
    (hlex : (lex .initial source.content).2 = .rejected offset reason) :
    source.tokens = ⟨(lex .initial source.content).1, .rejected offset reason⟩ := by
  have heq : lex .initial source.content =
      ((lex .initial source.content).1, .rejected offset reason) := Prod.ext rfl hlex
  rw [Source.tokens, heq]

/-- The tokens that the lexer has found are the first of the source. -/
theorem isPrefix_tokens_of_lex (source : Source) :
    (lex .initial source.content).1 <+: source.tokens.tokens := by
  unfold Source.tokens
  rcases lex .initial source.content with ⟨tokens, lexer | ⟨offset, reason⟩⟩
  · dsimp only
    split
    · exact List.prefix_rfl
    · exact List.prefix_append _ _
  · exact List.prefix_rfl

namespace Continued

variable {source longer : Source} {rest : List UInt8} (h : Continued source longer rest)

include h

theorem content : longer.content = source.content ++ rest := by
  rw [Source.content, Source.content, h.signature, h.bytes,
    List.drop_append_of_le_length (mark_le_length_bytes source)]

/-- An offset that the shorter source has is in the same place of both. -/
theorem locate {offset : Nat} (hoffset : offset ≤ source.content.length) :
    (LineIndex.ofSource longer).locate offset = (LineIndex.ofSource source).locate offset := by
  rw [LineIndex.ofSource_eq h.longer_reads, LineIndex.ofSource_eq h.reads,
    markLength_eq_of_signature h.signature, h.bytes]
  have hmark := mark_le_length_bytes source
  have hle : LineIndex.markLength source.firstRead ≤ source.signature.mark := by
    rw [markLength_eq]
    split
    · rename_i heq
      exact heq.ge
    · exact Nat.zero_le _
  generalize LineIndex.markLength source.firstRead = mark at hle
  have hposition : offset + mark ≤ source.bytes.length := by
    rw [Source.content, List.length_drop] at hoffset
    omega
  -- the lines of the rest start later, and the first line does not
  have hlonger : (LineIndex.noteLines 0 [mark] (source.bytes ++ rest)).dropWhile
      (offset + mark < ·) =
        (LineIndex.noteLines 0 [mark] source.bytes).dropWhile (offset + mark < ·) := by
    rw [LineIndex.noteLines_append, Nat.zero_add,
      LineIndex.dropWhile_noteLines_of_le hposition]
  have hfirst : (LineIndex.noteLines 0 [mark] source.bytes).dropWhile (offset + mark < ·) ≠ [] := by
    rw [LineIndex.dropWhile_noteLines (List.dropWhile_cons_of_neg (by simp)), Nat.sub_zero,
      ← List.length_pos_iff, LineIndex.length_noteLines]
    exact Nat.succ_pos _
  simp only [LineIndex.locate, hlonger]
  obtain ⟨start, others, heq⟩ := List.exists_cons_of_ne_nil hfirst
  rw [heq, List.headD_cons, List.headD_cons]

/-- What the lexer refuses of the shorter source it refuses of the longer one. -/
theorem tokens_eq_of_rejected {offset : Nat} {reason : Rejection}
    (hlex : (lex .initial source.content).2 = .rejected offset reason) :
    longer.tokens = source.tokens := by
  have heq : lex .initial source.content =
      ((lex .initial source.content).1, .rejected offset reason) := Prod.ext rfl hlex
  have hlonger : lex .initial longer.content =
      ((lex .initial source.content).1, .rejected offset reason) := by
    rw [h.content, lex_append, heq]
  rw [tokens_of_rejected hlex, Source.tokens, hlonger]

/-- The tokens that the lexer has found in the shorter source begin those of the longer one. -/
theorem isPrefix_tokens : (lex .initial source.content).1 <+: longer.tokens.tokens := by
  have hlex : (lex .initial source.content).1 <+: (lex .initial longer.content).1 := by
    rw [h.content, lex_append]
    rcases lex .initial source.content with ⟨tokens, next | ⟨offset, reason⟩⟩
    · exact List.prefix_append _ _
    · exact List.prefix_rfl
  refine hlex.trans ?_
  exact isPrefix_tokens_of_lex longer

end Continued

/-! ## Sources read in pieces of one size -/

section Pieces

variable (limit : Nat) (first rest : List UInt8) (failure other : Option SystemError)

theorem bytes_pieces : (⟨pieces limit first, failure⟩ : Source).bytes = first :=
  flatten_pieces limit first

/-- Bytes that are read in pieces are continued, unless they are a part of a signature. -/
theorem continued_or_brief :
    Continued ⟨pieces limit first, failure⟩ ⟨pieces limit (first ++ rest), other⟩ rest ∨
      first ∈ briefs ∧
        (⟨pieces limit first, failure⟩ : Source).signature = ⟨.utf8, 0⟩ := by
  have hcontinued : (⟨pieces limit (first ++ rest), other⟩ : Source).signature =
      (⟨pieces limit first, failure⟩ : Source).signature →
      Continued ⟨pieces limit first, failure⟩ ⟨pieces limit (first ++ rest), other⟩ rest :=
    fun hsignature => ⟨ne_nil_of_mem_pieces limit first, ne_nil_of_mem_pieces limit _,
      by rw [bytes_pieces, bytes_pieces], hsignature⟩
  rw [Source.signature, Source.signature, Source.firstRead, Source.firstRead, headD_pieces,
    headD_pieces] at hcontinued
  rw [Source.signature, Source.firstRead, headD_pieces]
  by_cases hlimit : limit = 0
  · simp only [hlimit, if_true] at hcontinued ⊢
    exact (ofFirstRead_append first rest).imp_left hcontinued
  · simp only [hlimit, if_false] at hcontinued ⊢
    rcases Nat.le_total limit first.length with hle | hle
    · -- the first read does not reach beyond the first bytes
      left
      apply hcontinued
      rw [List.take_append_of_le_length hle]
    · rw [List.take_of_length_le hle] at hcontinued ⊢
      rw [List.take_append, List.take_of_length_le hle] at hcontinued
      exact (ofFirstRead_append first _).imp_left hcontinued

end Pieces

end FormsAudit.Markup
