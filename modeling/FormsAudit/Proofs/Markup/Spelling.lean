import FormsAudit.Proofs.Markup.Lexed
import Mathlib.Data.List.TakeWhile

/-!
# How tokens are spelled

The bytes that the lexer has read since the start of what it collects are determined by its mode,
and the byte that completes a token completes its spelling.  So every token of a source is spelled
by the bytes between the offsets at which it starts and stops (`spelled_of_source`), and what is not
a token is reported behind the tokens and at a place that there is (`rejected_between_of_source`).

Of the spelling of a tag or a text nothing is lost.  An end tag does without the blanks after its
name, and a document type declaration without those before its content.
-/

namespace FormsAudit.Markup

open Lexer (cdataOpening doctypeOpening upperByte isDeclaration)

/-- The bytes of an event, its delimiters among them. -/
inductive Spelled : Event → List UInt8 → Prop
  | declaration (content : List UInt8) : isDeclaration content = true →
      Spelled (.declaration content) ([0x3C, 0x3F] ++ content ++ [0x3F, 0x3E])
  | doctype (opening blanks content : List UInt8) : opening.map upperByte = doctypeOpening →
      (∀ byte ∈ blanks, isSpace byte = true) →
      Spelled (.doctype content) ([0x3C, 0x21] ++ (opening ++ (blanks ++ content)) ++ [0x3E])
  | startTag (content : List UInt8) : Spelled (.startTag content) ([0x3C] ++ content ++ [0x3E])
  | emptyTag (content : List UInt8) :
      Spelled (.emptyTag content) ([0x3C] ++ content ++ [0x2F, 0x3E])
  | endTag (name blanks : List UInt8) : (∀ byte ∈ blanks, isSpace byte = true) →
      Spelled (.endTag name) ([0x3C, 0x2F] ++ (name ++ blanks) ++ [0x3E])
  | text (content : List UInt8) : Spelled (.text content) content
  | cdata (content : List UInt8) :
      Spelled (.cdata content) ([0x3C, 0x21] ++ (cdataOpening ++ content) ++ [0x5D, 0x5D, 0x3E])
  | comment (content : List UInt8) :
      Spelled (.comment content) ([0x3C, 0x21, 0x2D, 0x2D] ++ content ++ [0x2D, 0x2D, 0x3E])
  | instruction (content : List UInt8) :
      Spelled (.instruction content) ([0x3C, 0x3F] ++ content ++ [0x3F, 0x3E])

/-- The bytes read of what is being collected. -/
def Mode.bytes : Mode → List UInt8
  | .text collected => collected.reverse
  | .markup => [0x3C]
  | .bang => [0x3C, 0x21]
  | .cdata collected | .comment collected | .doctype _ collected =>
    [0x3C, 0x21] ++ collected.reverse
  | .instruction collected => [0x3C, 0x3F] ++ collected.reverse
  | .tag closing _ collected => (if closing then [0x3C, 0x2F] else [0x3C]) ++ collected.reverse

/-! ## What a step does to the spelling -/

/-- What a step comes to, as far as the bytes read go: a `<` begins markup and may end a text, any
other byte belongs to what is being collected. -/
inductive Spells (lexer : Lexer) (byte : UInt8) : Advance → Prop
  | begun {next : Lexer} : lexer.mode = .text [] → next.start = lexer.offset →
      next.mode.bytes = [byte] → Spells lexer byte (.collecting next)
  | grown {next : Lexer} : next.start = lexer.start →
      next.mode.bytes = lexer.mode.bytes ++ [byte] → Spells lexer byte (.collecting next)
  | ended {event : Event} {next : Lexer} : Spelled event lexer.mode.bytes →
      next.start = lexer.offset → next.mode.bytes = [byte] →
      Spells lexer byte (.token ⟨lexer.start, lexer.offset, event⟩ next)
  | completed {event : Event} {next : Lexer} : Spelled event (lexer.mode.bytes ++ [byte]) →
      next.start = lexer.offset + 1 → next.mode.bytes = [] →
      Spells lexer byte (.token ⟨lexer.start, lexer.offset + 1, event⟩ next)
  | rejected {offset : Nat} {reason : Rejection} :
      (lexer.start ≤ offset ∧ offset ≤ lexer.start + lexer.mode.bytes.length) ∨
        offset = lexer.offset →
      Spells lexer byte (.rejected offset reason)

variable {lexer : Lexer} {byte : UInt8}

theorem spells_collect {mode : Mode} (h : mode.bytes = lexer.mode.bytes ++ [byte]) :
    Spells lexer byte (lexer.collect mode) :=
  .grown rfl h

theorem spells_complete {event : Event} {opened : List (List UInt8)}
    (h : Spelled event (lexer.mode.bytes ++ [byte])) :
    Spells lexer byte (lexer.complete event opened) :=
  .completed h rfl rfl

theorem spells_reject (reason : Rejection) : Spells lexer byte (lexer.reject reason) :=
  .rejected (.inl ⟨le_rfl, Nat.le_add_right _ _⟩)

theorem spells_stepText {collected : List UInt8} (hmode : lexer.mode = .text collected) :
    Spells lexer byte (lexer.stepText collected byte) := by
  unfold Lexer.stepText
  split
  · rename_i hbyte
    dsimp only
    split
    · rename_i hempty
      rw [List.isEmpty_iff] at hempty
      exact .begun (hempty ▸ hmode) rfl (by simp [Mode.bytes, hbyte])
    · exact .ended (by simpa [hmode, Mode.bytes] using Spelled.text collected.reverse) rfl
        (by simp [Mode.bytes, hbyte])
  · exact spells_collect (by simp [hmode, Mode.bytes])

/-- The name of an end tag is what has been read of it without the blanks at the end. -/
theorem exists_blanks (collected : List UInt8) :
    ∃ blanks, (∀ byte ∈ blanks, isSpace byte = true) ∧ collected.reverse =
      (if (collected.dropWhile isSpace).isEmpty then collected
        else collected.dropWhile isSpace).reverse ++ blanks := by
  split
  · exact ⟨[], by simp, by simp⟩
  · refine ⟨(collected.takeWhile isSpace).reverse, fun byte hbyte => ?_, ?_⟩
    · exact List.mem_takeWhile_imp (List.mem_reverse.mp hbyte)
    · rw [← List.reverse_append, List.takeWhile_append_dropWhile]

theorem spells_completeTag {closing : Bool} {collected : List UInt8}
    (hmode : lexer.mode.bytes = (Mode.tag closing none collected).bytes) (hbyte : byte = 0x3E) :
    Spells lexer byte (lexer.completeTag closing collected) := by
  unfold Lexer.completeTag
  cases closing with
  | true =>
    obtain ⟨blanks, hblanks, hcollected⟩ := exists_blanks collected
    dsimp only
    rw [if_pos rfl]
    generalize (if (collected.dropWhile isSpace).isEmpty then collected
      else collected.dropWhile isSpace).reverse = name at hcollected
    split
    · exact spells_reject _
    · split
      · refine spells_complete ?_
        rw [hmode, hbyte]
        simpa [Mode.bytes, hcollected] using Spelled.endTag name blanks hblanks
      · exact spells_reject _
  | false =>
    simp only [Bool.false_eq_true, if_false]
    split
    · rename_i rest
      refine spells_complete ?_
      rw [hmode, hbyte]
      simpa [Mode.bytes] using Spelled.emptyTag rest.reverse
    · refine spells_complete ?_
      rw [hmode, hbyte]
      simpa [Mode.bytes] using Spelled.startTag collected.reverse

theorem spells_stepTag {closing : Bool} {quote : Option UInt8} {collected : List UInt8}
    (hmode : lexer.mode.bytes = (Mode.tag closing quote collected).bytes) :
    Spells lexer byte (lexer.stepTag closing quote collected byte) := by
  -- whatever quotes the byte opens or closes, it is collected
  have hcollect : ∀ quote, (Mode.tag closing quote (byte :: collected)).bytes =
      lexer.mode.bytes ++ [byte] := by
    intro quote
    rw [hmode]
    simp [Mode.bytes]
  unfold Lexer.stepTag
  cases quote with
  | some mark => exact spells_collect (hcollect _)
  | none =>
    dsimp only
    split
    · rename_i hbyte
      exact spells_completeTag hmode hbyte
    · split <;> exact spells_collect (hcollect _)

theorem spells_stepMarkup (hmode : lexer.mode = .markup) :
    Spells lexer byte (lexer.stepMarkup byte) := by
  unfold Lexer.stepMarkup
  split
  · rename_i hbyte
    exact spells_collect (by simp [hmode, hbyte, Mode.bytes])
  · split
    · rename_i hbyte
      exact spells_collect (by simp [hmode, hbyte, Mode.bytes])
    · split
      · rename_i hbyte
        exact spells_collect (by simp [hmode, hbyte, Mode.bytes])
      · exact spells_stepTag (by simp [hmode, Mode.bytes])

theorem spells_stepBang (hmode : lexer.mode = .bang) :
    Spells lexer byte (lexer.stepBang byte) := by
  unfold Lexer.stepBang
  split
  · exact spells_collect (by simp [hmode, Mode.bytes])
  · split
    · exact spells_collect (by simp [hmode, Mode.bytes])
    · split
      · exact spells_collect (by simp [hmode, Mode.bytes])
      · exact spells_reject _

theorem spells_stepCData {collected : List UInt8} (hmode : lexer.mode = .cdata collected) :
    Spells lexer byte (lexer.stepCData collected byte) := by
  unfold Lexer.stepCData
  split
  · rename_i rest
    dsimp only
    split
    · rename_i hopening
      obtain ⟨content, hcontent⟩ := List.isPrefixOf_iff_prefix.mp hopening
      refine spells_complete ?_
      have hbytes : lexer.mode.bytes ++ [0x3E] =
          [0x3C, 0x21] ++ rest.reverse ++ [0x5D, 0x5D, 0x3E] := by
        simp [hmode, Mode.bytes]
      rw [hbytes, ← hcontent, List.drop_left]
      exact .cdata content
    · exact spells_reject _
  · exact spells_collect (by simp [hmode, Mode.bytes])

theorem le_of_doubleHyphen? {content : List UInt8} {distance found : Nat}
    (h : Lexer.doubleHyphen? distance content = some found) :
    found ≤ distance + content.length := by
  induction content generalizing distance with
  | nil => cases h
  | cons byte rest ih =>
    unfold Lexer.doubleHyphen? at h
    rw [List.length_cons]
    split at h
    · cases rest with
      | nil =>
        cases h
        omega
      | cons next rest =>
        dsimp only at h
        split at h
        · cases h
          omega
        · have := ih h
          omega
    · have := ih h
      omega

theorem spells_stepComment {collected : List UInt8} (hmode : lexer.mode = .comment collected) :
    Spells lexer byte (lexer.stepComment collected byte) := by
  unfold Lexer.stepComment
  split
  · rename_i rest
    split
    · exact spells_collect (by simp [hmode, Mode.bytes])
    · split
      · rename_i content hcontent
        have hbytes : lexer.mode.bytes =
            [0x3C, 0x21, 0x2D, 0x2D] ++ content ++ [0x2D, 0x2D] := by
          simp [hmode, Mode.bytes, hcontent]
        split
        · rename_i distance hdistance
          have hle := le_of_doubleHyphen? hdistance
          refine .rejected (.inl ?_)
          simp only [hbytes, List.length_append, List.length_cons, List.length_nil]
          omega
        · refine spells_complete ?_
          rw [hbytes]
          simpa using Spelled.comment content
      · exact spells_reject _
  · exact spells_collect (by simp [hmode, Mode.bytes])

theorem spells_completeDoctype {depth : Nat} {collected : List UInt8}
    (hmode : lexer.mode = .doctype depth collected) (hbyte : byte = 0x3E) :
    Spells lexer byte (lexer.completeDoctype collected) := by
  unfold Lexer.completeDoctype
  dsimp only
  split
  · rename_i hopening
    split
    · exact .rejected (.inr rfl)
    · refine spells_complete ?_
      have hbytes : lexer.mode.bytes ++ [byte] = [0x3C, 0x21] ++ collected.reverse ++ [0x3E] := by
        simp [hmode, hbyte, Mode.bytes]
      have hspelled := Spelled.doctype _
        ((collected.reverse.drop doctypeOpening.length).takeWhile isSpace)
        ((collected.reverse.drop doctypeOpening.length).dropWhile isSpace) hopening
        fun byte hbyte => List.mem_takeWhile_imp hbyte
      rw [List.takeWhile_append_dropWhile, List.take_append_drop] at hspelled
      rw [hbytes]
      exact hspelled
  · exact spells_reject _

theorem spells_stepDoctype {depth : Nat} {collected : List UInt8}
    (hmode : lexer.mode = .doctype depth collected) :
    Spells lexer byte (lexer.stepDoctype depth collected byte) := by
  unfold Lexer.stepDoctype
  split
  · exact spells_collect (by simp [hmode, Mode.bytes])
  · split
    · rename_i hbyte
      split
      · exact spells_completeDoctype hmode hbyte
      · exact spells_collect (by simp [hmode, Mode.bytes])
    · exact spells_collect (by simp [hmode, Mode.bytes])

theorem spells_stepInstruction {collected : List UInt8}
    (hmode : lexer.mode = .instruction collected) :
    Spells lexer byte (lexer.stepInstruction collected byte) := by
  unfold Lexer.stepInstruction
  split
  · exact spells_reject _
  · rename_i rest
    have hbytes : lexer.mode.bytes ++ [0x3E] =
        [0x3C, 0x3F] ++ rest.reverse ++ [0x3F, 0x3E] := by
      simp [hmode, Mode.bytes]
    dsimp only
    split
    · rename_i hdeclaration
      exact spells_complete (hbytes ▸ .declaration rest.reverse hdeclaration)
    · exact spells_complete (hbytes ▸ .instruction rest.reverse)
  · exact spells_collect (by simp [hmode, Mode.bytes])

/-- Every step treats the spelling as `Spells` says. -/
theorem spells_of_step {advance : Advance} (hstep : lexer.step byte = advance) :
    Spells lexer byte advance := by
  rw [← hstep]
  unfold Lexer.step
  split
  · rename_i hmode; exact spells_stepText hmode
  · rename_i hmode; exact spells_stepMarkup hmode
  · rename_i hmode; exact spells_stepBang hmode
  · rename_i hmode; exact spells_stepCData hmode
  · rename_i hmode; exact spells_stepComment hmode
  · rename_i hmode; exact spells_stepDoctype hmode
  · rename_i hmode; exact spells_stepInstruction hmode
  · rename_i hmode; exact spells_stepTag (congrArg Mode.bytes hmode)

/-! ## Readings -/

variable {consumed : List UInt8} {tokens : List Token}

theorem Lexed.start_le (h : Lexed consumed tokens lexer) : lexer.start ≤ consumed.length := by
  rw [← h.offset_eq]
  rcases h.start_lt_or with ⟨-, hlt⟩ | ⟨-, heq⟩
  · exact hlt.le
  · exact heq.le

/-- What has been read since the start is what the mode holds. -/
theorem Lexed.drop_start (h : Lexed consumed tokens lexer) :
    consumed.drop lexer.start = lexer.mode.bytes := by
  induction h with
  | initial => rfl
  | collecting hread hstep ih =>
    cases spells_of_step hstep with
    | begun _ hstart hbytes => rw [hstart, hbytes, hread.offset_eq, List.drop_left]
    | grown hstart hbytes => rw [hstart, hbytes, List.drop_append_of_le_length hread.start_le, ih]
  | token hread hstep ih =>
    cases spells_of_step hstep with
    | ended _ hstart hbytes => rw [hstart, hbytes, hread.offset_eq, List.drop_left]
    | completed _ hstart hbytes =>
      rw [hstart, hbytes, hread.offset_eq]
      exact List.drop_of_length_le (by simp)

theorem Lexed.length_bytes (h : Lexed consumed tokens lexer) :
    lexer.start + lexer.mode.bytes.length = consumed.length := by
  have hstart := h.start_le
  rw [← h.drop_start, List.length_drop]
  omega

/-- The token is spelled by the bytes from where it starts to where it stops. -/
def SpelledIn (bytes : List UInt8) (token : Token) : Prop :=
  token.stop ≤ bytes.length ∧ Spelled token.event ((bytes.take token.stop).drop token.start)

theorem SpelledIn.of_isPrefix {bytes longer : List UInt8} {token : Token}
    (h : SpelledIn bytes token) (hpre : bytes <+: longer) : SpelledIn longer token := by
  obtain ⟨rest, rfl⟩ := hpre
  refine ⟨h.1.trans (by simp), ?_⟩
  rw [List.take_append_of_le_length h.1]
  exact h.2

theorem Lexed.spelled (h : Lexed consumed tokens lexer) :
    ∀ token ∈ tokens, SpelledIn consumed token := by
  induction h with
  | initial => simp
  | collecting _ _ ih =>
    exact fun token htoken => (ih token htoken).of_isPrefix (List.prefix_append _ _)
  | @token consumed tokens lexer next byte last hread hstep ih =>
    intro token htoken
    rcases List.mem_append.mp htoken with htoken | hlast
    · exact (ih token htoken).of_isPrefix (List.prefix_append _ _)
    · obtain rfl := List.mem_singleton.mp hlast
      cases spells_of_step hstep with
      | ended hspelled =>
        refine ⟨by simp [hread.offset_eq], ?_⟩
        rw [hread.offset_eq, List.take_left, hread.drop_start]
        exact hspelled
      | completed hspelled =>
        have htake : (consumed ++ [byte]).take (lexer.offset + 1) = consumed ++ [byte] :=
          List.take_of_length_le (by simp [hread.offset_eq])
        refine ⟨by simp [hread.offset_eq], ?_⟩
        dsimp only
        rw [htake, List.drop_append_of_le_length hread.start_le, hread.drop_start]
        exact hspelled

/-! ## Sources -/

/-- **Every token of a source is spelled by its bytes.** -/
theorem spelled_of_source (source : Source) {token : Token}
    (h : token ∈ source.tokens.tokens) : SpelledIn source.content token := by
  obtain ⟨consumed, tokens, lexer, hpre, hread, heq | ⟨collected, -, hmode, heq⟩⟩ :=
    exists_lexed source <;> rw [heq] at h
  · exact (hread.spelled token h).of_isPrefix hpre
  · rcases List.mem_append.mp h with h | hlast
    · exact (hread.spelled token h).of_isPrefix hpre
    · rw [List.mem_singleton.mp hlast]
      refine SpelledIn.of_isPrefix ⟨hread.offset_eq.le, ?_⟩ hpre
      dsimp only
      rw [hread.offset_eq, List.take_length, hread.drop_start, hmode]
      exact .text _

theorem Lexed.rejected_between (h : Lexed consumed tokens lexer) {offset : Nat}
    {reason : Rejection} (hstep : lexer.step byte = .rejected offset reason) :
    stopOf tokens ≤ offset ∧ offset ≤ consumed.length := by
  rw [← h.start_eq, ← h.length_bytes]
  have hoffset := h.offset_eq
  have hlength := h.length_bytes
  have hstart := h.start_le
  cases spells_of_step hstep with
  | rejected hbetween => omega

/-- What is not a token is reported behind the tokens, and at a place that there is. -/
theorem rejected_between_of_source {source : Source} {offset : Nat} {reason : Rejection}
    (h : source.tokens.ending = .rejected offset reason) :
    stopOf source.tokens.tokens ≤ offset ∧ offset ≤ source.content.length := by
  obtain ⟨consumed, lexer, hread, hend⟩ := Lexed.initial.lex source.content
  rw [List.nil_append, List.nil_append] at hread
  unfold Source.tokens at h ⊢
  rcases hend with ⟨rfl, hready⟩ | ⟨byte, other, why, hpre, hstep, hrejected⟩
  · -- the end of the input comes inside of markup
    rw [show lex .initial source.content = ((lex .initial source.content).1, .ready lexer) from
      Prod.ext rfl hready] at h ⊢
    cases hfailure : source.failure with
    | some error => simp [hfailure] at h
    | none =>
      simp only [hfailure] at h ⊢
      have hstart := hread.start_le
      have hstop := hread.start_eq
      unfold Lexer.finish at h ⊢
      cases hmode : lexer.mode with
      | text collected => cases collected <;> simp [hmode] at h
      | _ =>
        simp only [hmode] at h ⊢
        obtain ⟨rfl, -⟩ := Ending.rejected.inj h
        rw [List.append_nil]
        exact ⟨hstop.ge, hstart⟩
  · rw [show lex .initial source.content = ((lex .initial source.content).1, .rejected other why)
      from Prod.ext rfl hrejected] at h ⊢
    obtain ⟨rfl, -⟩ := Ending.rejected.inj h
    have hbetween := hread.rejected_between hstep
    exact ⟨hbetween.1, hbetween.2.trans (isPrefix_of_concat hpre).length_le⟩

/-! ## Contents -/

/-- The content of an event that has to be text, and how many bytes into the token it begins. -/
def Event.content? : Event → Option (Nat × List UInt8)
  | .startTag content | .emptyTag content => some (1, content)
  | .text content => some (0, content)
  | .cdata content => some (9, content)
  | .comment content => some (4, content)
  | .instruction content => some (2, content)
  | _ => none

theorem Spelled.exists_content {event : Event} {bytes content : List UInt8} {skip : Nat}
    (h : Spelled event bytes) (hcontent : event.content? = some (skip, content)) :
    ∃ opening closing, bytes = opening ++ content ++ closing ∧ opening.length = skip := by
  cases h with
  | declaration | doctype | endTag => cases hcontent
  | text =>
    cases hcontent
    exact ⟨[], [], by simp, rfl⟩
  | cdata content =>
    cases hcontent
    exact ⟨[0x3C, 0x21] ++ cdataOpening, [0x5D, 0x5D, 0x3E], by simp, rfl⟩
  | startTag | emptyTag | comment | instruction =>
    cases hcontent
    exact ⟨_, _, rfl, rfl⟩

theorem content?_of_tag {event : Event} {tag : List UInt8}
    (h : event = .startTag tag ∨ event = .emptyTag tag) : event.content? = some (1, tag) := by
  rcases h with rfl | rfl <;> rfl

/-- The content of a token stands in the bytes that spell it. -/
theorem SpelledIn.exists_append {bytes content : List UInt8} {token : Token} {skip : Nat}
    (h : SpelledIn bytes token) (hstart : token.start ≤ token.stop)
    (hcontent : token.event.content? = some (skip, content)) :
    ∃ before after, bytes = before ++ (content ++ after) ∧ before.length = token.start + skip := by
  obtain ⟨hstop, hspelled⟩ := h
  obtain ⟨opening, closing, heq, rfl⟩ := hspelled.exists_content hcontent
  refine ⟨bytes.take token.start ++ opening, closing ++ bytes.drop token.stop, ?_, ?_⟩
  · calc bytes
      _ = (bytes.take token.stop).take token.start ++ (bytes.take token.stop).drop token.start ++
            bytes.drop token.stop := by
        rw [List.take_append_drop, List.take_append_drop]
      _ = bytes.take token.start ++ (opening ++ content ++ closing) ++ bytes.drop token.stop := by
        rw [heq, List.take_take, Nat.min_eq_left hstart]
      _ = _ := by simp
  · rw [List.length_append, List.length_take, Nat.min_eq_left (hstart.trans hstop)]

/-- The content of a token lies between where the token starts and where it stops. -/
theorem SpelledIn.content_le {bytes content : List UInt8} {token : Token} {skip : Nat}
    (h : SpelledIn bytes token) (hstart : token.start ≤ token.stop)
    (hcontent : token.event.content? = some (skip, content)) :
    token.start + skip + content.length ≤ token.stop := by
  obtain ⟨hstop, hspelled⟩ := h
  obtain ⟨opening, closing, heq, rfl⟩ := hspelled.exists_content hcontent
  have hlength := congrArg List.length heq
  rw [List.length_drop, List.length_take, Nat.min_eq_left hstop, List.length_append,
    List.length_append] at hlength
  omega

end FormsAudit.Markup
