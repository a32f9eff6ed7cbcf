import FormsAudit.Proofs.Document.Failing
import FormsAudit.Proofs.Encoding.Length
import FormsAudit.Proofs.Markup.Attributes
import FormsAudit.Proofs.Markup.Misreference

/-!
# Failures lie inside of their token

A failure is reported at an offset that is found by counting: the bytes of the characters before it,
the bytes that are skipped at the start of the token, the stretches of quotes.  None is reported
before its token (`FailsWith.start_le`).  And none is reported behind it (`FailsWith.le_stop`) if two
things hold of the token: it is read in an encoding whose characters are counted as the bytes they
are, and no name in it has a quote, which would be taken for the start of a value.

Of the names those matter that come before the value at fault (`FailsWith.le_stop_or`).
-/

namespace FormsAudit

namespace Document

open Markup

theorem illegal?_isPrefix {text before : List Char} {c : Char}
    (h : illegal? text = some (before, c)) : before <+: text := by
  unfold illegal? at h
  split at h
  · cases h
  · cases h
    exact List.takeWhile_prefix _

theorem sectionEnd?_le {raw : List UInt8} {index : Nat} (h : sectionEnd? raw = some index) :
    index ≤ raw.length := by
  induction raw generalizing index with
  | nil => cases h
  | cons byte rest ih =>
    unfold sectionEnd? at h
    split at h
    · cases h
      exact Nat.zero_le _
    · obtain ⟨found, hfound, rfl⟩ := Option.map_eq_some_iff.mp h
      exact Nat.succ_le_succ (ih hfound)

/-- What is counted before broken bytes is among them. -/
theorem valid_le (encoding : Encoding) (raw : List UInt8) :
    (if encoding = .utf8 then Utf8.validLength raw else 0) ≤ raw.length := by
  split
  · exact Utf8.validLength_le raw
  · exact Nat.zero_le _

/-! ## Not before the token -/

section Start

variable {encoding : Encoding} {failure : Failure}

variable [WideDecoders]

theorem start_le_of_expandAt {tokenStart start : Nat} {text : List Char}
    (hstart : tokenStart ≤ start) (h : expandAt encoding tokenStart start text = .error failure) :
    tokenStart ≤ failure.offset := by
  rcases expandAt_eq_error_iff.mp h with ⟨fault, -, rfl⟩ | ⟨_, _, _, -, -, -, rfl⟩
  · cases fault with
    | unterminated | unrecognized => exact hstart.trans (Nat.le_add_right _ _)
    | character => exact le_rfl
  · exact le_rfl

omit [WideDecoders] in
theorem start_le_valueStart (tokenStart : Nat) (tag : List UInt8) (count : Nat) :
    tokenStart ≤ valueStart tokenStart tag count := by
  rw [valueStart, Nat.add_assoc]
  exact Nat.le_add_right _ _

/-- **No failure of a token is reported before the token**, in whatever encoding it is read. -/
theorem FailsWith.start_le {token : Token} (h : FailsWith encoding token failure) :
    token.start ≤ failure.offset := by
  cases h with
  | undecodable | character | sectionEnd | lessThan | attributeFault => dsimp only; omega
  | reference _ _ hfails => exact start_le_of_expandAt le_rfl hfails
  | @value tag _ items _ _ _ _ _ hfails =>
    have hstart := start_le_valueStart token.start tag items.length
    rcases bind_eq_error_iff.mp hfails with hread | ⟨_, -, hexpand⟩
    · obtain ⟨-, rfl⟩ := decodeAt_eq_error_iff.mp hread
      exact hstart.trans (Nat.le_add_right _ _)
    · exact start_le_of_expandAt hstart hexpand

end Start

/-! ## Not behind the token -/

/-- A value is taken to start in its tag. -/
theorem valueStart_le (tokenStart : Nat) (tag : List UInt8) (count : Nat) :
    valueStart tokenStart tag count ≤ tokenStart + 1 + tag.length := by
  unfold valueStart
  cases hvalue : (quotedValues tag)[count]? with
  | none => simp
  | some value =>
    have hle := quotedValues_le (List.mem_of_getElem? hvalue)
    simp only [Option.map_some, Option.getD_some]
    omega

/-- A value is taken to start where it does, if no name before it has a quote. -/
theorem valueStart_eq {tag : List UInt8} {items : List Attribute} {item : Attribute}
    (hitems : items ++ [item] <+: (attributes tag).1) (hnames : UnquotedUpTo tag (items ++ [item]))
    (tokenStart : Nat) :
    valueStart tokenStart tag items.length = tokenStart + 1 + item.start ∧
      item.start + item.value.length < tag.length := by
  obtain ⟨rest, hvalues⟩ := map_quoted_isPrefix hitems hnames
  constructor
  · simp [valueStart, ← hvalues, Attribute.quoted]
  · have hmem : item.quoted ∈ quotedValues tag := by
      rw [← hvalues]
      simp
    exact quotedValues_le hmem

section Stop

variable {encoding : Encoding} (hbytewise : encoding.isBytewise = true) {failure : Failure}

include hbytewise

variable [WideDecoders]

theorem le_of_expandAt {tokenStart start : Nat} {raw : List UInt8} {text : List Char}
    (hread : encoding.decode? raw = some text) (hstart : tokenStart ≤ start)
    (h : expandAt encoding tokenStart start text = .error failure) :
    failure.offset ≤ start + raw.length := by
  have htoken : tokenStart ≤ start + raw.length := hstart.trans (Nat.le_add_right _ _)
  rcases expandAt_eq_error_iff.mp h with ⟨fault, hfault, rfl⟩ | ⟨_, _, _, -, -, -, rfl⟩
  · have hbefore : ∀ outside, fault.before? = some outside →
        start + encoding.encodedLength outside ≤ start + raw.length := by
      intro outside houtside
      apply Nat.add_le_add_left
      exact Encoding.encodedLength_le hbytewise hread (before_of_expand hfault outside houtside)
    cases fault with
    | unterminated before | unrecognized before => exact hbefore before rfl
    | character => exact htoken
  · exact htoken

/-- A value that is taken to start at an offset fails before as many bytes more as it has. -/
theorem le_of_value {tokenStart start : Nat} {raw : List UInt8} (hstart : tokenStart ≤ start)
    (h : readValue encoding tokenStart start raw = .error failure) :
    failure.offset ≤ start + raw.length := by
  rcases bind_eq_error_iff.mp h with hread | ⟨text, hread, hexpand⟩
  · obtain ⟨-, rfl⟩ := decodeAt_eq_error_iff.mp hread
    exact Nat.add_le_add_left (valid_le encoding raw) start
  · exact le_of_expandAt hbytewise (decodeAt_eq_ok_iff.mp hread) hstart hexpand

variable {token : Token} (h : FailsWith encoding token failure)
  {bytes : List UInt8} (hspelled : SpelledIn bytes token) (hstart : token.start ≤ token.stop)

include h hspelled hstart

/-- **A failure of a token is reported inside of the token**, or it is that of a value behind a name
with a quote. -/
theorem FailsWith.le_stop_or :
    failure.offset ≤ token.stop ∨
      ∃ tag text items item, (token.event = .startTag tag ∨ token.event = .emptyTag tag) ∧
        ReadsLegal encoding tag text ∧ items ++ [item] <+: (attributes tag).1 ∧
        ¬ UnquotedUpTo tag (items ++ [item]) ∧
        readValue encoding token.start (valueStart token.start tag items.length) item.value =
          .error failure ∧
        failure.offset ≤ token.stop + item.value.length := by
  have hcontent : ∀ {skip content}, token.event.content? = some (skip, content) →
      token.start + skip + content.length ≤ token.stop :=
    fun hcontent => hspelled.content_le hstart hcontent
  have htag : ∀ {tag}, token.event = .startTag tag ∨ token.event = .emptyTag tag →
      token.start + 1 + tag.length ≤ token.stop := by
    intro tag hevent
    exact hcontent (content?_of_tag hevent)
  cases h with
  | @undecodable skip content hevent =>
    left
    exact (Nat.add_le_add_left (valid_le encoding content) _).trans (hcontent hevent)
  | character hevent hread hillegal =>
    left
    have hlength := Encoding.encodedLength_le hbytewise hread (illegal?_isPrefix hillegal)
    exact (Nat.add_le_add_left hlength _).trans (hcontent hevent)
  | @sectionEnd content index hevent hend =>
    left
    have hle := sectionEnd?_le hend
    have hstop : token.start + 0 + content.length ≤ token.stop := hcontent (by rw [hevent]; rfl)
    dsimp only
    omega
  | @reference content text _ hevent hreads hfails =>
    left
    have hle := le_of_expandAt hbytewise hreads.1 le_rfl hfails
    have hstop : token.start + 0 + content.length ≤ token.stop := hcontent (by rw [hevent]; rfl)
    omega
  | lessThan hevent hless =>
    left
    exact (Nat.add_le_add_left (lessThanInValue?_le hless) _).trans (htag hevent)
  | attributeFault hevent hfault =>
    left
    exact (Nat.add_le_add_left (attributes_position_le hfault) _).trans (htag hevent)
  | @value tag text items item _ hevent hreads hitems hfails =>
    have hle := le_of_value hbytewise (start_le_valueStart token.start tag items.length) hfails
    have hstop := htag hevent
    by_cases hnames : UnquotedUpTo tag (items ++ [item])
    · left
      obtain ⟨heq, hlt⟩ := valueStart_eq hitems hnames token.start
      omega
    · right
      have hvalue := valueStart_le token.start tag items.length
      exact ⟨tag, text, items, item, hevent, hreads, hitems, hnames, hfails, by omega⟩

theorem FailsWith.le_stop (hnames : token.HasUnquotedNames) : failure.offset ≤ token.stop := by
  rcases h.le_stop_or hbytewise hspelled hstart with
    hle | ⟨tag, text, items, item, hevent, -, hitems, hquoted, -⟩
  · exact hle
  · have hunquoted : Unquoted tag := by
      rcases hevent with hevent | hevent <;>
        simpa only [Token.HasUnquotedNames, hevent] using hnames
    exact absurd ⟨hunquoted.1, fun other hother => hunquoted.2 other (hitems.subset hother)⟩ hquoted

end Stop

end Document

end FormsAudit
