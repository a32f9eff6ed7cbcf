import FormsAudit.Proofs.Document.Misreference
import FormsAudit.Proofs.Text.Encoded

/-!
# Faults are located at the bytes at fault

Some faults are found by looking at the content of a token byte by byte or character by character: a
character that may not stand in a document, `]]>` in text, `<` in a value, bytes that are no text.
Where bytes are counted as what they are, each of them is reported where it lies
(`audit_located`): the content is divided there in such a way that the fault begins what follows
(`Offends`), and of characters and broken bytes it is the first.
-/

namespace FormsAudit

/-! ## Bytes divided as the text is -/

theorem exists_of_mapM_append {α β : Type} {read : α → Option β} {items : List α}
    {first second : List β} (h : items.mapM read = some (first ++ second)) :
    ∃ front back, items = front ++ back ∧ front.mapM read = some first ∧
      back.mapM read = some second := by
  induction items generalizing first with
  | nil =>
    obtain ⟨rfl, rfl⟩ : first = [] ∧ second = [] := by simpa using h
    exact ⟨[], [], rfl, rfl, rfl⟩
  | cons item items ih =>
    cases first with
    | nil => exact ⟨[], item :: items, rfl, rfl, h⟩
    | cons found first =>
      simp only [List.mapM_cons, Option.bind_eq_bind, Option.pure_def,
        Option.bind_eq_some_iff] at h
      obtain ⟨next, hnext, rest, hrest, heq⟩ := h
      obtain ⟨rfl, rfl⟩ := List.cons.inj (Option.some.inj heq)
      obtain ⟨front, back, rfl, hfront, hback⟩ := ih hrest
      exact ⟨item :: front, back, rfl, by simp [List.mapM_cons, hnext, hfront], hback⟩

/-- Wherever the text is divided, the bytes are. -/
theorem Encoding.exists_of_decode?_concat [WideDecoders] {encoding : Encoding}
    (hbytewise : encoding.isBytewise = true) {bytes : List UInt8} {first second : List Char}
    (h : encoding.decode? bytes = some (first ++ second)) :
    ∃ front back, bytes = front ++ back ∧ encoding.decode? front = some first ∧
      encoding.decode? back = some second := by
  rcases eq_utf8_or hbytewise with rfl | ⟨read, -, hdecode⟩
  · have hscan : Utf8.scan bytes = first.map some ++ second.map some := by
      rw [← List.map_append]
      exact Utf8.decode?_eq_some_iff.mp h
    obtain ⟨front, back, hbytes, hfront, hback⟩ :=
      Utf8.exists_of_scanFrom_append (fun _ => rfl) hscan
    exact ⟨front, back, hbytes, Utf8.decode?_eq_some_iff.mpr hfront,
      Utf8.decode?_eq_some_iff.mpr hback⟩
  · simp only [hdecode] at h ⊢
    exact exists_of_mapM_append h

namespace Document

open Markup

/-! ## The first fault -/

theorem eq_append_of_illegal? {text before : List Char} {c : Char}
    (h : illegal? text = some (before, c)) :
    ∃ after, text = before ++ c :: after ∧ (∀ other ∈ before, IsLegalCode other.toNat) ∧
      ¬ IsLegalCode c.toNat := by
  unfold illegal? at h
  split at h
  · cases h
  · rename_i found after hdrop
    cases h
    refine ⟨after, ?_, fun other hother => ?_, ?_⟩
    · rw [← hdrop, List.takeWhile_append_dropWhile]
    · exact isLegal_iff.mp (List.mem_takeWhile_imp hother)
    · rw [← isLegal_iff, Bool.not_eq_true]
      have hhead := List.head_dropWhile_not isLegal (l := text) (by simp [hdrop])
      simpa only [hdrop, List.head_cons] using hhead

theorem eq_append_of_sectionEnd? {raw : List UInt8} {index : Nat}
    (h : sectionEnd? raw = some index) :
    ∃ front back, raw = front ++ back ∧ front.length = index ∧ [0x5D, 0x5D, 0x3E] <+: back := by
  induction raw generalizing index with
  | nil => cases h
  | cons byte rest ih =>
    unfold sectionEnd? at h
    split at h
    · rename_i hstarts
      cases h
      exact ⟨[], byte :: rest, rfl, rfl, List.isPrefixOf_iff_prefix.mp hstarts⟩
    · obtain ⟨found, hfound, rfl⟩ := Option.map_eq_some_iff.mp h
      obtain ⟨front, back, rfl, rfl, hback⟩ := ih hfound
      exact ⟨byte :: front, back, rfl, rfl, hback⟩

theorem eq_append_of_lessThanInValue? {tag : List UInt8} {index : Nat}
    (h : lessThanInValue? (quotedValues tag) = some index) :
    ∃ front back, tag = front ++ 0x3C :: back ∧ front.length = index := by
  obtain ⟨value, hvalue, hindex⟩ := List.exists_of_findSome?_eq_some h
  obtain ⟨found, hfound, rfl⟩ := Option.map_eq_some_iff.mp hindex
  obtain ⟨before, mark, after, htag, hstart⟩ := exists_of_mem_quotedValues hvalue
  obtain ⟨hlt, hbyte, -⟩ := List.findIdx?_eq_some_iff_getElem.mp hfound
  have hsplit : value.content =
      value.content.take found ++ 0x3C :: value.content.drop (found + 1) := by
    rw [← beq_iff_eq.mp hbyte, List.getElem_cons_drop, List.take_append_drop]
  refine ⟨before ++ value.content.take found, value.content.drop (found + 1) ++ mark :: after,
    ?_, ?_⟩
  · calc tag
      _ = before ++ (value.content ++ mark :: after) := htag
      _ = before ++ (value.content.take found ++ 0x3C :: value.content.drop (found + 1) ++
            mark :: after) := by
        rw [← hsplit]
      _ = _ := by simp
  · rw [List.length_append, List.length_take, Nat.min_eq_left hlt.le, hstart]

section

variable [WideDecoders]

/-- What a fault is that lies in the content of an event where `front` ends and `back` begins. -/
inductive Offends (encoding : Encoding) (event : Event) (front back : List UInt8) : Fault → Prop
  /-- The next character is not legal, and those before it are. -/
  | character {before after : List Char} {c : Char} (hbefore : ReadsLegal encoding front before)
    (hread : encoding.decode? back = some (c :: after)) (hillegal : ¬ IsLegalCode c.toNat) :
    Offends encoding event front back (.illegalCharacter c)
  | sectionEnd (hevent : event = .text (front ++ back)) (hend : [0x5D, 0x5D, 0x3E] <+: back) :
    Offends encoding event front back .sectionEndInText
  | lessThan (hevent : event.isTag = true) (hless : [0x3C] <+: back) :
    Offends encoding event front back .lessThanInValue
  /-- What comes before is text, and no character follows. -/
  | undecodable {before : List Char} (hencoding : encoding = .utf8)
    (hbefore : Utf8.decode? front = some before) (hne : back ≠ [])
    (hbroken : ∀ c, ¬ String.utf8EncodeChar c <+: back) :
    Offends encoding event front back (.undecodable .utf8)

theorem Offends.ne_nil {encoding : Encoding} (hbytewise : encoding.isBytewise = true) {event : Event}
    {front back : List UInt8} {fault : Fault} (h : Offends encoding event front back fault) :
    back ≠ [] := by
  rintro rfl
  cases h with
  | character _ hread =>
    rw [Encoding.decode?_nil hbytewise] at hread
    cases hread
  | sectionEnd _ hend => simp at hend
  | lessThan _ hless => simp at hless
  | undecodable _ _ hne => exact hne rfl

/-- Whether the fault of a token is one that lies in its content: of characters, one that is there
itself and not by a reference. -/
def IsLiteral (encoding : Encoding) (token : Token) : Fault → Prop
  | .illegalCharacter c => ∃ skip content text, token.event.content? = some (skip, content) ∧
      encoding.decode? content = some text ∧ c ∈ text
  | .sectionEndInText | .lessThanInValue => True
  | .undecodable encoding => encoding = .utf8
  | _ => False

/-- Where a reference is at fault, the characters of the content themselves are not. -/
theorem not_isLiteral_of_expandAt {encoding : Encoding} {token : Token} {skip : Nat}
    {content : List UInt8} {text inner : List Char} {tokenStart start : Nat} {failure : Failure}
    (hcontent : token.event.content? = some (skip, content))
    (hreads : ReadsLegal encoding content text)
    (h : expandAt encoding tokenStart start inner = .error failure) :
    ¬ IsLiteral encoding token failure.fault := by
  rcases expandAt_eq_error_iff.mp h with ⟨fault, -, rfl⟩ | ⟨_, _, c, -, -, hillegal, rfl⟩
  · exact fun hliteral => hliteral
  · rintro ⟨_, content', text', hcontent', hread, hmem⟩
    rw [hcontent] at hcontent'
    cases hcontent'
    obtain rfl : text = text' := Option.some.inj (hreads.1.symm.trans hread)
    obtain ⟨_, -, -, hnot⟩ := eq_append_of_illegal? hillegal
    exact hnot (hreads.2 c hmem)

theorem not_isLiteral_of_obstacle? {encoding : Encoding} {before : List Token} {token : Token}
    {fault : Fault} (h : obstacle? before token = some fault) :
    ¬ IsLiteral encoding token fault := by
  unfold obstacle? at h
  split at h
  all_goals
    repeat' split at h
    all_goals cases h <;> exact fun hliteral => hliteral

/-- **A fault that lies in the content of a token is reported where it begins.** -/
theorem FailsWith.exists_offends {encoding : Encoding} (hbytewise : encoding.isBytewise = true)
    {token : Token} {failure : Failure} (h : FailsWith encoding token failure)
    (hliteral : IsLiteral encoding token failure.fault) :
    ∃ skip front back, token.event.content? = some (skip, front ++ back) ∧
      failure.offset = token.start + skip + front.length ∧
        Offends encoding token.event front back failure.fault := by
  cases h with
  | @undecodable skip content hcontent hread =>
    obtain rfl : encoding = .utf8 := hliteral
    obtain ⟨front, back, text, rfl, hlength, hfront, hne, hbroken⟩ := Utf8.exists_broken hread
    exact ⟨skip, front, back, hcontent, by rw [if_pos rfl, hlength],
      .undecodable rfl hfront hne hbroken⟩
  | @character skip content text before c hcontent hread hillegal =>
    obtain ⟨after, rfl, hbefore, hnot⟩ := eq_append_of_illegal? hillegal
    obtain ⟨front, back, rfl, hfront, hback⟩ := Encoding.exists_of_decode?_concat hbytewise hread
    exact ⟨skip, front, back, hcontent, by rw [Encoding.encodedLength_eq hbytewise hfront],
      .character ⟨hfront, hbefore⟩ hback hnot⟩
  | @sectionEnd content index hevent hend =>
    obtain ⟨front, back, rfl, rfl, hback⟩ := eq_append_of_sectionEnd? hend
    exact ⟨0, front, back, by rw [hevent]; rfl, rfl, .sectionEnd hevent hback⟩
  | @lessThan tag index hevent hless =>
    obtain ⟨front, back, rfl, rfl⟩ := eq_append_of_lessThanInValue? hless
    have htag : token.event.isTag = true := by
      rcases hevent with hevent | hevent <;> rw [hevent] <;> rfl
    exact ⟨1, front, 0x3C :: back, content?_of_tag hevent, rfl,
      .lessThan htag (List.prefix_append [0x3C] back)⟩
  | @reference content text failure hevent hreads hfails =>
    have hcontent : token.event.content? = some (0, content) := by rw [hevent]; rfl
    exact absurd hliteral (not_isLiteral_of_expandAt hcontent hreads hfails)
  | attributeFault => cases hliteral
  | @value tag text items item failure hevent hreads hitems hfails =>
    obtain ⟨value, -, hexpand⟩ :=
      exists_expandAt_of_readValue hbytewise hreads (mem_of_concat hitems) hfails
    exact absurd hliteral (not_isLiteral_of_expandAt (content?_of_tag hevent) hreads hexpand)

/-! ## The report -/

/-- **A fault of the content of a token is reported at the byte where it begins.**  The token ends
the document, and what is read of its content up to that byte is without the fault. -/
theorem audit_located (file : String) (index : ScriptIndex) {source : Source}
    {before : List Token} {token : Token} {failure : Failure}
    (hpre : before ++ [token] <+: source.tokens.tokens)
    (hbefore : before <+: acceptedAfter source.signature.encoding [] source.tokens.tokens)
    (hbytewise : (encodingOf source.signature.encoding before token).isBytewise = true)
    (hrejection : rejection? source.signature.encoding before token = some failure) :
    let encoding := encodingOf source.signature.encoding before token
    let locate := locationIn file (.ofSource source)
    audit file source index =
        .ok (findingsAfter index locate source.signature.encoding [] before ++
          [failure.diagnostic locate]) ∧
      (IsLiteral encoding token failure.fault →
        ∃ skip front back opening closing,
          token.event.content? = some (skip, front ++ back) ∧
          Offends encoding token.event front back failure.fault ∧
          source.content = opening ++ front ++ (back ++ closing) ∧
          opening.length = token.start + skip ∧ failure.offset = (opening ++ front).length ∧
          failure.offset < token.stop ∧
          ((∀ bytes ∈ source.reads, bytes ≠ []) → source.signature.mark ≠ 2 →
            locate failure.offset =
              ⟨file, LineIndex.saturate (lineColumn (opening ++ front)).1,
                LineIndex.saturate (lineColumn (opening ++ front)).2, none⟩)) := by
  intro encoding locate
  refine ⟨audit_eq_of_rejection? hpre hbefore hrejection file index, fun hliteral => ?_⟩
  rcases failsWith_of_rejection? hrejection with ⟨fault, hobstacle, rfl⟩ | ⟨-, hfails⟩
  · exact absurd hliteral (not_isLiteral_of_obstacle? hobstacle)
  obtain ⟨skip, front, back, hcontent, hoffset, hoffends⟩ := hfails.exists_offends hbytewise hliteral
  have htoken : token ∈ source.tokens.tokens := mem_of_concat hpre
  have hspelled : SpelledIn source.content token := spelled_of_source source htoken
  obtain ⟨hstart, -⟩ := bounds_of_source htoken
  obtain ⟨opening, closing, hsource, hopening⟩ := hspelled.exists_append hstart.le hcontent
  have hinside := hspelled.content_le hstart.le hcontent
  have hback := List.length_pos_of_ne_nil (hoffends.ne_nil hbytewise)
  have hplace : failure.offset = (opening ++ front).length := by
    rw [hoffset, List.length_append, hopening]
  have hsource : source.content = opening ++ front ++ (back ++ closing) := by simp [hsource]
  rw [List.length_append] at hinside
  refine ⟨skip, front, back, opening, closing, hcontent, hoffends, hsource, hopening, hplace,
    by omega, fun hreads hmark => ?_⟩
  have hle : failure.offset ≤ source.content.length := by simp [hsource, hplace]
  have htake : source.content.take failure.offset = opening ++ front := by
    rw [hsource, hplace, List.take_left]
  simp only [locate, locationIn, LineIndex.locate_ofSource hreads hmark hle, htake]

end

attribute [local instance] WideDecoders.asciiOnly

/-- A comment in the second line, behind a character of two bytes, with a character that is not legal
behind another of two bytes. -/
theorem audit_located_control :
    let source : Source := ⟨["<a>\n\u00E9<!--\u00FC\x01\x02--></a>".toUTF8.toList], none⟩
    let content := "\u00FC\x01\x02".toUTF8.toList
    let before : List Token := [⟨0, 3, .startTag "a".toUTF8.toList⟩,
      ⟨3, 6, .text "\n\u00E9".toUTF8.toList⟩]
    let token : Token := ⟨6, 17, .comment content⟩
    before ++ [token] <+: source.tokens.tokens ∧
      rejection? .utf8 before token = some ⟨12, .illegalCharacter '\x01'⟩ ∧
      ∃ front back after closing, Utf8.decode? back = some ('\x01' :: after) ∧
        source.content = front ++ (back ++ closing) ∧ front.length = 12 ∧
        audit "Form.xml" source .empty = .ok
          [.notWellFormed ⟨"Form.xml", LineIndex.saturate (lineColumn front).1,
            LineIndex.saturate (lineColumn front).2, none⟩ "invalid character U+0001"] := by
  intro source content before token
  have hpre : before ++ [token] <+: source.tokens.tokens := by decide +kernel
  have hbefore : before <+: acceptedAfter source.signature.encoding [] source.tokens.tokens := by
    decide +kernel
  have hsignature : source.signature.encoding = .utf8 := by decide +kernel
  have hrejection : rejection? source.signature.encoding before token =
      some ⟨12, .illegalCharacter '\x01'⟩ := by
    decide +kernel
  have hliteral : IsLiteral .utf8 token (.illegalCharacter '\x01') :=
    ⟨4, content, ['\u00FC', '\x01', '\x02'], rfl, by decide +kernel, by decide⟩
  obtain ⟨haudit, hlocated⟩ := audit_located "Form.xml" .empty hpre hbefore
    (by rw [hsignature]; rfl) hrejection
  rw [hsignature] at hrejection hlocated haudit
  obtain ⟨skip, front, back, opening, closing, -, hoffends, hcontent, -, hoffset, -, hlocation⟩ :=
    hlocated hliteral
  refine ⟨hpre, hrejection, ?_⟩
  cases hoffends with
  | @character _ after _ _ hread =>
    refine ⟨opening ++ front, back, after, closing, hread, hcontent, hoffset.symm, ?_⟩
    have hfindings : findingsAfter .empty (locationIn "Form.xml" (.ofSource source)) .utf8 []
        before = [] := by
      decide +kernel
    rw [haudit, hfindings, List.nil_append, Failure.diagnostic,
      hlocation (by decide +kernel) (by decide +kernel)]
    rfl

end Document

end FormsAudit
