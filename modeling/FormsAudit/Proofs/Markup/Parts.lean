import FormsAudit.Markup.Attribute
import Mathlib.Data.List.Basic
import Mathlib.Data.List.Infix

/-!
# The parts of a tag

The keys of attributes and their values stand between ASCII bytes of the tag: blanks, quotes and
`=` (`standsBetween_of_mem_attributes`).  The name stands before a blank or is all there is
(`tagName_eq_or`).  So the parts are parts also of the text of the tag, wherever an ASCII byte is a
character.
-/

namespace FormsAudit.Markup

/-- The part stands between two ASCII bytes. -/
def StandsBetween (part bytes : List UInt8) : Prop :=
  ∃ opening closing, opening < 0x80 ∧ closing < 0x80 ∧ opening :: (part ++ [closing]) <:+: bytes

/-- The bytes end with an ASCII byte and the part. -/
def EndsWith (part bytes : List UInt8) : Prop :=
  ∃ opening, opening < 0x80 ∧ opening :: part <:+ bytes

theorem StandsBetween.append {part bytes : List UInt8} (h : StandsBetween part bytes)
    (rest : List UInt8) : StandsBetween part (bytes ++ rest) := by
  obtain ⟨opening, closing, hopening, hclosing, hpart⟩ := h
  exact ⟨opening, closing, hopening, hclosing, hpart.trans (List.prefix_append ..).isInfix⟩

theorem endsWith_nil {byte : UInt8} (hbyte : byte < 0x80) (bytes : List UInt8) :
    EndsWith [] (bytes ++ [byte]) :=
  ⟨byte, hbyte, List.suffix_append ..⟩

section EndsWith

variable {part bytes : List UInt8} (h : EndsWith part bytes)

include h

theorem EndsWith.concat (byte : UInt8) : EndsWith (part ++ [byte]) (bytes ++ [byte]) := by
  obtain ⟨opening, hopening, front, rfl⟩ := h
  exact ⟨opening, hopening, front, by simp⟩

theorem EndsWith.standsBetween {byte : UInt8} (hbyte : byte < 0x80) :
    StandsBetween part (bytes ++ [byte]) := by
  obtain ⟨opening, hopening, front, rfl⟩ := h
  exact ⟨opening, byte, hopening, hbyte, front, [], by simp⟩

end EndsWith

theorem lt_of_isSpace {byte : UInt8} (h : isSpace byte = true) : byte < 0x80 := by
  simp only [isSpace, Bool.or_eq_true, decide_eq_true_eq] at h
  rcases h with ((rfl | rfl) | rfl) | rfl <;> decide

/-- What the reader of attributes holds, when it has read the bytes and is in the mode. -/
def AttributeMode.Holds (bytes : List UInt8) : AttributeMode → Prop
  | .between => EndsWith [] bytes
  | .key _ collected => EndsWith collected.reverse bytes
  | .afterKey _ name | .beforeValue name => StandsBetween name bytes
  | .value name quote _ collected =>
    StandsBetween name bytes ∧ quote < 0x80 ∧ EndsWith collected.reverse bytes

/-- A byte more keeps that, and what it completes stands between ASCII bytes. -/
theorem step_holds {mode : AttributeMode} {bytes : List UInt8} (h : mode.Holds bytes)
    (offset : Nat) (byte : UInt8) :
    match mode.step offset byte with
    | .go next => next.Holds (bytes ++ [byte])
    | .keyed _ key => StandsBetween key (bytes ++ [byte])
    | .found item => StandsBetween item.key (bytes ++ [byte]) ∧
        StandsBetween item.value (bytes ++ [byte]) ∧ EndsWith [] (bytes ++ [byte])
    | .fault _ => True := by
  cases mode with
  | between =>
    simp only [AttributeMode.step]
    split_ifs with hspace
    · exact endsWith_nil (lt_of_isSpace hspace) bytes
    · exact h.concat byte
  | key start collected =>
    have hcollected : EndsWith collected.reverse bytes := h
    simp only [AttributeMode.step]
    split_ifs with hequal hspace
    · exact hcollected.standsBetween (hequal ▸ by decide)
    · exact hcollected.standsBetween (lt_of_isSpace hspace)
    · simpa [AttributeMode.Holds] using hcollected.concat byte
  | afterKey start key =>
    have hkey : StandsBetween key bytes := h
    simp only [AttributeMode.step]
    split_ifs
    · exact hkey.append [byte]
    · exact hkey.append [byte]
    · trivial
  | beforeValue key =>
    have hkey : StandsBetween key bytes := h
    simp only [AttributeMode.step]
    split_ifs with hquote
    · have hbyte : byte < 0x80 := by
        rcases hquote with rfl | rfl <;> decide
      exact ⟨hkey.append [byte], hbyte, endsWith_nil hbyte bytes⟩
    · exact hkey.append [byte]
    · trivial
  | value key quote start collected =>
    obtain ⟨hkey, hquote, hcollected⟩ := h
    simp only [AttributeMode.step]
    split_ifs with hclosing
    · have hbyte : byte < 0x80 := hclosing ▸ hquote
      exact ⟨hkey.append [byte], hcollected.standsBetween hbyte, endsWith_nil hbyte bytes⟩
    · refine ⟨hkey.append [byte], hquote, ?_⟩
      simpa using hcollected.concat byte

theorem standsBetween_of_mem_attributesFrom {unique : Bool} {seen : List (List UInt8 × Nat)}
    {mode : AttributeMode} {offset : Nat} {bytes rest : List UInt8} {item : Attribute}
    (hmode : mode.Holds bytes) (h : item ∈ (attributesFrom unique seen mode offset rest).1) :
    StandsBetween item.key (bytes ++ rest) ∧ StandsBetween item.value (bytes ++ rest) := by
  induction rest generalizing offset seen mode bytes with
  | nil => cases h
  | cons byte rest ih =>
    have hstep := step_holds hmode offset byte
    rw [← List.singleton_append, ← List.append_assoc]
    unfold attributesFrom at h
    cases hresult : mode.step offset byte with
    | go next =>
      simp only [hresult] at h hstep
      exact ih hstep h
    | keyed start key =>
      simp only [hresult] at h hstep
      split at h
      · cases h
      · have hnext : (AttributeMode.beforeValue key).Holds (bytes ++ [byte]) := hstep
        exact ih hnext h
    | found found =>
      simp only [hresult] at h hstep
      obtain ⟨hkey, hvalue, hends⟩ := hstep
      rcases List.mem_cons.mp h with rfl | h
      · exact ⟨hkey.append rest, hvalue.append rest⟩
      · have hnext : AttributeMode.between.Holds (bytes ++ [byte]) := hends
        exact ih hnext h
    | fault fault =>
      simp only [hresult] at h
      cases h

/-- A tag is its name, or the name and what follows a blank. -/
theorem tagName_eq_or (content : List UInt8) :
    tagName content = content ∨
      ∃ space rest, isSpace space = true ∧ content = tagName content ++ space :: rest := by
  have hdivided : tagName content ++ content.dropWhile (!isSpace ·) = content :=
    List.takeWhile_append_dropWhile
  cases hrest : content.dropWhile (!isSpace ·) with
  | nil =>
    left
    rwa [hrest, List.append_nil] at hdivided
  | cons space rest =>
    right
    refine ⟨space, rest, ?_, by rw [← hrest, hdivided]⟩
    have hhead := List.head?_dropWhile_not (!isSpace ·) content
    rw [hrest] at hhead
    simpa using hhead

/-- **The keys and the values of attributes stand between ASCII bytes of the tag.** -/
theorem standsBetween_of_mem_attributes {content : List UInt8} {item : Attribute}
    (h : item ∈ (attributes content).1) :
    StandsBetween item.key content ∧ StandsBetween item.value content := by
  rw [attributes] at h
  generalize hname : tagName content = name at h
  rcases tagName_eq_or content with hall | ⟨space, rest, hspace, hcontent⟩
  · rw [← hname, hall, List.drop_length] at h
    cases h
  · -- the blank after the name is the first byte that is read
    rw [hname] at hcontent
    rw [hcontent, List.drop_left, attributesFrom] at h
    simp only [AttributeMode.step, hspace, if_true] at h
    have hmode : AttributeMode.between.Holds (name ++ [space]) :=
      endsWith_nil (lt_of_isSpace hspace) name
    rw [hcontent, ← List.singleton_append, ← List.append_assoc]
    exact standsBetween_of_mem_attributesFrom hmode h

end FormsAudit.Markup
