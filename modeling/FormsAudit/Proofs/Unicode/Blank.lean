import FormsAudit.Unicode.Blank
import Mathlib.Data.List.Infix
import Mathlib.Data.List.TakeWhile

/-!
# Texts without the blanks around them

A text without the blanks at its ends has no other characters than the text, and it is empty just if
the text is blank all through.  It is trimmed (`IsTrimmed`), and what is trimmed already is found
again in any blanks around it (`trim_append_append`).
-/

namespace FormsAudit.Unicode

variable {text : List Char} {c : Char}

theorem trimEnd_eq_nil_iff : trimEnd text = [] ↔ ∀ c ∈ text, isBlank c = true := by
  rw [trimEnd, List.reverse_eq_nil_iff, List.dropWhile_eq_nil_iff]
  simp

theorem trim_eq_nil_iff : trim text = [] ↔ ∀ c ∈ text, isBlank c = true := by
  rw [trim, trimEnd_eq_nil_iff, trimStart]
  constructor
  · intro h c hc
    rw [← List.takeWhile_append_dropWhile (p := isBlank) (l := text)] at hc
    rcases List.mem_append.mp hc with hc | hc
    · exact List.mem_takeWhile_imp hc
    · exact h c hc
  · exact fun h c hc => h c ((List.dropWhile_suffix _).mem hc)

theorem mem_of_mem_trimEnd (h : c ∈ trimEnd text) : c ∈ text := by
  rw [trimEnd, List.mem_reverse] at h
  exact List.mem_reverse.mp ((List.dropWhile_suffix _).mem h)

theorem mem_of_mem_trim (h : c ∈ trim text) : c ∈ text :=
  (List.dropWhile_suffix _).mem (mem_of_mem_trimEnd h)

/-! ## Trimmed texts -/

/-- No blank stands at either end of the text. -/
def IsTrimmed (text : List Char) : Prop :=
  (∀ c ∈ text.head?, isBlank c = false) ∧ ∀ c ∈ text.getLast?, isBlank c = false

theorem dropWhile_isBlank_eq_self (h : ∀ c ∈ text.head?, isBlank c = false) :
    text.dropWhile isBlank = text := by
  cases text with
  | nil => rfl
  | cons c text => exact List.dropWhile_cons_of_neg (by simp [h c rfl])

theorem trimStart_append {before : List Char} (hbefore : ∀ c ∈ before, isBlank c = true) :
    trimStart (before ++ text) = trimStart text :=
  List.dropWhile_append_of_pos hbefore

theorem trimEnd_append {after : List Char} (hafter : ∀ c ∈ after, isBlank c = true) :
    trimEnd (text ++ after) = trimEnd text := by
  rw [trimEnd, List.reverse_append, List.dropWhile_append_of_pos (by simpa using hafter), trimEnd]

theorem head?_trimStart (text : List Char) :
    ∀ c ∈ (trimStart text).head?, isBlank c = false := by
  intro c hc
  have hnot := List.head?_dropWhile_not isBlank text
  rw [trimStart, Option.mem_def] at hc
  rw [hc] at hnot
  simpa using hnot

theorem getLast?_trimEnd (text : List Char) :
    ∀ c ∈ (trimEnd text).getLast?, isBlank c = false := by
  rw [trimEnd, List.getLast?_reverse]
  exact head?_trimStart text.reverse

theorem trimEnd_isPrefix (text : List Char) : trimEnd text <+: text := by
  have hsuffix : text.reverse.dropWhile isBlank <:+ text.reverse := List.dropWhile_suffix _
  rwa [trimEnd, ← List.reverse_suffix, List.reverse_reverse]

theorem isTrimmed_trim (text : List Char) : IsTrimmed (trim text) := by
  refine ⟨?_, getLast?_trimEnd _⟩
  intro c hc
  -- a text without its last characters begins as it did
  obtain ⟨after, hafter⟩ := trimEnd_isPrefix (trimStart text)
  apply head?_trimStart text
  rw [← hafter]
  exact List.mem_head?_append_of_mem_head? hc

theorem trim_append_append {before after : List Char} (hbefore : ∀ c ∈ before, isBlank c = true)
    (hafter : ∀ c ∈ after, isBlank c = true) (h : IsTrimmed text) :
    trim (before ++ text ++ after) = text := by
  cases text with
  | nil =>
    rw [trim_eq_nil_iff, List.append_nil]
    exact List.forall_mem_append.mpr ⟨hbefore, hafter⟩
  | cons c rest =>
    have hstart : trimStart (c :: rest ++ after) = c :: rest ++ after :=
      dropWhile_isBlank_eq_self h.1
    have hend : (c :: rest).reverse.dropWhile isBlank = (c :: rest).reverse := by
      apply dropWhile_isBlank_eq_self
      rw [List.head?_reverse]
      exact h.2
    calc trim (before ++ (c :: rest) ++ after)
      _ = trimEnd (c :: rest ++ after) := by
        rw [trim, List.append_assoc, trimStart_append hbefore, hstart]
      _ = trimEnd (c :: rest) := trimEnd_append hafter
      _ = c :: rest := by rw [trimEnd, hend, List.reverse_reverse]

theorem exists_eq_append_trim (text : List Char) :
    ∃ before after, (∀ c ∈ before, isBlank c = true) ∧ (∀ c ∈ after, isBlank c = true) ∧
      text = before ++ trim text ++ after := by
  refine ⟨text.takeWhile isBlank, ((trimStart text).reverse.takeWhile isBlank).reverse, ?_, ?_, ?_⟩
  · exact fun c => List.mem_takeWhile_imp
  · exact fun c hc => List.mem_takeWhile_imp (List.mem_reverse.mp hc)
  · calc text
      _ = text.takeWhile isBlank ++ trimStart text := List.takeWhile_append_dropWhile.symm
      _ = text.takeWhile isBlank ++ (trim text ++
          ((trimStart text).reverse.takeWhile isBlank).reverse) := by
        rw [trim, trimEnd, ← List.reverse_append, List.takeWhile_append_dropWhile,
          List.reverse_reverse]
      _ = _ := (List.append_assoc ..).symm

end FormsAudit.Unicode
