import FormsAudit.Text.Numeral
import Mathlib.Data.List.Basic

/-!
# Line breaks in texts

A text stays on one line when no character of it is a break (`Unbroken`).  Numbers, however they are
written, do so (`unbroken_toString`, `unbroken_upperHex`).  Lines that do are found again between the
line feeds of a text that has one at the end of each (`splitOn_endedLines`).
-/

namespace FormsAudit

/-- Whether the character ends a line. -/
def IsBreak (c : Char) : Prop := c = '\n' ∨ c = '\r'

instance : DecidablePred IsBreak := fun c => inferInstanceAs (Decidable (c = '\n' ∨ c = '\r'))

/-- No character of the text ends a line. -/
def Unbroken (text : List Char) : Prop := ∀ c ∈ text, ¬ IsBreak c

instance (text : List Char) : Decidable (Unbroken text) :=
  List.decidableBAll (fun c => ¬ IsBreak c) text

theorem IsBreak.notMem {c : Char} (hc : IsBreak c) {text : List Char} (h : Unbroken text) :
    c ∉ text :=
  fun hmem => h c hmem hc

theorem IsBreak.mem_iff_false {c : Char} (hc : IsBreak c) {text : List Char} (h : Unbroken text) :
    c ∈ text ↔ False :=
  iff_false_intro (hc.notMem h)

/-- The words of a message are compared character by character, without a way through their bytes. -/
theorem unbroken_ofList {text : List Char} (h : Unbroken text) :
    Unbroken (String.ofList text).toList := by
  rwa [String.toList_ofList]

theorem toString_self (text : String) : toString text = text := rfl

theorem toList_toString_char (c : Char) : (toString c).toList = [c] :=
  String.toList_singleton c

/-! ## Numbers -/

theorem exists_of_mem_toDigits {radix n : Nat} (hradix : 1 < radix) {c : Char}
    (h : c ∈ Nat.toDigits radix n) : ∃ digit < radix, c = digit.digitChar := by
  induction n using Nat.strongRecOn with
  | ind n ih =>
    rw [Nat.toDigits_eq_if hradix] at h
    split at h
    · rename_i hlt
      exact ⟨n, hlt, List.mem_singleton.mp h⟩
    · rename_i hge
      rcases List.mem_append.mp h with h | h
      · exact ih (n / radix) (Nat.div_lt_self (by omega) hradix) h
      · exact ⟨n % radix, Nat.mod_lt n (by omega), List.mem_singleton.mp h⟩

theorem unbroken_toString (n : Nat) : Unbroken (toString n).toList := by
  have hdigit : ∀ digit < 10, ¬ IsBreak digit.digitChar := by decide
  rw [Nat.toString_eq_ofList_toDigits, String.toList_ofList]
  intro c hc
  obtain ⟨digit, hlt, rfl⟩ := exists_of_mem_toDigits (by decide) hc
  exact hdigit digit hlt

theorem unbroken_upperHex (n : Nat) : Unbroken (Numeral.upperHex n).toList := by
  let capital (c : Char) := if 'a' ≤ c ∧ c ≤ 'f' then c.toUpper else c
  have hdigit : ∀ digit < 16, ¬ IsBreak (capital digit.digitChar) := by decide
  rw [Numeral.upperHex, String.toList_ofList]
  intro c hc
  obtain ⟨digitChar, hmem, rfl⟩ := List.mem_map.mp hc
  obtain ⟨digit, hlt, rfl⟩ := exists_of_mem_toDigits (by decide) hmem
  exact hdigit digit hlt

theorem unbroken_padLeft (width : Nat) {text : String} (h : Unbroken text.toList) :
    Unbroken (Numeral.padLeft width text).toList := by
  have hzero : ¬ IsBreak '0' := by decide
  rw [Numeral.padLeft, String.toList_append, String.toList_ofList]
  simp only [Unbroken, List.forall_mem_append, List.mem_replicate]
  exact ⟨fun c hc => hc.2 ▸ hzero, h⟩

/-! ## Lines -/

/-- Lines without line feeds, each with one at its end, are told from each other and from the
rest. -/
theorem splitOn_endedLines {lines : List (List Char)} (h : ∀ line ∈ lines, '\n' ∉ line)
    (rest : List Char) :
    (lines.flatMap (· ++ ['\n']) ++ rest).splitOn '\n' = lines ++ rest.splitOn '\n' := by
  induction lines with
  | nil => rfl
  | cons line lines ih =>
    obtain ⟨hline, hlines⟩ := List.forall_mem_cons.mp h
    calc (line ++ ['\n'] ++ lines.flatMap (· ++ ['\n']) ++ rest).splitOn '\n'
      _ = (line ++ '\n' :: (lines.flatMap (· ++ ['\n']) ++ rest)).splitOn '\n' := by simp
      _ = line :: (lines.flatMap (· ++ ['\n']) ++ rest).splitOn '\n' :=
        List.splitOn_append_cons_self_of_not_mem hline _
      _ = line :: (lines ++ rest.splitOn '\n') := by rw [ih hlines]

end FormsAudit
