import FormsAudit.Json.Lexeme
import FormsAudit.Json.Render
import Mathlib.Data.List.Basic
import Mathlib.Data.List.TakeWhile

/-!
# Lexemes that have been written

The text and the numbers that a value is written with are read as what they were written for, if
what follows them is what follows a value.  Where the cursor then stands depends on the widths of
the characters and is of no interest: only what is left to read is.
-/

namespace FormsAudit.Json

/-! ## Texts -/

/-- A letter after a backslash is read as the character that it stands for. -/
theorem exists_readTextFrom_escape {letter c : Char} (h : escapeOf? letter = some c)
    (line column : Nat) (rest : List Char) :
    ∃ line' column', readTextFrom true .plain line column ('\\' :: letter :: rest) =
      (readTextFrom true .plain line' column' rest).map
        fun (text, cursor) => (c :: text, cursor) := by
  have hletter : letter ≠ 'u' := by
    rintro rfl
    cases h
  set behind : Cursor := Cursor.after ⟨line, column + 1, []⟩ letter rest with hbehind
  refine ⟨behind.line, behind.column, ?_⟩
  have hback : '\\'.utf8Size = 1 := rfl
  simp only [readTextFrom, hletter, h, hbehind, if_false]
  simp only [Cursor.after, hback, Char.reduceEq, if_false, if_true]
  generalize readTextFrom true .plain _ _ rest = result
  cases result <;> rfl

/-- A hexadecimal digit is one byte and is read as its value. -/
theorem hexDigit?_digitChar {n : Nat} (h : n < 16) :
    hexDigit? (Nat.digitChar n) = some n ∧ (Nat.digitChar n).utf8Size = 1 ∧
      Nat.digitChar n ≠ '\n' := by
  revert n
  decide

/-- The number of a control character is read as the character. -/
theorem exists_readTextFrom_twoHexDigits {c : Char} (hc : c.toNat < 0x20) (line column : Nat)
    (rest : List Char) :
    ∃ line' column', readTextFrom true .plain line column
        (['\\', 'u', '0', '0'] ++ twoHexDigits c.toNat ++ rest) =
      (readTextFrom true .plain line' column' rest).map
        fun (text, cursor) => (c :: text, cursor) := by
  obtain ⟨hhigh, hhighSize, hhighBreak⟩ := hexDigit?_digitChar (n := c.toNat / 16) (by omega)
  obtain ⟨hlow, hlowSize, hlowBreak⟩ := hexDigit?_digitChar (n := c.toNat % 16) (by omega)
  have hvalue : c.toNat / 16 * 16 + c.toNat % 16 = c.toNat := by omega
  have hend : endHex none c.toNat = .ok (.plain, [c]) := by
    have htrailing : ¬ (0xDC00 ≤ c.toNat ∧ c.toNat ≤ 0xDFFF) := by omega
    have hleading : ¬ (0xD800 ≤ c.toNat ∧ c.toNat ≤ 0xDBFF) := by omega
    simp [endHex, htrailing, hleading]
  have hzero : hexDigit? '0' = some 0 := rfl
  have hsizes : '\\'.utf8Size = 1 ∧ 'u'.utf8Size = 1 ∧ '0'.utf8Size = 1 := ⟨rfl, rfl, rfl⟩
  refine ⟨line, column + 1 + 1 + 1 + 1 + 1 + 1, ?_⟩
  -- six characters, the last of which completes the number
  simp only [twoHexDigits, List.cons_append, List.nil_append, readTextFrom, Cursor.after]
  simp [hhigh, hlow, hhighSize, hlowSize, hhighBreak, hlowBreak, hvalue, hend, hzero, hsizes]
  cases readTextFrom true .plain line (column + 1 + 1 + 1 + 1 + 1 + 1) rest <;> rfl

/-- A character is read as it has been written. -/
theorem exists_readTextFrom_escapeChar (c : Char) (line column : Nat) (rest : List Char) :
    ∃ line' column', readTextFrom true .plain line column (escapeChar c ++ rest) =
      (readTextFrom true .plain line' column' rest).map
        fun (text, cursor) => (c :: text, cursor) := by
  unfold escapeChar
  split_ifs with hquote hback hbell hfeed hbreak hreturn htab hcontrol
  · subst hquote
    exact exists_readTextFrom_escape rfl line column rest
  · subst hback
    exact exists_readTextFrom_escape rfl line column rest
  · subst hbell
    exact exists_readTextFrom_escape rfl line column rest
  · subst hfeed
    exact exists_readTextFrom_escape rfl line column rest
  · subst hbreak
    exact exists_readTextFrom_escape rfl line column rest
  · subst hreturn
    exact exists_readTextFrom_escape rfl line column rest
  · subst htab
    exact exists_readTextFrom_escape rfl line column rest
  · exact exists_readTextFrom_twoHexDigits hcontrol line column rest
  · refine ⟨line, column + c.utf8Size, ?_⟩
    simp [readTextFrom, Cursor.after, hquote, hback, hbreak, hcontrol]

/-- **A text is read as it has been written.** -/
theorem exists_readText (text : String) (line column : Nat) (rest : List Char) :
    ∃ line' column',
      readText ⟨line, column, text.toList.flatMap escapeChar ++ '"' :: rest⟩ =
        .ok (text, ⟨line', column', rest⟩) := by
  have hread : ∀ (chars : List Char) (line column : Nat), ∃ line' column',
      readTextFrom true .plain line column (chars.flatMap escapeChar ++ '"' :: rest) =
        .ok (chars, ⟨line', column', rest⟩) := by
    intro chars
    induction chars with
    | nil =>
      intro line column
      refine ⟨line, column + '"'.utf8Size, ?_⟩
      simp [readTextFrom, Cursor.after]
    | cons c chars ih =>
      intro line column
      obtain ⟨line', column', hc⟩ := exists_readTextFrom_escapeChar c line column
        (chars.flatMap escapeChar ++ '"' :: rest)
      obtain ⟨line'', column'', hchars⟩ := ih line' column'
      refine ⟨line'', column'', ?_⟩
      rw [List.flatMap_cons, List.append_assoc, hc, hchars]
      rfl
  obtain ⟨line', column', h⟩ := hread text.toList line column
  refine ⟨line', column', ?_⟩
  rw [readText, h]
  simp [Except.map]

/-! ## Numbers -/

/-- What may follow a written value: nothing, or the comma or the new line after an item. -/
def Follows (rest : List Char) : Prop :=
  ∀ c ∈ rest.head?, c = ',' ∨ c = '\n'

theorem isDigit_of_mem_toDigits {n : Nat} {c : Char} (h : c ∈ Nat.toDigits 10 n) :
    isDigit c = true := by
  have hdigit : c.isDigit = true := Nat.isDigit_of_mem_toDigits (by decide) (by decide) h
  simpa [isDigit, Char.isDigit, Char.le_def] using hdigit

/-- Only zero is written with a zero in front. -/
theorem head?_toDigits {n : Nat} (h : 0 < n) : (Nat.toDigits 10 n).head? ≠ some '0' := by
  induction n using Nat.strongRecOn with
  | ind n ih =>
    rw [Nat.toDigits_eq_if (by decide)]
    split
    · simp only [List.head?_cons, ne_eq, Option.some.injEq, Nat.digitChar_eq_zero]
      omega
    · rw [List.head?_append_of_ne_nil _ Nat.toDigits_ne_nil]
      exact ih (n / 10) (by omega) (by omega)

theorem appendDigits_eq {digits : List Char} {value : Nat}
    (h : Nat.ofDigitChars 10 digits value < wordBound) :
    appendDigits value digits = (Nat.ofDigitChars 10 digits value, 0) := by
  induction digits generalizing value with
  | nil => rfl
  | cons c digits ih =>
    rw [Nat.ofDigitChars_cons, Nat.mul_comm] at h ⊢
    -- the digits that follow only make the number larger
    have hle : value * 10 + (c.toNat - '0'.toNat) ≤
        Nat.ofDigitChars 10 digits (value * 10 + (c.toNat - '0'.toNat)) := by
      rw [Nat.ofDigitChars_eq_ofDigitChars_zero]
      have hpos : 0 < 10 ^ digits.length := Nat.pow_pos (by decide)
      exact (Nat.le_mul_of_pos_left _ hpos).trans (Nat.le_add_right _ _)
    rw [appendDigits, if_pos (hle.trans_lt h), ih h]

theorem takeDigits_toDigits (n line column : Nat) {rest : List Char} (hrest : Follows rest) :
    ∃ column', takeDigits ⟨line, column, Nat.toDigits 10 n ++ rest⟩ =
      (Nat.toDigits 10 n, ⟨line, column', rest⟩) := by
  have hdigits : ∀ c ∈ Nat.toDigits 10 n, isDigit c = true := fun c => isDigit_of_mem_toDigits
  have hnone : rest.takeWhile isDigit = [] ∧ rest.dropWhile isDigit = rest := by
    cases rest with
    | nil => exact ⟨rfl, rfl⟩
    | cons c rest =>
      have hc : isDigit c = false := by
        rcases hrest c rfl with rfl | rfl <;> rfl
      simp [hc]
  refine ⟨column + Utf8.size (Nat.toDigits 10 n), ?_⟩
  simp only [takeDigits, List.takeWhile_append_of_pos hdigits,
    List.dropWhile_append_of_pos hdigits, hnone, List.append_nil, Cursor.past]

/-- **A natural number of one word is read as it has been written.** -/
theorem exists_readNumber {n : Nat} (hn : n < wordBound) (line column : Nat) {rest : List Char}
    (hrest : Follows rest) :
    ∃ line' column', readNumber true ⟨line, column, Nat.toDigits 10 n ++ rest⟩ =
      .ok (.natural n, ⟨line', column', rest⟩) := by
  obtain ⟨column', htake⟩ := takeDigits_toDigits n line column hrest
  refine ⟨line, column', ?_⟩
  obtain ⟨first, others, hdigits⟩ :=
    List.exists_cons_of_ne_nil (Nat.toDigits_ne_nil (n := n) (b := 10))
  have hfirst : isDigit first = true := isDigit_of_mem_toDigits (hdigits ▸ List.mem_cons_self)
  have hleading : (first = '0' && 1 < (Nat.toDigits 10 n).length) = false := by
    rw [Bool.and_eq_false_iff]
    rcases Nat.lt_or_ge n 10 with hlt | hge
    · right
      have hle : (Nat.toDigits 10 n).length ≤ 1 :=
        (Nat.length_toDigits_le_iff (by decide) (by decide)).mpr (by simpa using hlt)
      simpa using hle
    · left
      have hhead := head?_toDigits (n := n) (by omega)
      rw [hdigits] at hhead
      simpa using hhead
  have hvalue : appendDigits 0 (Nat.toDigits 10 n) = (n, 0) := by
    have h := @appendDigits_eq (Nat.toDigits 10 n) 0
    rw [Nat.ofDigitChars_ten_toDigits] at h
    exact h hn
  have hstart : (⟨line, column, Nat.toDigits 10 n ++ rest⟩ : Cursor).rest =
      first :: (others ++ rest) := by
    simp [hdigits]
  unfold readNumber
  rw [hstart]
  simp only [hfirst, htake, hleading, hvalue]
  cases rest with
  | nil => rfl
  | cons c rest =>
    rcases hrest c rfl with rfl | rfl <;> rfl

end FormsAudit.Json
