import FormsAudit.Text.Utf8
import Mathlib.Data.List.Basic

/-!
# Plain text in UTF-8

A text of ASCII characters is what the lossy reading makes of its own bytes and of no others
(`decodeLossy_eq_iff`): a longer sequence never stands for an ASCII character, and what
is broken becomes the replacement character, which is none.
-/

namespace FormsAudit.Utf8

/-- Whether a character is ASCII, and not the one that stands for a number that is no character. -/
def isPlain (c : Char) : Bool :=
  0 < c.toNat && c.toNat < 0x80

/-- The byte of an ASCII character. -/
def plainByte (c : Char) : UInt8 := c.toNat.toUInt8

/-- However an unfinished character goes on, its number is too large for ASCII. -/
def Pending.IsLong (pending : Pending) : Prop :=
  if pending.owed ≤ 1 then 0x80 ≤ pending.code * 0x40 + (pending.low.toNat - 0x80)
  else 2 ≤ pending.code * 0x40 + (pending.low.toNat - 0x80)

theorem toNat_ofNat {n : Nat} (h : n.isValidChar) : (Char.ofNat n).toNat = n := by
  rw [Char.ofNat, dif_pos h]
  rfl

theorem isPlain_ofNat {n : Nat} (h : 0x80 ≤ n) : isPlain (Char.ofNat n) = false := by
  by_cases hvalid : n.isValidChar
  · simp only [isPlain, toNat_ofNat hvalid, Bool.and_eq_false_imp, decide_eq_false_iff_not]
    omega
  · rw [Char.ofNat, dif_neg hvalid]
    rfl

theorem isLong_of_lead {byte : UInt8} {pending : Pending} (h : lead byte = .begun pending) :
    pending.IsLong := by
  unfold lead at h
  simp only [UInt8.lt_iff_toNat_lt, ← UInt8.toNat_inj, UInt8.reduceToNat] at h
  split_ifs at h <;> cases h
  all_goals simp [Pending.IsLong]
  all_goals omega

/-- The bytes of an unfinished character never begin with an ASCII one. -/
theorem head_scanFrom_of_isLong {pending : Pending} (hlong : pending.IsLong) (bytes : List UInt8) :
    ∃ first rest, scanFrom (some pending) bytes = first :: rest ∧
      isPlain (first.getD '\uFFFD') = false := by
  induction bytes generalizing pending with
  | nil => exact ⟨none, [], rfl, rfl⟩
  | cons byte bytes ih =>
    unfold scanFrom
    split
    · rename_i hbyte
      have hlow : pending.low.toNat ≤ byte.toNat := UInt8.le_iff_toNat_le.mp hbyte.1
      dsimp only
      split
      · rename_i howed
        refine ⟨some (Char.ofNat _), _, rfl, ?_⟩
        rw [Option.getD_some]
        apply isPlain_ofNat
        simp only [Pending.IsLong, howed, if_true] at hlong
        omega
      · rename_i howed
        refine ih ?_
        simp only [Pending.IsLong, howed, if_false] at hlong
        simp only [Pending.IsLong, UInt8.reduceToNat]
        split <;> omega
    · exact ⟨none, _, rfl, rfl⟩

theorem whole_of_lead {byte : UInt8} {c : Char} (h : lead byte = .whole c) :
    c = Char.ofNat byte.toNat ∧ byte < 0x80 := by
  unfold lead at h
  split_ifs at h with hbyte
  cases h
  exact ⟨rfl, hbyte⟩

theorem toNat_plainByte {c : Char} (h : isPlain c = true) : (plainByte c).toNat = c.toNat := by
  simp only [isPlain, Bool.and_eq_true, decide_eq_true_eq] at h
  simp [plainByte]
  omega

theorem plainByte_lt {c : Char} (h : isPlain c = true) : plainByte c < 0x80 := by
  rw [UInt8.lt_iff_toNat_lt, toNat_plainByte h]
  simp only [isPlain, Bool.and_eq_true, decide_eq_true_eq] at h
  exact h.2

theorem ofNat_plainByte {c : Char} (h : isPlain c = true) :
    Char.ofNat (plainByte c).toNat = c := by
  rw [toNat_plainByte h, Char.ofNat_toNat]

theorem lead_plainByte {c : Char} (h : isPlain c = true) : lead (plainByte c) = .whole c := by
  rw [lead, if_pos (plainByte_lt h), ofNat_plainByte h]

theorem plainByte_ofNat {byte : UInt8} (h : byte < 0x80) :
    plainByte (Char.ofNat byte.toNat) = byte := by
  have hbyte : byte.toNat < 0x80 := h
  have hvalid : byte.toNat.isValidChar := .inl (by omega)
  rw [plainByte, toNat_ofNat hvalid]
  simp

theorem decodeLossy_cons_of_whole {byte : UInt8} {c : Char} (h : lead byte = .whole c)
    (bytes : List UInt8) : decodeLossy (byte :: bytes) = c :: decodeLossy bytes := by
  simp [decodeLossy, scan, scanFrom, h]

/-- A byte that stands for no ASCII character begins with none. -/
theorem exists_decodeLossy_cons {byte : UInt8} (h : ∀ c, lead byte ≠ .whole c)
    (bytes : List UInt8) :
    ∃ first rest, decodeLossy (byte :: bytes) = first :: rest ∧ isPlain first = false := by
  cases hlead : lead byte with
  | whole c => exact absurd hlead (h c)
  | broken =>
    refine ⟨'\uFFFD', decodeLossy bytes, ?_, rfl⟩
    simp [decodeLossy, scan, scanFrom, hlead]
  | begun pending =>
    obtain ⟨first, rest, hscan, hfirst⟩ := head_scanFrom_of_isLong (isLong_of_lead hlead) bytes
    refine ⟨first.getD '\uFFFD', rest.map (·.getD '\uFFFD'), ?_, hfirst⟩
    simp [decodeLossy, scan, scanFrom, hlead, hscan]

theorem decodeLossy_cons_ne_nil (byte : UInt8) (bytes : List UInt8) :
    decodeLossy (byte :: bytes) ≠ [] := by
  by_cases hwhole : ∃ c, lead byte = .whole c
  · obtain ⟨c, hlead⟩ := hwhole
    rw [decodeLossy_cons_of_whole hlead]
    exact List.cons_ne_nil _ _
  · obtain ⟨first, rest, hdecode, -⟩ := exists_decodeLossy_cons (not_exists.mp hwhole) bytes
    rw [hdecode]
    exact List.cons_ne_nil _ _

/-- **An ASCII text is what its own bytes are read as, and no others.** -/
theorem decodeLossy_eq_iff {text : List Char} (htext : ∀ c ∈ text, isPlain c = true)
    (bytes : List UInt8) :
    decodeLossy bytes = text ↔ bytes = text.map plainByte := by
  induction text generalizing bytes with
  | nil =>
    cases bytes with
    | nil => exact iff_of_true rfl rfl
    | cons byte bytes =>
      exact iff_of_false (decodeLossy_cons_ne_nil byte bytes) (List.cons_ne_nil _ _)
  | cons c text ih =>
    have hc : isPlain c = true := htext c List.mem_cons_self
    have ih := ih fun other hother => htext other (List.mem_cons_of_mem _ hother)
    cases bytes with
    | nil => exact iff_of_false (List.cons_ne_nil _ _).symm (List.cons_ne_nil _ _).symm
    | cons byte bytes =>
      rw [List.map_cons, List.cons.injEq]
      by_cases hwhole : ∃ found, lead byte = .whole found
      · -- an ASCII byte stands for one character, and that character for this byte
        obtain ⟨found, hlead⟩ := hwhole
        obtain ⟨rfl, hbyte⟩ := whole_of_lead hlead
        rw [decodeLossy_cons_of_whole hlead, List.cons.injEq, ih]
        refine and_congr_left fun _ => ⟨?_, ?_⟩
        · intro heq
          rw [← heq, plainByte_ofNat hbyte]
        · intro heq
          have hplain := lead_plainByte hc
          rw [← heq, hlead] at hplain
          exact Lead.whole.inj hplain
      · -- any other byte begins a character that is not ASCII
        have hnot := not_exists.mp hwhole
        obtain ⟨first, rest, hdecode, hfirst⟩ := exists_decodeLossy_cons hnot bytes
        rw [hdecode, List.cons.injEq]
        apply iff_of_false
        · rintro ⟨rfl, -⟩
          rw [hc] at hfirst
          cases hfirst
        · rintro ⟨rfl, -⟩
          exact hnot c (lead_plainByte hc)

/-! ## Texts put together -/

theorem toList_loop_eq (bytes : ByteArray) (start : Nat) (before : List UInt8) :
    ByteArray.toList.loop bytes start before = before.reverse ++ bytes.data.toList.drop start := by
  fun_induction ByteArray.toList.loop bytes start before with
  | case1 start before hlt ih =>
    have hbound : start < bytes.data.toList.length := hlt
    have hget : bytes.get! start = bytes.data.toList[start] := getElem!_pos bytes.data start hlt
    rw [ih, List.drop_eq_getElem_cons hbound, hget, List.reverse_cons, List.append_assoc]
    rfl
  | case2 start before hge =>
    rw [List.drop_eq_nil_of_le (Nat.le_of_not_lt hge), List.append_nil]

/-- The bytes of two texts put together are those of the one, followed by those of the other. -/
theorem toUTF8_append (first second : String) :
    (first ++ second).toUTF8.toList = first.toUTF8.toList ++ second.toUTF8.toList := by
  simp only [ByteArray.toList, toList_loop_eq, String.toUTF8, String.toByteArray_append,
    ByteArray.toList_data_append, List.reverse_nil, List.nil_append, List.drop_zero]

end FormsAudit.Utf8
