import FormsAudit.Proofs.Encoding.Plain
import Mathlib.Data.List.Infix

/-!
# Text written in UTF-8

What a character is written as is read as that character, whatever follows
(`scanFrom_utf8EncodeChar`), so text that is written is read back (`decode?_encode`).

Where bytes are no text, they are text up to their valid length, and from there on no character
follows (`exists_broken`).  Like any part of a text that is read from the start on, what comes before
is read from bytes of its own (`exists_of_scanFrom_append`).
-/

namespace FormsAudit.Utf8

/-! ## One character -/

theorem lead_of_two : ∀ n < 0x20, 2 ≤ n →
    lead (UInt8.ofNat (n + 0xC0)) = .begun ⟨1, 0x80, 0xBF, n⟩ := by
  decide

theorem lead_of_three : ∀ n < 0x10, lead (UInt8.ofNat (n + 0xE0)) =
    .begun ⟨2, if n = 0 then 0xA0 else 0x80, if n = 0xD then 0x9F else 0xBF, n⟩ := by
  decide

theorem lead_of_four : ∀ n < 5, lead (UInt8.ofNat (n + 0xF0)) =
    .begun ⟨3, if n = 0 then 0x90 else 0x80, if n = 4 then 0x8F else 0xBF, n⟩ := by
  decide

/-- A byte between the bounds gives a character that is begun six bits more. -/
theorem scanFrom_continued {pending : Pending} {n : Nat} (hn : n < 0x40)
    (hlow : pending.low.toNat ≤ n + 0x80) (hhigh : n + 0x80 ≤ pending.high.toNat)
    (rest : List UInt8) :
    scanFrom (some pending) (UInt8.ofNat (n + 0x80) :: rest) =
      if pending.owed ≤ 1 then some (Char.ofNat (pending.code * 0x40 + n)) :: scanFrom none rest
      else scanFrom (some ⟨pending.owed - 1, 0x80, 0xBF, pending.code * 0x40 + n⟩) rest := by
  have hbyte : (UInt8.ofNat (n + 0x80)).toNat = n + 0x80 := by
    rw [UInt8.toNat_ofNat']
    omega
  have hcontinues : pending.low ≤ UInt8.ofNat (n + 0x80) ∧
      UInt8.ofNat (n + 0x80) ≤ pending.high := by
    rw [UInt8.le_iff_toNat_le, UInt8.le_iff_toNat_le, hbyte]
    exact ⟨hlow, hhigh⟩
  rw [scanFrom, if_pos hcontinues, hbyte, Nat.add_sub_cancel]

section Lengths

variable {code : Nat} (rest : List UInt8)

theorem scanFrom_one (h : code < 0x80) :
    scanFrom none (UInt8.ofNat code :: rest) = some (Char.ofNat code) :: scanFrom none rest := by
  have hbyte : (UInt8.ofNat code).toNat = code := by
    rw [UInt8.toNat_ofNat']
    omega
  have hlead : lead (UInt8.ofNat code) = .whole (Char.ofNat code) := by
    rw [lead, if_pos (by rw [UInt8.lt_iff_toNat_lt, hbyte]; exact h), hbyte]
  simp only [scanFrom, hlead]

theorem scanFrom_two (hlow : 0x80 ≤ code) (hhigh : code < 0x800) :
    scanFrom none (UInt8.ofNat (code / 64 % 32 + 0xC0) :: UInt8.ofNat (code % 64 + 0x80) :: rest) =
      some (Char.ofNat code) :: scanFrom none rest := by
  have hcode : code / 64 % 32 * 0x40 + code % 64 = code := by omega
  rw [scanFrom, lead_of_two _ (by omega) (by omega)]
  dsimp only
  rw [scanFrom_continued (by omega) (by simp) (by simp; omega), if_pos le_rfl, hcode]

/-- The bounds on the second byte are those of what is no surrogate and not shorter. -/
theorem scanFrom_three (hlow : 0x800 ≤ code) (hhigh : code < 0x10000)
    (hvalid : code < 0xD800 ∨ 0xDFFF < code) :
    scanFrom none (UInt8.ofNat (code / 4096 % 16 + 0xE0) :: UInt8.ofNat (code / 64 % 64 + 0x80) ::
        UInt8.ofNat (code % 64 + 0x80) :: rest) =
      some (Char.ofNat code) :: scanFrom none rest := by
  have hcode : (code / 4096 % 16 * 0x40 + code / 64 % 64) * 0x40 + code % 64 = code := by omega
  rw [scanFrom, lead_of_three _ (by omega)]
  dsimp only
  rw [scanFrom_continued (by omega) (by dsimp only; split <;> simp; omega)
    (by dsimp only; split <;> simp <;> omega), if_neg (by simp)]
  dsimp only
  rw [scanFrom_continued (by omega) (by simp) (by simp; omega), if_pos le_rfl, hcode]

theorem scanFrom_four (hlow : 0x10000 ≤ code) (hhigh : code < 0x110000) :
    scanFrom none (UInt8.ofNat (code / 262144 % 8 + 0xF0) ::
        UInt8.ofNat (code / 4096 % 64 + 0x80) :: UInt8.ofNat (code / 64 % 64 + 0x80) ::
          UInt8.ofNat (code % 64 + 0x80) :: rest) =
      some (Char.ofNat code) :: scanFrom none rest := by
  have hcode : ((code / 262144 % 8 * 0x40 + code / 4096 % 64) * 0x40 + code / 64 % 64) * 0x40 +
      code % 64 = code := by
    omega
  rw [scanFrom, lead_of_four _ (by omega)]
  dsimp only
  rw [scanFrom_continued (by omega) (by dsimp only; split <;> simp; omega)
    (by dsimp only; split <;> simp <;> omega), if_neg (by simp)]
  dsimp only
  rw [scanFrom_continued (by omega) (by simp) (by simp; omega), if_neg (by simp)]
  dsimp only
  rw [scanFrom_continued (by omega) (by simp) (by simp; omega), if_pos le_rfl, hcode]

end Lengths

/-- **What a character is written as is read as that character**, whatever follows. -/
theorem scanFrom_utf8EncodeChar (c : Char) (rest : List UInt8) :
    scanFrom none (String.utf8EncodeChar c ++ rest) = some c :: scanFrom none rest := by
  have hvalid : c.toNat < 0xD800 ∨ 0xDFFF < c.toNat ∧ c.toNat < 0x110000 := c.valid
  have hcode : c.val.toNat = c.toNat := rfl
  have hchar : some (Char.ofNat c.toNat) = some c := congrArg some (Char.ofNat_toNat c)
  unfold String.utf8EncodeChar
  rw [hcode, ← hchar]
  dsimp only
  split_ifs with hone htwo hthree
  · exact scanFrom_one rest (by omega)
  · exact scanFrom_two rest (by omega) (by omega)
  · exact scanFrom_three rest (by omega) (by omega) (by omega)
  · exact scanFrom_four rest (by omega) (by omega)

/-! ## Text -/

theorem scan_encode_append (text : List Char) (rest : List UInt8) :
    scan (encode text ++ rest) = text.map some ++ scan rest := by
  induction text with
  | nil => rfl
  | cons c text ih =>
    rw [encode_cons, List.append_assoc, scan, scanFrom_utf8EncodeChar, List.map_cons,
      List.cons_append, ← ih]
    rfl

/-- **Text that is written is read back.** -/
theorem decode?_encode (text : List Char) : decode? (encode text) = some text := by
  have hscan := scan_encode_append text []
  rw [List.append_nil] at hscan
  rw [decode?_eq_some_iff, hscan]
  exact List.append_nil _

/-- The lossy reading loses nothing of it. -/
theorem decodeLossy_encode (text : List Char) : decodeLossy (encode text) = text := by
  have hscan := scan_encode_append text []
  rw [List.append_nil] at hscan
  rw [decodeLossy, hscan, scan, scanFrom, List.append_nil, List.map_map]
  exact List.map_id text

theorem encode_injective : Function.Injective encode := by
  intro first second h
  have hread := decode?_encode first
  rw [h, decode?_encode] at hread
  exact (Option.some.inj hread).symm

theorem encode_ne_nil {text : List Char} (h : text ≠ []) : encode text ≠ [] :=
  fun hnil => h (encode_injective hnil)

/-- An ASCII character stands in a text where its byte is written. -/
theorem plainByte_mem_encode_iff {c : Char} (hc : isPlain c = true) {text : List Char} :
    plainByte c ∈ encode text ↔ c ∈ text := by
  have hword : ∀ other ∈ [c], isPlain other = true := by simpa using hc
  -- in UTF-8 it does not matter how other encodings are read
  let _ := WideDecoders.asciiOnly
  have hread : Encoding.utf8.decode? (encode text) = some text := decode?_encode text
  have hinfix := Encoding.infix_iff rfl hread hword (List.cons_ne_nil c [])
  rwa [List.map_singleton, List.singleton_infix_iff, List.singleton_infix_iff] at hinfix

/-! ## Broken bytes -/

/-- The first characters of what is read are read from bytes of their own.  A character that is
begun is the first of them. -/
theorem exists_of_scanFrom_append {text : List Char} {others : List (Option Char)}
    {bytes : List UInt8} {pending : Option Pending} (hpending : text = [] → pending = none)
    (h : scanFrom pending bytes = text.map some ++ others) :
    ∃ front back, bytes = front ++ back ∧ scanFrom pending front = text.map some ∧
      scanFrom none back = others := by
  induction bytes generalizing text pending with
  | nil =>
    cases text with
    | nil =>
      obtain rfl := hpending rfl
      exact ⟨[], [], rfl, rfl, h⟩
    | cons c text => cases pending <;> cases h
  | cons byte bytes ih =>
    cases text with
    | nil =>
      obtain rfl := hpending rfl
      exact ⟨[], byte :: bytes, rfl, rfl, h⟩
    | cons c text =>
      have hbegun : (c :: text = [] → pending = none) := by rintro ⟨⟩
      cases pending with
      | none =>
        rw [scanFrom_none_cons] at h
        cases hlead : lead byte with
        | whole found =>
          rw [hlead] at h
          obtain ⟨hfound, hrest⟩ := List.cons.inj h
          obtain ⟨front, back, rfl, hfront, hback⟩ := ih (fun _ => rfl) hrest
          exact ⟨byte :: front, back, rfl, by simp [scanFrom, hlead, hfront, hfound], hback⟩
        | begun next =>
          rw [hlead] at h
          obtain ⟨front, back, rfl, hfront, hback⟩ := ih (by rintro ⟨⟩) h
          exact ⟨byte :: front, back, rfl, by simpa [scanFrom, hlead] using hfront, hback⟩
        | broken =>
          rw [hlead] at h
          cases h
      | some begun =>
        by_cases hcontinues : begun.low ≤ byte ∧ byte ≤ begun.high
        · simp only [scanFrom, if_pos hcontinues] at h
          split at h
          · rename_i howed
            obtain ⟨hfound, hrest⟩ := List.cons.inj h
            obtain ⟨front, back, rfl, hfront, hback⟩ := ih (fun _ => rfl) hrest
            exact ⟨byte :: front, back, rfl,
              by simp [scanFrom, hcontinues, howed, hfront, ← hfound], hback⟩
          · rename_i howed
            obtain ⟨front, back, rfl, hfront, hback⟩ := ih (by rintro ⟨⟩) h
            exact ⟨byte :: front, back, rfl, by
              simpa [scanFrom, hcontinues, howed] using hfront, hback⟩
        · rw [scanFrom_of_not_continues hcontinues] at h
          cases h

/-- What is read up to the first broken sequence, if there is one. -/
theorem exists_of_mapM_eq_none {scanned : List (Option Char)} (h : scanned.mapM id = none) :
    ∃ others,
      scanned = (found (scanned.takeWhile Option.isSome)).map some ++ none :: others := by
  induction scanned with
  | nil => cases h
  | cons first scanned ih =>
    cases first with
    | none => exact ⟨scanned, rfl⟩
    | some c =>
      have hrest : scanned.mapM id = none := by
        cases hread : scanned.mapM id with
        | none => rfl
        | some text => simp [List.mapM_cons, hread] at h
      obtain ⟨others, hothers⟩ := ih hrest
      exact ⟨others, by simpa [found] using hothers⟩

/-- **Bytes that are no text are text up to their valid length, and no character follows there.** -/
theorem exists_broken {bytes : List UInt8} (h : decode? bytes = none) :
    ∃ front back text, bytes = front ++ back ∧ front.length = validLength bytes ∧
      decode? front = some text ∧ back ≠ [] ∧ ∀ c, ¬ String.utf8EncodeChar c <+: back := by
  obtain ⟨others, hothers⟩ := exists_of_mapM_eq_none h
  obtain ⟨front, back, hbytes, hfront, hback⟩ := exists_of_scanFrom_append (fun _ => rfl) hothers
  have hread := decode?_eq_some_iff.mpr hfront
  refine ⟨front, back, _, hbytes, (size_of_decode? hread).symm, hread, ?_, ?_⟩
  · rintro rfl
    cases hback
  · rintro c ⟨rest, rfl⟩
    rw [scanFrom_utf8EncodeChar] at hback
    cases hback

end FormsAudit.Utf8
