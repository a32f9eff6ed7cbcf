import FormsAudit.Proofs.Encoding.Length

/-!
# ASCII in the bytes and in the text

In UTF-8, and wherever a byte is a character, an ASCII byte is an ASCII character and nothing else
is.  So a text is divided by its ASCII characters as its bytes are divided by theirs
(`decode?_append_plain`, `exists_of_decode?_append`), and ASCII words stand in the one where they
stand in the other (`infix_iff`).

In UTF-8 both are statements about the scan, which has to be followed from the middle of a character
on: an unfinished one is never continued by an ASCII byte (`low_of_lead`) and never becomes an ASCII
character (`Pending.IsLong`).
-/

namespace FormsAudit

namespace Utf8

/-! ## The scan of UTF-8 -/

theorem low_of_lead {byte : UInt8} {pending : Pending} (h : lead byte = .begun pending) :
    0x80 ≤ pending.low := by
  unfold lead at h
  split_ifs at h <;> cases h <;> simp

theorem lead_of_lt {byte : UInt8} (hbyte : byte < 0x80) :
    lead byte = .whole (Char.ofNat byte.toNat) :=
  if_pos hbyte

theorem scanFrom_none_cons (byte : UInt8) (bytes : List UInt8) :
    scanFrom none (byte :: bytes) =
      match lead byte with
      | .whole c => some c :: scanFrom none bytes
      | .begun pending => scanFrom (some pending) bytes
      | .broken => none :: scanFrom none bytes := rfl

/-- A byte that does not continue a character breaks it off, and is then read afresh. -/
theorem scanFrom_of_not_continues {pending : Pending} {byte : UInt8} {bytes : List UInt8}
    (h : ¬ (pending.low ≤ byte ∧ byte ≤ pending.high)) :
    scanFrom (some pending) (byte :: bytes) = none :: scanFrom none (byte :: bytes) := by
  simp only [scanFrom, if_neg h]

/-- An ASCII byte ends what comes before it, and what follows is scanned from the start. -/
theorem scanFrom_append_plain {byte : UInt8} (hbyte : byte < 0x80) (bytes rest : List UInt8)
    (pending : Option Pending) (hlow : ∀ begun, pending = some begun → 0x80 ≤ begun.low) :
    scanFrom pending (bytes ++ byte :: rest) =
      scanFrom pending bytes ++ some (Char.ofNat byte.toNat) :: scanFrom none rest := by
  induction bytes generalizing pending with
  | nil =>
    have hfresh : scanFrom none (byte :: rest) =
        some (Char.ofNat byte.toNat) :: scanFrom none rest := by
      rw [scanFrom_none_cons, lead_of_lt hbyte]
    cases pending with
    | none => exact hfresh
    | some begun =>
      have hbreaks : ¬ (begun.low ≤ byte ∧ byte ≤ begun.high) := by
        intro hcontinues
        have hlong : 0x80 ≤ byte := UInt8.le_trans (hlow begun rfl) hcontinues.1
        exact UInt8.lt_irrefl byte (UInt8.lt_of_lt_of_le hbyte hlong)
      rw [List.nil_append, scanFrom_of_not_continues hbreaks, hfresh]
      rfl
  | cons first bytes ih =>
    have hfresh : scanFrom none (first :: bytes ++ byte :: rest) =
        scanFrom none (first :: bytes) ++
          some (Char.ofNat byte.toNat) :: scanFrom none rest := by
      rw [List.cons_append, scanFrom_none_cons, scanFrom_none_cons]
      cases hlead : lead first with
      | whole c => simp only [ih none (by simp), List.cons_append]
      | broken => simp only [ih none (by simp), List.cons_append]
      | begun next =>
        dsimp only
        apply ih
        rintro _ ⟨⟩
        exact low_of_lead hlead
    cases pending with
    | none => exact hfresh
    | some begun =>
      by_cases hcontinues : begun.low ≤ first ∧ first ≤ begun.high
      · rw [List.cons_append]
        simp only [scanFrom, if_pos hcontinues]
        split
        · rw [ih none (by simp), List.cons_append]
        · apply ih
          rintro _ ⟨⟩
          exact UInt8.le_refl _
      · rw [List.cons_append, scanFrom_of_not_continues hcontinues, ← List.cons_append, hfresh,
          scanFrom_of_not_continues hcontinues, List.cons_append]

/-- What continues a long character leaves it long, and finishes it as no ASCII character. -/
theorem Pending.IsLong.next {pending : Pending} (h : pending.IsLong) {byte : UInt8}
    (hlow : pending.low ≤ byte) (howed : ¬ pending.owed ≤ 1) :
    IsLong ⟨pending.owed - 1, 0x80, 0xBF, pending.code * 0x40 + (byte.toNat - 0x80)⟩ := by
  have hbyte : pending.low.toNat ≤ byte.toNat := UInt8.le_iff_toNat_le.mp hlow
  simp only [IsLong, howed, if_false] at h
  simp only [IsLong, UInt8.reduceToNat]
  split <;> omega

/-- An ASCII character among what is read is a byte, and stands between what is read of the bytes
before and of those after. -/
theorem exists_of_scanFrom_eq {c : Char} (hc : isPlain c = true) {bytes : List UInt8}
    {first : List Char} {others : List (Option Char)} (pending : Option Pending)
    (hlong : ∀ begun, pending = some begun → begun.IsLong)
    (h : scanFrom pending bytes = first.map some ++ some c :: others) :
    ∃ before after, bytes = before ++ plainByte c :: after ∧
      scanFrom pending before = first.map some ∧ scanFrom none after = others := by
  induction bytes generalizing pending first with
  | nil => cases pending <;> cases first <;> cases h
  | cons byte bytes ih =>
    cases pending with
    | none =>
      rw [scanFrom_none_cons] at h
      cases hlead : lead byte with
      | broken =>
        rw [hlead] at h
        cases first <;> cases h
      | whole found =>
        obtain ⟨rfl, hbyte⟩ := whole_of_lead hlead
        rw [hlead] at h
        cases first with
        | nil =>
          obtain ⟨hfound, hothers⟩ := List.cons.inj h
          obtain rfl := Option.some.inj hfound
          exact ⟨[], bytes, by rw [plainByte_ofNat hbyte]; rfl, rfl, hothers⟩
        | cons next first =>
          obtain ⟨hfound, hrest⟩ := List.cons.inj h
          obtain rfl := Option.some.inj hfound
          obtain ⟨before, after, rfl, hbefore, hafter⟩ := ih none (by simp) hrest
          refine ⟨byte :: before, after, rfl, ?_, hafter⟩
          simp only [scanFrom, hlead, hbefore, List.map_cons]
      | begun next =>
        rw [hlead] at h
        obtain ⟨before, after, rfl, hbefore, hafter⟩ := ih (some next) (by
          rintro _ ⟨⟩
          exact isLong_of_lead hlead) h
        refine ⟨byte :: before, after, rfl, ?_, hafter⟩
        simp only [scanFrom, hlead, hbefore]
    | some begun =>
      have hbegun : begun.IsLong := hlong begun rfl
      cases first with
      | nil =>
        -- what is read first is no ASCII character
        obtain ⟨head, rest, hhead, hplain⟩ := head_scanFrom_of_isLong hbegun (byte :: bytes)
        rw [hhead] at h
        obtain ⟨rfl, -⟩ := List.cons.inj h
        rw [Option.getD_some, hc] at hplain
        cases hplain
      | cons next first =>
        by_cases hcontinues : begun.low ≤ byte ∧ byte ≤ begun.high
        · simp only [scanFrom, if_pos hcontinues] at h
          by_cases howed : begun.owed ≤ 1
          · rw [if_pos howed] at h
            obtain ⟨hfound, hrest⟩ := List.cons.inj h
            obtain ⟨before, after, rfl, hbefore, hafter⟩ := ih none (by simp) hrest
            refine ⟨byte :: before, after, rfl, ?_, hafter⟩
            simp only [scanFrom, if_pos hcontinues, if_pos howed, hbefore, hfound, List.map_cons]
          · rw [if_neg howed] at h
            obtain ⟨before, after, rfl, hbefore, hafter⟩ := ih (some _) (by
              rintro _ ⟨⟩
              exact hbegun.next hcontinues.1 howed) h
            refine ⟨byte :: before, after, rfl, ?_, hafter⟩
            simp only [scanFrom, if_pos hcontinues, if_neg howed, hbefore]
        · rw [scanFrom_of_not_continues hcontinues] at h
          cases h

end Utf8

/-! ## Encodings of one byte per character -/

/-- No code page has an ASCII character in its upper half. -/
theorem CodePage.code_of_mem_upperHalf (page : CodePage) :
    ∀ code ∈ page.upperHalf, code = 0 ∨ 0x80 ≤ code := by
  cases page <;> decide +kernel

namespace Encoding

open Utf8

/-- A byte stands for a character by `read`, an ASCII byte for itself, and no other byte for an ASCII
character. -/
structure ReadsPlain (read : UInt8 → Option Char) : Prop where
  plain : ∀ byte, byte < 0x80 → read byte = some (Char.ofNat byte.toNat)
  eq_plainByte : ∀ byte c, read byte = some c → isPlain c = true → byte = plainByte c

theorem readsPlain_codePage (page : CodePage) : ReadsPlain page.decodeByte? where
  plain byte hbyte := if_pos hbyte
  eq_plainByte := by
    intro byte c hread hc
    unfold CodePage.decodeByte? at hread
    split at hread
    · rename_i hbyte
      cases hread
      exact (plainByte_ofNat hbyte).symm
    · -- the code is none of those that are not there, and so not ASCII
      split at hread
      · cases hread
      · rename_i code hnone
        cases hread
        have hmem : page.upperHalf.getD (byte.toNat - 0x80) 0 ∈ 0 :: page.upperHalf := by
          rw [List.getD_eq_getElem?_getD]
          cases hfound : page.upperHalf[byte.toNat - 0x80]? with
          | none => exact List.mem_cons_self
          | some found => exact List.mem_cons_of_mem 0 (List.mem_of_getElem? hfound)
        have hlong : 0x80 ≤ page.upperHalf.getD (byte.toNat - 0x80) 0 := by
          rcases List.mem_cons.mp hmem with hzero | hmem
          · exact absurd hzero hnone
          · exact (page.code_of_mem_upperHalf _ hmem).resolve_left hnone
        rw [isPlain_ofNat hlong] at hc
        cases hc

theorem readsPlain_userDefined : ReadsPlain fun byte => some (userDefinedChar byte) where
  plain byte hbyte := by rw [userDefinedChar, if_pos hbyte]
  eq_plainByte := by
    intro byte c hread hc
    obtain rfl := Option.some.inj hread
    unfold userDefinedChar at hc ⊢
    split at hc
    · rename_i hbyte
      rw [if_pos hbyte, plainByte_ofNat hbyte]
    · rw [isPlain_ofNat (by omega)] at hc
      cases hc

section ReadsPlain

variable {read : UInt8 → Option Char} (hread : ReadsPlain read)

include hread

theorem ReadsPlain.mapM_append {byte : UInt8} (hbyte : byte < 0x80) (bytes rest : List UInt8) :
    (bytes ++ byte :: rest).mapM read =
      (bytes.mapM read).bind fun first =>
        (rest.mapM read).map fun second => first ++ Char.ofNat byte.toNat :: second := by
  simp only [List.mapM_append, List.mapM_cons, hread.plain byte hbyte]
  cases bytes.mapM read <;> cases rest.mapM read <;> rfl

theorem ReadsPlain.exists_of_mapM {c : Char} (hc : isPlain c = true) {bytes : List UInt8}
    {first second : List Char} (h : bytes.mapM read = some (first ++ c :: second)) :
    ∃ before after, bytes = before ++ plainByte c :: after ∧ before.mapM read = some first ∧
      after.mapM read = some second := by
  induction bytes generalizing first with
  | nil => simp at h
  | cons byte bytes ih =>
    simp only [List.mapM_cons, Option.bind_eq_bind, Option.pure_def, Option.bind_eq_some_iff] at h
    obtain ⟨found, hfound, rest, hrest, heq⟩ := h
    have hcons := Option.some.inj heq
    cases first with
    | nil =>
      obtain ⟨rfl, rfl⟩ := List.cons.inj hcons
      exact ⟨[], bytes, by rw [← hread.eq_plainByte byte found hfound hc]; rfl, rfl, hrest⟩
    | cons next first =>
      obtain ⟨rfl, rfl⟩ := List.cons.inj hcons
      obtain ⟨before, after, rfl, hbefore, hafter⟩ := ih hrest
      refine ⟨byte :: before, after, rfl, ?_, hafter⟩
      simp [List.mapM_cons, hfound, hbefore]

end ReadsPlain

variable [WideDecoders]

/-- An encoding in which bytes can be counted is UTF-8 or reads byte by byte. -/
theorem eq_utf8_or {encoding : Encoding} (h : encoding.isBytewise = true) :
    encoding = .utf8 ∨
      ∃ read, ReadsPlain read ∧ ∀ bytes, encoding.decode? bytes = bytes.mapM read := by
  cases encoding with
  | utf8 => exact .inl rfl
  | narrow page => exact .inr ⟨_, readsPlain_codePage page, fun _ => rfl⟩
  | userDefined =>
    refine .inr ⟨_, readsPlain_userDefined, fun bytes => ?_⟩
    exact (List.mapM_pure (m := Option) (l := bytes) (f := userDefinedChar)).symm
  | utf16be | utf16le | wide _ | replacement => cases h

/-! ## Texts divided by ASCII characters -/

section Bytewise

variable {encoding : Encoding} (hbytewise : encoding.isBytewise = true)

include hbytewise

/-- **An ASCII byte divides the text as it divides the bytes.** -/
theorem decode?_append_plain {byte : UInt8} (hbyte : byte < 0x80) (bytes rest : List UInt8) :
    encoding.decode? (bytes ++ byte :: rest) =
      (encoding.decode? bytes).bind fun first =>
        (encoding.decode? rest).map fun second => first ++ Char.ofNat byte.toNat :: second := by
  rcases eq_utf8_or hbytewise with rfl | ⟨read, hread, hdecode⟩
  · change Utf8.decode? _ = (Utf8.decode? _).bind fun first => (Utf8.decode? _).map _
    have hscan : scan (bytes ++ byte :: rest) =
        scan bytes ++ some (Char.ofNat byte.toNat) :: scan rest :=
      scanFrom_append_plain hbyte bytes rest none (by simp)
    unfold Utf8.decode?
    rw [hscan, List.mapM_append, List.mapM_cons]
    cases (scan bytes).mapM id <;> cases (scan rest).mapM id <;> rfl
  · simp only [hdecode]
    exact hread.mapM_append hbyte bytes rest

/-- **An ASCII character divides the bytes as it divides the text.** -/
theorem exists_of_decode?_append {c : Char} (hc : isPlain c = true) {bytes : List UInt8}
    {first second : List Char} (h : encoding.decode? bytes = some (first ++ c :: second)) :
    ∃ before after, bytes = before ++ plainByte c :: after ∧
      encoding.decode? before = some first ∧ encoding.decode? after = some second := by
  rcases eq_utf8_or hbytewise with rfl | ⟨read, hread, hdecode⟩
  · have hscan : scanFrom none bytes = first.map some ++ some c :: second.map some := by
      have htext := decode?_eq_some_iff.mp h
      rwa [List.map_append, List.map_cons] at htext
    obtain ⟨before, after, hbytes, hbefore, hafter⟩ :=
      exists_of_scanFrom_eq hc none (by simp) hscan
    exact ⟨before, after, hbytes, decode?_eq_some_iff.mpr hbefore,
      decode?_eq_some_iff.mpr hafter⟩
  · simp only [hdecode] at h ⊢
    exact hread.exists_of_mapM hc h

theorem eq_nil_of_decode? {bytes : List UInt8} (h : encoding.decode? bytes = some []) :
    bytes = [] := by
  rcases eq_utf8_or hbytewise with rfl | ⟨read, -, hdecode⟩
  · cases bytes with
    | nil => rfl
    | cons byte bytes =>
      have hscan : scan (byte :: bytes) = [] := decode?_eq_some_iff.mp h
      exact absurd (by rw [decodeLossy, hscan]; rfl) (decodeLossy_cons_ne_nil byte bytes)
  · rw [hdecode] at h
    exact List.length_eq_zero_iff.mp (length_of_mapM h).symm

theorem decode?_nil : encoding.decode? [] = some [] := by
  rcases eq_utf8_or hbytewise with rfl | ⟨read, -, hdecode⟩
  · rfl
  · rw [hdecode]
    rfl

/-- What stands between ASCII bytes is a part of the text. -/
theorem exists_infix_of_decode? {before inner after : List UInt8} {opening closing : UInt8}
    (hopening : opening < 0x80) (hclosing : closing < 0x80) {text : List Char}
    (h : encoding.decode? (before ++ opening :: (inner ++ closing :: after)) = some text) :
    ∃ part, encoding.decode? inner = some part ∧ part <:+: text := by
  rw [decode?_append_plain hbytewise hopening, Option.bind_eq_some_iff] at h
  obtain ⟨first, -, h⟩ := h
  rw [Option.map_eq_some_iff] at h
  obtain ⟨rest, hrest, rfl⟩ := h
  rw [decode?_append_plain hbytewise hclosing, Option.bind_eq_some_iff] at hrest
  obtain ⟨part, hpart, hrest⟩ := hrest
  obtain ⟨last, -, rfl⟩ := Option.map_eq_some_iff.mp hrest
  refine ⟨part, hpart, first ++ [Char.ofNat opening.toNat], Char.ofNat closing.toNat :: last, ?_⟩
  simp

section Words

variable {bytes : List UInt8} {text : List Char} (hread : encoding.decode? bytes = some text)
  {word : List Char} (hword : ∀ c ∈ word, isPlain c = true)

include hread hword

theorem isPrefix_iff : word.map plainByte <+: bytes ↔ word <+: text := by
  induction word generalizing bytes text with
  | nil => simp
  | cons c word ih =>
    have hc : isPlain c = true := hword c List.mem_cons_self
    have hrest : ∀ other ∈ word, isPlain other = true :=
      fun other hother => hword other (List.mem_cons_of_mem c hother)
    rw [List.map_cons]
    constructor
    · rintro ⟨rest, rfl⟩
      have hbyte : plainByte c < 0x80 := plainByte_lt hc
      rw [List.cons_append, ← List.nil_append (plainByte c :: _),
        decode?_append_plain hbytewise hbyte, decode?_nil hbytewise, Option.bind_some,
        Option.map_eq_some_iff] at hread
      obtain ⟨others, hothers, rfl⟩ := hread
      rw [ofNat_plainByte hc, List.nil_append, List.cons_prefix_cons]
      exact ⟨rfl, (ih hothers hrest).mp (List.prefix_append _ _)⟩
    · rintro ⟨rest, rfl⟩
      have hfirst : encoding.decode? bytes = some ([] ++ c :: (word ++ rest)) := hread
      obtain ⟨before, after, rfl, hbefore, hafter⟩ :=
        exists_of_decode?_append hbytewise hc hfirst
      rw [eq_nil_of_decode? hbytewise hbefore, List.nil_append, List.cons_prefix_cons]
      exact ⟨rfl, (ih hafter hrest).mpr (List.prefix_append _ _)⟩

/-- **An ASCII word stands in the text where its bytes stand in the bytes.** -/
theorem infix_iff (hne : word ≠ []) : word.map plainByte <:+: bytes ↔ word <:+: text := by
  obtain ⟨c, rest, rfl⟩ := List.exists_cons_of_ne_nil hne
  have hc : isPlain c = true := hword c List.mem_cons_self
  have hrest : ∀ other ∈ rest, isPlain other = true :=
    fun other hother => hword other (List.mem_cons_of_mem c hother)
  constructor
  · rintro ⟨before, after, rfl⟩
    rw [List.map_cons, List.append_assoc, List.cons_append,
      decode?_append_plain hbytewise (plainByte_lt hc), Option.bind_eq_some_iff] at hread
    obtain ⟨first, -, hread⟩ := hread
    obtain ⟨others, hothers, rfl⟩ := Option.map_eq_some_iff.mp hread
    obtain ⟨last, hlast⟩ := (isPrefix_iff hbytewise hothers hrest).mp (List.prefix_append _ _)
    refine ⟨first, last, ?_⟩
    rw [ofNat_plainByte hc, ← hlast, List.append_assoc, List.cons_append]
  · rintro ⟨first, last, rfl⟩
    rw [List.append_assoc, List.cons_append] at hread
    obtain ⟨before, after, rfl, -, hafter⟩ := exists_of_decode?_append hbytewise hc hread
    obtain ⟨others, hothers⟩ := (isPrefix_iff hbytewise hafter hrest).mpr (List.prefix_append _ _)
    refine ⟨before, others, ?_⟩
    rw [List.map_cons, ← hothers, List.append_assoc, List.cons_append]

end Words

end Bytewise

end Encoding

end FormsAudit
