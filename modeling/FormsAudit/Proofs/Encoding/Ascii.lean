import FormsAudit.Proofs.Encoding.Plain

/-!
# ASCII characters come from their bytes

Whatever the encoding, an ASCII character of a text is among the bytes that the text was read from
(`plainByte_mem_of_decode?`): in UTF-16 as one half of a code unit, and everywhere else alone.  The
lossy reading of UTF-8 makes no ASCII character either (`plainByte_mem_of_decodeLossy`).
-/

namespace FormsAudit

namespace Utf8

variable {c : Char} (hc : isPlain c = true)

include hc

theorem plainByte_mem_of_scanFrom {bytes : List UInt8} (pending : Option Pending)
    (hlong : ∀ begun, pending = some begun → begun.IsLong)
    (h : some c ∈ scanFrom pending bytes) : plainByte c ∈ bytes := by
  induction bytes generalizing pending with
  | nil => cases pending <;> simp [scanFrom] at h
  | cons byte bytes ih =>
    have hfresh : some c ∈ scanFrom none (byte :: bytes) → plainByte c ∈ byte :: bytes := by
      intro h
      rw [scanFrom_none_cons] at h
      cases hlead : lead byte with
      | broken =>
        rw [hlead] at h
        have hrest : some c ∈ scanFrom none bytes := by simpa using h
        exact List.mem_cons_of_mem byte (ih none (by simp) hrest)
      | whole found =>
        rw [hlead] at h
        rcases List.mem_cons.mp h with hfound | hrest
        · obtain ⟨rfl, hbyte⟩ := whole_of_lead hlead
          rw [Option.some.inj hfound, plainByte_ofNat hbyte]
          exact List.mem_cons_self
        · exact List.mem_cons_of_mem byte (ih none (by simp) hrest)
      | begun next =>
        rw [hlead] at h
        refine List.mem_cons_of_mem byte (ih (some next) ?_ h)
        rintro _ ⟨⟩
        exact isLong_of_lead hlead
    cases pending with
    | none => exact hfresh h
    | some begun =>
      have hbegun : begun.IsLong := hlong begun rfl
      by_cases hcontinues : begun.low ≤ byte ∧ byte ≤ begun.high
      · simp only [scanFrom, if_pos hcontinues] at h
        apply List.mem_cons_of_mem byte
        by_cases howed : begun.owed ≤ 1
        · -- what is finished is no ASCII character
          obtain ⟨head, rest, hhead, hplain⟩ := head_scanFrom_of_isLong hbegun (byte :: bytes)
          simp only [scanFrom, if_pos hcontinues, if_pos howed] at hhead
          rw [if_pos howed, hhead] at h
          rcases List.mem_cons.mp h with hfound | hrest
          · rw [← hfound, Option.getD_some, hc] at hplain
            cases hplain
          · rw [← (List.cons.inj hhead).2] at hrest
            exact ih none (by simp) hrest
        · rw [if_neg howed] at h
          refine ih (some _) ?_ h
          rintro _ ⟨⟩
          exact hbegun.next hcontinues.1 howed
      · rw [scanFrom_of_not_continues hcontinues] at h
        exact hfresh (by simpa using h)

theorem plainByte_mem_of_decodeLossy {bytes : List UInt8} (h : c ∈ decodeLossy bytes) :
    plainByte c ∈ bytes := by
  obtain ⟨found, hfound, heq⟩ := List.mem_map.mp h
  cases found with
  | none =>
    have hreplacement : isPlain '\uFFFD' = false := by decide
    rw [← heq, Option.getD_none, hreplacement] at hc
    cases hc
  | some found =>
    obtain rfl : found = c := heq
    exact plainByte_mem_of_scanFrom hc none (by simp) hfound

end Utf8

namespace Encoding

open Utf8

theorem exists_of_mem_mapM {α β : Type} {f : α → Option β} {items : List α} {results : List β}
    (h : items.mapM f = some results) {result : β} (hresult : result ∈ results) :
    ∃ item ∈ items, f item = some result := by
  induction items generalizing results with
  | nil =>
    obtain rfl : [] = results := by simpa using h
    cases hresult
  | cons item items ih =>
    simp only [List.mapM_cons, Option.bind_eq_bind, Option.pure_def, Option.bind_eq_some_iff] at h
    obtain ⟨found, hfound, rest, hrest, heq⟩ := h
    obtain rfl := Option.some.inj heq
    rcases List.mem_cons.mp hresult with rfl | hmem
    · exact ⟨item, List.mem_cons_self, hfound⟩
    · obtain ⟨other, hother, hvalue⟩ := ih hrest hmem
      exact ⟨other, List.mem_cons_of_mem item hother, hvalue⟩

/-! ## UTF-16 -/

/-- A code unit is made of two of the bytes. -/
theorem exists_of_mem_units? {bigEndian : Bool} {bytes : List UInt8} {units : List Nat}
    (h : units? bigEndian bytes = some units) {unit : Nat} (hunit : unit ∈ units) :
    ∃ high ∈ bytes, ∃ low ∈ bytes, unit = high.toNat * 0x100 + low.toNat := by
  induction bytes using units?.induct bigEndian generalizing units with
  | case1 =>
    obtain rfl : [] = units := Option.some.inj h
    cases hunit
  | case2 => cases h
  | case3 first second rest ih =>
    rw [units?, Option.map_eq_some_iff] at h
    obtain ⟨others, hothers, rfl⟩ := h
    rcases List.mem_cons.mp hunit with rfl | hmem
    · cases bigEndian
      · exact ⟨second, by simp, first, by simp, rfl⟩
      · exact ⟨first, by simp, second, by simp, rfl⟩
    · obtain ⟨high, hhigh, low, hlow, hvalue⟩ := ih hothers hmem
      exact ⟨high, by simp [hhigh], low, by simp [hlow], hvalue⟩

theorem eq_of_isPlain_ofNat {n : Nat} (h : isPlain (Char.ofNat n) = true) :
    (Char.ofNat n).toNat = n := by
  have hlt : n < 0x80 := by
    by_contra hge
    rw [isPlain_ofNat (by omega)] at h
    cases h
  exact toNat_ofNat (.inl (by omega))

/-- An ASCII character is a code unit of its own. -/
theorem toNat_mem_of_decodeUnits? {c : Char} (hc : isPlain c = true) {units : List Nat}
    {text : List Char} (h : decodeUnits? units = some text) (hmem : c ∈ text) :
    c.toNat ∈ units := by
  induction units using decodeUnits?.induct generalizing text with
  | case1 =>
    obtain rfl : [] = text := Option.some.inj h
    cases hmem
  | case2 unit hunit low rest hlow ih =>
    rw [decodeUnits?, if_pos hunit] at h
    simp only [if_pos hlow, Option.map_eq_some_iff] at h
    obtain ⟨others, hothers, rfl⟩ := h
    rcases List.mem_cons.mp hmem with hpair | hmem
    · have hlong : 0x80 ≤ 0x10000 + (unit - 0xD800) * 0x400 + (low - 0xDC00) :=
        Nat.le_add_right_of_le (Nat.le_add_right_of_le (by decide))
      rw [hpair, isPlain_ofNat hlong] at hc
      cases hc
    · simp [ih hothers hmem]
  | case3 unit hunit low rest hlow =>
    rw [decodeUnits?, if_pos hunit] at h
    simp [hlow] at h
  | case4 unit hunit =>
    rw [decodeUnits?, if_pos hunit] at h
    cases h
  | case5 unit rest hunit hlow =>
    unfold decodeUnits? at h
    rw [if_neg hunit, if_pos hlow] at h
    cases h
  | case6 unit rest hunit hlow ih =>
    unfold decodeUnits? at h
    rw [if_neg hunit, if_neg hlow, Option.map_eq_some_iff] at h
    obtain ⟨others, hothers, rfl⟩ := h
    rcases List.mem_cons.mp hmem with rfl | hmem
    · rw [eq_of_isPlain_ofNat hc]
      exact List.mem_cons_self
    · exact List.mem_cons_of_mem unit (ih hothers hmem)

theorem plainByte_mem_of_units {c : Char} (hc : isPlain c = true) {bigEndian : Bool}
    {bytes : List UInt8} {text : List Char}
    (h : (units? bigEndian bytes).bind decodeUnits? = some text) (hmem : c ∈ text) :
    plainByte c ∈ bytes := by
  obtain ⟨units, hunits, htext⟩ := Option.bind_eq_some_iff.mp h
  obtain ⟨high, -, low, hlow, hvalue⟩ :=
    exists_of_mem_units? hunits (toNat_mem_of_decodeUnits? hc htext hmem)
  suffices hbyte : plainByte c = low by rwa [hbyte]
  have hsmall : (plainByte c).toNat < 0x80 := UInt8.lt_iff_toNat_lt.mp (plainByte_lt hc)
  have hlt := low.toNat_lt
  rw [← UInt8.toNat_inj, toNat_plainByte hc]
  rw [toNat_plainByte hc] at hsmall
  omega

/-! ## Every encoding -/

/-- **An ASCII character of a text is one of the bytes that the text was read from.** -/
theorem plainByte_mem_of_decode? [WideDecoders]
    {encoding : Encoding} {bytes : List UInt8} {text : List Char}
    (h : encoding.decode? bytes = some text) {c : Char} (hc : isPlain c = true) (hmem : c ∈ text) :
    plainByte c ∈ bytes := by
  have hread : ∀ {read : UInt8 → Option Char},
      (∀ byte c, read byte = some c → isPlain c = true → byte = plainByte c) →
        bytes.mapM read = some text → plainByte c ∈ bytes := by
    intro read hself hmapM
    obtain ⟨byte, hbyte, hvalue⟩ := exists_of_mem_mapM hmapM hmem
    rwa [← hself byte c hvalue hc]
  cases encoding with
  | utf8 =>
    have hscan : scan bytes = text.map some := decode?_eq_some_iff.mp h
    refine plainByte_mem_of_scanFrom hc none (by simp) ?_
    rw [scan] at hscan
    rw [hscan]
    exact List.mem_map_of_mem hmem
  | utf16be => exact plainByte_mem_of_units hc h hmem
  | utf16le => exact plainByte_mem_of_units hc h hmem
  | narrow page => exact hread (readsPlain_codePage page).eq_plainByte h
  | userDefined =>
    obtain rfl := Option.some.inj h
    obtain ⟨byte, hbyte, hvalue⟩ := List.mem_map.mp hmem
    rwa [← readsPlain_userDefined.eq_plainByte byte c (congrArg some hvalue) hc]
  | wide page => exact WideDecoders.toUInt8_mem h hmem (of_decide_eq_true (Bool.and_eq_true_iff.mp hc).2)
  | replacement =>
    by_cases hempty : bytes.isEmpty
    · obtain rfl : [] = text := by simpa [decode?, hempty] using h
      cases hmem
    · simp [decode?, hempty] at h

end Encoding

end FormsAudit
