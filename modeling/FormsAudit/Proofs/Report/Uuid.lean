import FormsAudit.Report.Uuid
import FormsAudit.Proofs.Json.Lexeme
import Mathlib.Algebra.Ring.Nat

/-!
# Identifiers that have been written

The five groups of an identifier hold its digits, none of which is a hyphen, and two digits make the
byte that they were written for.
-/

namespace FormsAudit.Uuid

/-! ## Groups -/

theorem map_length_cut (sizes : List Nat) {text : List Char} (h : text.length = sizes.sum) :
    (cut sizes text).map List.length = sizes := by
  induction sizes generalizing text with
  | nil => rfl
  | cons size sizes ih =>
    rw [List.sum_cons] at h
    simp only [cut, List.map_cons, List.length_take]
    rw [ih (by rw [List.length_drop]; omega), Nat.min_eq_left (by omega)]

theorem flatten_cut (sizes : List Nat) {text : List Char} (h : text.length = sizes.sum) :
    (cut sizes text).flatten = text := by
  induction sizes generalizing text with
  | nil => exact (List.eq_nil_of_length_eq_zero h).symm
  | cons size sizes ih =>
    rw [List.sum_cons] at h
    rw [cut, List.flatten_cons, ih (by rw [List.length_drop]; omega), List.take_append_drop]

theorem mem_of_mem_cut {sizes : List Nat} {text group : List Char} {c : Char}
    (hgroup : group ∈ cut sizes text) (hc : c ∈ group) : c ∈ text := by
  induction sizes generalizing text with
  | nil => cases hgroup
  | cons size sizes ih =>
    rcases List.mem_cons.mp hgroup with rfl | hgroup
    · exact List.mem_of_mem_take hc
    · exact List.mem_of_mem_drop (ih hgroup)

theorem eq_or_mem_of_mem_intercalate {c : Char} {groups : List (List Char)}
    (h : c ∈ ['-'].intercalate groups) : c = '-' ∨ ∃ group ∈ groups, c ∈ group := by
  induction groups with
  | nil => cases h
  | cons group groups ih =>
    cases groups with
    | nil => exact .inr ⟨group, List.mem_cons_self, by simpa [List.intercalate] using h⟩
    | cons next groups =>
      rw [List.intercalate, List.intersperse_cons_cons, List.flatten_cons, List.flatten_cons,
        List.mem_append, List.mem_append, List.mem_singleton] at h
      rcases h with hc | rfl | hc
      · exact .inr ⟨group, List.mem_cons_self, hc⟩
      · exact .inl rfl
      · exact (ih hc).imp_right fun ⟨other, hother, hc⟩ =>
          ⟨other, List.mem_cons_of_mem group hother, hc⟩

/-! ## Digits -/

/-- The two digits of a byte. -/
def byteDigits (byte : UInt8) : List Char :=
  [Nat.digitChar (byte.toNat / 16), Nat.digitChar (byte.toNat % 16)]

theorem length_flatMap_byteDigits (bytes : List UInt8) :
    (bytes.flatMap byteDigits).length = 2 * bytes.length := by
  induction bytes with
  | nil => rfl
  | cons byte bytes ih =>
    rw [List.flatMap_cons, List.length_append, ih, List.length_cons]
    simp only [byteDigits, List.length_cons, List.length_nil]
    omega

theorem bytesOf?_flatMap_byteDigits (bytes : List UInt8) :
    bytesOf? (bytes.flatMap byteDigits) = some bytes := by
  induction bytes with
  | nil => rfl
  | cons byte bytes ih =>
    have hbyte : byte.toNat < 256 := byte.toNat_lt
    obtain ⟨hhigh, -, -⟩ := Json.hexDigit?_digitChar (n := byte.toNat / 16) (by omega)
    obtain ⟨hlow, -, -⟩ := Json.hexDigit?_digitChar (n := byte.toNat % 16) (by omega)
    have hvalue : byte.toNat / 16 * 16 + byte.toNat % 16 = byte.toNat := Nat.div_add_mod' _ _
    rw [List.flatMap_cons]
    simp [byteDigits, bytesOf?, byteOf?, hhigh, hlow, hvalue, ih]

variable (uuid : Uuid)

theorem length_digits : uuid.digits.length = groupSizes.sum :=
  (length_flatMap_byteDigits uuid.bytes).trans (congrArg (2 * ·) uuid.length_bytes)

/-- No digit is a hyphen, and each is one byte. -/
theorem of_mem_digits {c : Char} (h : c ∈ uuid.digits) : c ≠ '-' ∧ c.utf8Size = 1 := by
  obtain ⟨byte, -, hc⟩ := List.mem_flatMap.mp h
  have hbyte : byte.toNat < 256 := byte.toNat_lt
  have hdigit : ∀ n < 16, Nat.digitChar n ≠ '-' ∧ (Nat.digitChar n).utf8Size = 1 := by decide
  rcases List.mem_pair.mp hc with rfl | rfl
  · exact hdigit _ (by omega)
  · exact hdigit _ (by omega)

/-! ## The whole text -/

theorem toList_toText :
    uuid.toText.toList = ['-'].intercalate (cut groupSizes uuid.digits) := by
  rw [toText, String.toList_intercalate, List.map_map]
  congr 1
  exact List.map_id'' (fun group => String.toList_ofList) _

theorem ofHyphenated?_toText : ofHyphenated? uuid.toText.toList = some uuid := by
  have hgroups : uuid.toText.toList.splitOn '-' = cut groupSizes uuid.digits := by
    rw [toList_toText]
    exact List.splitOn_intercalate '-'
      (fun group hgroup hc => (uuid.of_mem_digits (mem_of_mem_cut hgroup hc)).1 rfl)
      (by simp [cut, groupSizes])
  have hbytes : bytesOf? uuid.digits = some uuid.bytes := bytesOf?_flatMap_byteDigits uuid.bytes
  simp only [ofHyphenated?, hgroups, map_length_cut _ uuid.length_digits,
    flatten_cut _ uuid.length_digits, hbytes, if_true, Option.bind_some]
  exact dif_pos uuid.length_bytes

/-- The text has the size by which a text with hyphens is told. -/
theorem size_toText : Utf8.size uuid.toText.toList = 36 := by
  have hsize : ∀ text : List Char, (∀ c ∈ text, c.utf8Size = 1) → Utf8.size text = text.length := by
    intro text
    induction text with
    | nil => exact fun _ => rfl
    | cons c text ih =>
      intro h
      rw [Utf8.size_cons, ih fun d hd => h d (List.mem_cons_of_mem c hd), h c List.mem_cons_self,
        List.length_cons, Nat.add_comm]
  have hlength : uuid.toText.toList.length = 36 := by
    have hdigits := uuid.length_digits
    simp [toList_toText, cut, groupSizes, List.intercalate, List.intersperse] at hdigits ⊢
    omega
  rw [← hlength]
  refine hsize _ fun c hc => ?_
  rw [toList_toText] at hc
  rcases eq_or_mem_of_mem_intercalate hc with rfl | ⟨group, hgroup, hc⟩
  · rfl
  · exact (uuid.of_mem_digits (mem_of_mem_cut hgroup hc)).2

/-- **An identifier is read as it has been written.** -/
theorem parse_toText : parse uuid.toText = .ok uuid := by
  simp [parse, size_toText, ofHyphenated?_toText]

end FormsAudit.Uuid
