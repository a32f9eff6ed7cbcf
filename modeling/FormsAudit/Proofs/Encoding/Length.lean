import FormsAudit.Encoding.Basic
import FormsAudit.Proofs.Text.Utf8
import Mathlib.Algebra.Group.Nat.Defs
import Mathlib.Data.List.Basic
import Mathlib.Data.List.TakeWhile

/-!
# Characters are counted as the bytes that they were read from

Failures are placed by counting the bytes of the characters before them.  In UTF-8, and wherever a
byte is a character, a text is counted as exactly the bytes that it was read from
(`encodedLength_eq`), and a beginning of it as no more (`encodedLength_le`).  UTF-16 is the
exception: its characters are counted as if they were written in UTF-8, where most of them are
longer.

In UTF-8 the reason is that a character which has begun can only become one of as many bytes as it
takes (`Pending.Fits`): the bounds on the second byte keep out the shorter ones, the surrogates and
what lies past the last character.
-/

namespace FormsAudit

namespace Utf8

/-! ## Sizes of characters -/

/-- The numbers from `least` up to `bound`, which is not one of them, are characters of `size`
bytes. -/
def HaveSize (least bound size : Nat) : Prop :=
  size = 2 ∧ 0x80 ≤ least ∧ bound ≤ 0x800 ∨
    size = 3 ∧ 0x800 ≤ least ∧ bound ≤ 0xD800 ∨
    size = 3 ∧ 0xE000 ≤ least ∧ bound ≤ 0x10000 ∨
    size = 4 ∧ 0x10000 ≤ least ∧ bound ≤ 0x110000

theorem HaveSize.utf8Size_ofNat {least bound size n : Nat} (h : HaveSize least bound size)
    (hleast : least ≤ n) (hbound : n < bound) : (Char.ofNat n).utf8Size = size := by
  unfold HaveSize at h
  have hvalid : n.isValidChar := by
    unfold Nat.isValidChar
    omega
  have hcode : (Char.ofNat n).val.toNat = n := toNat_ofNat hvalid
  unfold Char.utf8Size
  simp only [UInt32.le_iff_toNat_le, UInt32.toNat_ofNatLT]
  split_ifs <;> omega

theorem utf8Size_ofNat_of_lt {n : Nat} (h : n < 0x80) : (Char.ofNat n).utf8Size = 1 := by
  have hcode : (Char.ofNat n).val.toNat = n := toNat_ofNat (.inl (by omega))
  rw [Char.utf8Size_eq_one_iff, UInt32.le_iff_toNat_le, hcode]
  exact Nat.le_of_lt_succ h

theorem size_append (first second : List Char) :
    size (first ++ second) = size first + size second := by
  induction first with
  | nil => simp
  | cons c first ih => simp [ih, Nat.add_assoc]

theorem size_le_of_isPrefix {first text : List Char} (h : first <+: text) :
    size first ≤ size text := by
  obtain ⟨rest, rfl⟩ := h
  rw [size_append]
  exact Nat.le_add_right _ _

/-! ## Sizes of what is read -/

/-- The least number that the character can come to. -/
def Pending.least (pending : Pending) : Nat :=
  (pending.code * 0x40 + (pending.low.toNat - 0x80)) * 0x40 ^ (pending.owed - 1)

/-- The number that follows the greatest one that the character can come to. -/
def Pending.bound (pending : Pending) : Nat :=
  (pending.code * 0x40 + (pending.high.toNat - 0x80) + 1) * 0x40 ^ (pending.owed - 1)

/-- Of the character that is begun, `read` bytes have been read, and whatever it comes to has as many
bytes as it will have taken. -/
structure Pending.Fits (pending : Pending) (read : Nat) : Prop where
  owed : 1 ≤ pending.owed
  size : HaveSize pending.least pending.bound (read + pending.owed)

theorem fits_of_lead {byte : UInt8} {pending : Pending} (h : lead byte = .begun pending) :
    pending.Fits 1 := by
  unfold lead at h
  simp only [UInt8.lt_iff_toNat_lt, ← UInt8.toNat_inj, UInt8.reduceToNat] at h
  split_ifs at h <;> cases h
  all_goals refine ⟨by simp, ?_⟩
  all_goals simp [HaveSize, Pending.least, Pending.bound]
  all_goals omega

section Next

variable {pending : Pending} {read : Nat} {byte : UInt8} (h : pending.Fits read)
  (hlow : pending.low ≤ byte) (hhigh : byte ≤ pending.high)

include h hlow hhigh

theorem Pending.Fits.utf8Size_eq (howed : pending.owed ≤ 1) :
    (Char.ofNat (pending.code * 0x40 + (byte.toNat - 0x80))).utf8Size = read + 1 := by
  obtain ⟨hpositive, hsize⟩ := h
  have hone : pending.owed = 1 := by omega
  rw [UInt8.le_iff_toNat_le] at hlow hhigh
  simp only [Pending.least, Pending.bound, hone, Nat.sub_self, Nat.pow_zero, Nat.mul_one] at hsize
  exact hsize.utf8Size_ofNat (by omega) (by omega)

theorem Pending.Fits.next (howed : ¬ pending.owed ≤ 1) :
    Fits ⟨pending.owed - 1, 0x80, 0xBF, pending.code * 0x40 + (byte.toNat - 0x80)⟩ (read + 1) := by
  obtain ⟨-, hsize⟩ := h
  rw [UInt8.le_iff_toNat_le] at hlow hhigh
  obtain ⟨owed, howed'⟩ : ∃ owed, pending.owed = owed + 2 := ⟨pending.owed - 2, by omega⟩
  set code := pending.code * 0x40 + (byte.toNat - 0x80) with hcode
  -- what is left of the numbers lies between the bounds that there were
  have hleast : pending.least ≤ code * 0x40 ^ (owed + 1) := by
    rw [Pending.least, howed']
    exact Nat.mul_le_mul_right _ (by omega)
  have hbound : (code + 1) * 0x40 ^ (owed + 1) ≤ pending.bound := by
    rw [Pending.bound, howed']
    exact Nat.mul_le_mul_right _ (by omega)
  rw [Nat.pow_succ, Nat.mul_comm (0x40 ^ owed), ← Nat.mul_assoc] at hleast hbound
  refine ⟨by dsimp only; omega, ?_⟩
  simp only [Pending.least, Pending.bound, howed', UInt8.reduceToNat, Nat.sub_self, Nat.add_zero,
    show owed + 2 - 1 - 1 = owed by omega]
  rw [howed'] at hsize
  have hnext : code * 0x40 + (0xBF - 0x80) + 1 = (code + 1) * 0x40 := by omega
  rw [hnext]
  unfold HaveSize at hsize ⊢
  omega

end Next

/-- The characters among what is read. -/
def found (scanned : List (Option Char)) : List Char :=
  scanned.filterMap id

theorem size_found_scanFrom (bytes : List UInt8) :
    size (found (scanFrom none bytes)) ≤ bytes.length ∧
      ∀ pending read, pending.Fits read →
        size (found (scanFrom (some pending) bytes)) ≤ read + bytes.length := by
  induction bytes with
  | nil => exact ⟨le_rfl, fun pending read _ => Nat.zero_le _⟩
  | cons byte rest ih =>
    obtain ⟨hnone, hsome⟩ := ih
    rw [List.length_cons]
    have hlead : size (found (scanFrom none (byte :: rest))) ≤ rest.length + 1 := by
      unfold scanFrom
      cases hbyte : lead byte with
      | whole c =>
        obtain ⟨rfl, hlt⟩ := whole_of_lead hbyte
        have hsize : (Char.ofNat byte.toNat).utf8Size = 1 := utf8Size_ofNat_of_lt hlt
        simp only [found, List.filterMap_cons, id, size_cons] at hnone ⊢
        omega
      | begun pending => exact (hsome pending 1 (fits_of_lead hbyte)).trans (Nat.add_comm _ _).le
      | broken => exact hnone.trans (Nat.le_succ _)
    refine ⟨hlead, ?_⟩
    intro pending read hfits
    by_cases hcontinues : pending.low ≤ byte ∧ byte ≤ pending.high
    · obtain ⟨hlow, hhigh⟩ := hcontinues
      simp only [scanFrom, if_pos (And.intro hlow hhigh)]
      by_cases howed : pending.owed ≤ 1
      · rw [if_pos howed]
        simp only [found, List.filterMap_cons, id, size_cons,
          hfits.utf8Size_eq hlow hhigh howed] at hnone ⊢
        omega
      · rw [if_neg howed]
        refine (hsome _ (read + 1) (hfits.next hlow hhigh howed)).trans ?_
        omega
    · -- the broken sequence is no character, and the byte is read afresh
      have hfresh : found (scanFrom (some pending) (byte :: rest)) =
          found (scanFrom none (byte :: rest)) := by
        simp only [scanFrom, if_neg hcontinues]
        rfl
      rw [hfresh]
      exact hlead.trans (Nat.le_add_left _ _)

/-- Where no sequence is broken, every byte is counted. -/
theorem size_of_scanFrom_eq {bytes : List UInt8} {text : List Char} :
    (scanFrom none bytes = text.map some → size text = bytes.length) ∧
      ∀ pending read, pending.Fits read → scanFrom (some pending) bytes = text.map some →
        size text = read + bytes.length := by
  induction bytes generalizing text with
  | nil =>
    constructor
    · intro h
      obtain rfl : text = [] := by simpa [scanFrom] using h.symm
      rfl
    · intro pending read _ h
      cases text <;> simp [scanFrom] at h
  | cons byte rest ih =>
    rw [List.length_cons]
    constructor
    · intro h
      unfold scanFrom at h
      cases hbyte : lead byte with
      | whole c =>
        obtain ⟨rfl, hlt⟩ := whole_of_lead hbyte
        simp only [hbyte] at h
        have hsize : (Char.ofNat byte.toNat).utf8Size = 1 := utf8Size_ofNat_of_lt hlt
        obtain ⟨first, others, rfl, hfirst, hothers⟩ := List.map_eq_cons_iff.mp h.symm
        rw [size_cons, Option.some.inj hfirst, hsize, ih.1 hothers.symm, Nat.add_comm]
      | begun pending =>
        simp only [hbyte] at h
        rw [ih.2 pending 1 (fits_of_lead hbyte) h, Nat.add_comm]
      | broken =>
        simp only [hbyte] at h
        cases text <;> simp at h
    · intro pending read hfits h
      unfold scanFrom at h
      split at h
      · rename_i hcontinues
        obtain ⟨hlow, hhigh⟩ := hcontinues
        dsimp only at h
        split at h
        · rename_i howed
          have hsize := hfits.utf8Size_eq hlow hhigh howed
          obtain ⟨first, others, rfl, hfirst, hothers⟩ := List.map_eq_cons_iff.mp h.symm
          rw [size_cons, Option.some.inj hfirst, hsize, ih.1 hothers.symm]
          omega
        · rename_i howed
          rw [ih.2 _ _ (hfits.next hlow hhigh howed) h]
          omega
      · cases text <;> simp at h

/-- The beginning of some bytes that is valid is no longer than they are. -/
theorem validLength_le (bytes : List UInt8) : validLength bytes ≤ bytes.length := by
  refine le_trans (size_le_of_isPrefix ?_) (size_found_scanFrom bytes).1
  exact (List.takeWhile_prefix _).filterMap id

theorem decode?_eq_some_iff {bytes : List UInt8} {text : List Char} :
    decode? bytes = some text ↔ scan bytes = text.map some := by
  unfold decode?
  generalize scan bytes = scanned
  induction scanned generalizing text with
  | nil => cases text <;> simp
  | cons found scanned ih =>
    cases found with
    | none => cases text <;> simp
    | some c => cases text <;> simp [List.mapM_cons, Option.bind_eq_some_iff, ← ih, and_comm]

theorem size_of_decode? {bytes : List UInt8} {text : List Char} (h : decode? bytes = some text) :
    size text = bytes.length :=
  size_of_scanFrom_eq.1 (decode?_eq_some_iff.mp h)

end Utf8

namespace Encoding

/-- Whether a byte is a character of its own, or the encoding is UTF-8. -/
def isBytewise : Encoding → Bool
  | utf8 | narrow _ | userDefined => true
  | _ => false

theorem length_of_mapM {α β : Type} {f : α → Option β} {items : List α} {results : List β}
    (h : items.mapM f = some results) : results.length = items.length := by
  induction items generalizing results with
  | nil =>
    obtain rfl : [] = results := by simpa using h
    rfl
  | cons item items ih =>
    simp only [List.mapM_cons, Option.bind_eq_bind, Option.pure_def, Option.bind_eq_some_iff] at h
    obtain ⟨result, -, rest, hrest, heq⟩ := h
    obtain rfl := Option.some.inj heq
    rw [List.length_cons, List.length_cons, ih hrest]

variable [WideDecoders]

/-- **A text is counted as the bytes that it was read from.** -/
theorem encodedLength_eq {encoding : Encoding} (h : encoding.isBytewise = true)
    {bytes : List UInt8} {text : List Char} (htext : encoding.decode? bytes = some text) :
    encoding.encodedLength text = bytes.length := by
  cases encoding with
  | utf8 => exact Utf8.size_of_decode? htext
  | narrow page => exact length_of_mapM htext
  | userDefined =>
    obtain rfl := Option.some.inj htext
    exact List.length_map _
  | utf16be | utf16le | wide _ | replacement => cases h

/-- A beginning of the text of some bytes is counted as no more than those bytes. -/
theorem encodedLength_le {encoding : Encoding} (h : encoding.isBytewise = true)
    {bytes : List UInt8} {text before : List Char} (htext : encoding.decode? bytes = some text)
    (hbefore : before <+: text) : encoding.encodedLength before ≤ bytes.length := by
  rw [← encodedLength_eq h htext]
  cases encoding with
  | utf8 => exact Utf8.size_le_of_isPrefix hbefore
  | narrow _ | userDefined => exact hbefore.length_le
  | utf16be | utf16le | wide _ | replacement => cases h

end Encoding

end FormsAudit
