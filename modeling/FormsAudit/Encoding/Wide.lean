/-!
# Encodings of more than one byte per character

What these encodings read and write is told by tables that are kept elsewhere.  A document is read
with whatever decoders there are, of which little is asked (`WideDecoders`).
-/

namespace FormsAudit

/-- Encodings of more than one byte per character, known by name. -/
inductive WideCodePage where
  | gbk
  | gb18030
  | big5
  | eucJP
  | iso2022JP
  | shiftJIS
  | eucKR
  deriving DecidableEq, Repr

/-- The name of the encoding in the encoding standard. -/
def WideCodePage.name : WideCodePage → String
  | .gbk => "GBK"
  | .gb18030 => "gb18030"
  | .big5 => "Big5"
  | .eucJP => "EUC-JP"
  | .iso2022JP => "ISO-2022-JP"
  | .shiftJIS => "Shift_JIS"
  | .eucKR => "EUC-KR"

/-- What reads and writes the wide encodings. -/
class WideDecoders where
  /-- The text that bytes are, if they are one. -/
  decode? : WideCodePage → List UInt8 → Option (List Char)
  /-- The number of bytes that a text takes when it is written. -/
  encodedLength : WideCodePage → List Char → Nat
  decode?_nil : ∀ page, decode? page [] = some []
  encodedLength_nil : ∀ page, encodedLength page [] = 0
  /-- An ASCII character is read only where its byte stands. -/
  toUInt8_mem : ∀ {page bytes text c}, decode? page bytes = some text → c ∈ text →
    c.toNat < 0x80 → c.toNat.toUInt8 ∈ bytes

/-! ## ASCII -/

/-- The ASCII character of one byte.  The escape and the two shifts belong to the code itself in
ISO-2022-JP. -/
def WideCodePage.asciiChar? (page : WideCodePage) (byte : UInt8) : Option Char :=
  if 0x80 ≤ byte then none
  else if page = .iso2022JP ∧ (byte = 0x0E ∨ byte = 0x0F ∨ byte = 0x1B) then none
  else some (Char.ofNat byte.toNat)

theorem WideCodePage.toUInt8_of_asciiChar? {page : WideCodePage} {byte : UInt8} {c : Char}
    (h : page.asciiChar? byte = some c) : c.toNat.toUInt8 = byte := by
  simp only [asciiChar?, Option.ite_none_left_eq_some, Option.some.injEq] at h
  obtain ⟨-, -, rfl⟩ := h
  have hlt := byte.toNat_lt
  have hvalid : byte.toNat.isValidChar := .inl (by omega)
  rw [Char.ofNat, dif_pos hvalid]
  exact UInt8.ofNat_toNat

/-- Decoders that know ASCII, and refuse all other text. -/
@[reducible] def WideDecoders.asciiOnly : WideDecoders where
  decode? page bytes := bytes.mapM page.asciiChar?
  encodedLength _ text := text.length
  decode?_nil _ := rfl
  encodedLength_nil _ := rfl
  toUInt8_mem := by
    intro page bytes text c h hc _
    induction bytes generalizing text with
    | nil =>
      obtain rfl := Option.some.inj h
      cases hc
    | cons byte bytes ih =>
      simp only [List.mapM_cons, Option.bind_eq_bind, Option.bind_eq_some_iff, Option.pure_def,
        Option.some.injEq] at h
      obtain ⟨first, hfirst, rest, hrest, rfl⟩ := h
      rcases List.mem_cons.mp hc with rfl | hmem
      · exact WideCodePage.toUInt8_of_asciiChar? hfirst ▸ List.mem_cons_self
      · exact List.mem_cons_of_mem _ (ih hrest hmem)

end FormsAudit
