/-!
# UTF-8

Reading is a machine fed one byte at a time.  A byte that no character may continue with ends the
bytes owed so far as one broken sequence, and is then read afresh.  The strict reading, the lossy
reading and the length of the valid beginning are all views of the one `scan`.
-/

namespace FormsAudit.Utf8

/-- A character begun but not finished: `owed` more bytes, the next of them between `low` and
`high`, on top of the bits `code` read so far. -/
structure Pending where
  owed : Nat
  low : UInt8
  high : UInt8
  code : Nat
  deriving DecidableEq, Repr

/-- What a first byte means. -/
inductive Lead where
  /-- It is a whole character. -/
  | whole (c : Char)
  /-- It begins a longer one. -/
  | begun (pending : Pending)
  /-- No character begins with it. -/
  | broken
  deriving DecidableEq, Repr

/-- The meaning of a first byte.  The bounds on the second byte keep out overlong forms, surrogates
and code points past the last one. -/
def lead (byte : UInt8) : Lead :=
  if byte < 0x80 then .whole (Char.ofNat byte.toNat)
  else if byte < 0xC2 then .broken
  else if byte < 0xE0 then .begun ⟨1, 0x80, 0xBF, byte.toNat - 0xC0⟩
  else if byte = 0xE0 then .begun ⟨2, 0xA0, 0xBF, 0⟩
  else if byte = 0xED then .begun ⟨2, 0x80, 0x9F, 0xD⟩
  else if byte < 0xF0 then .begun ⟨2, 0x80, 0xBF, byte.toNat - 0xE0⟩
  else if byte = 0xF0 then .begun ⟨3, 0x90, 0xBF, 0⟩
  else if byte < 0xF4 then .begun ⟨3, 0x80, 0xBF, byte.toNat - 0xF0⟩
  else if byte = 0xF4 then .begun ⟨3, 0x80, 0x8F, 4⟩
  else .broken

/-- The characters of `bytes` in order, `none` for each broken sequence, after the unfinished
character `pending`. -/
def scanFrom : Option Pending → List UInt8 → List (Option Char)
  | none, [] => []
  | some _, [] => [none]
  | none, byte :: rest =>
    match lead byte with
    | .whole c => some c :: scanFrom none rest
    | .begun pending => scanFrom (some pending) rest
    | .broken => none :: scanFrom none rest
  | some pending, byte :: rest =>
    if pending.low ≤ byte ∧ byte ≤ pending.high then
      let code := pending.code * 0x40 + (byte.toNat - 0x80)
      if pending.owed ≤ 1 then
        some (Char.ofNat code) :: scanFrom none rest
      else
        scanFrom (some ⟨pending.owed - 1, 0x80, 0xBF, code⟩) rest
    else
      none ::
        match lead byte with
        | .whole c => some c :: scanFrom none rest
        | .begun fresh => scanFrom (some fresh) rest
        | .broken => none :: scanFrom none rest

/-- The characters of `bytes` in order, `none` for each broken sequence. -/
def scan (bytes : List UInt8) : List (Option Char) :=
  scanFrom none bytes

/-- The text of `bytes`, if no sequence is broken. -/
def decode? (bytes : List UInt8) : Option (List Char) :=
  (scan bytes).mapM id

/-- The text of `bytes`, with the replacement character for each broken sequence. -/
def decodeLossy (bytes : List UInt8) : List Char :=
  (scan bytes).map (·.getD '\uFFFD')

/-- The number of bytes that a text takes. -/
def size : List Char → Nat
  | [] => 0
  | c :: text => c.utf8Size + size text

/-- The number of bytes before the first broken sequence. -/
def validLength (bytes : List UInt8) : Nat :=
  size ((scan bytes).takeWhile Option.isSome |>.filterMap id)

/-- The bytes of a text. -/
def encode (text : List Char) : List UInt8 :=
  text.flatMap String.utf8EncodeChar

@[simp] theorem size_nil : size [] = 0 := rfl

@[simp] theorem size_cons (c : Char) (text : List Char) :
    size (c :: text) = c.utf8Size + size text := rfl

@[simp] theorem encode_nil : encode [] = [] := rfl

@[simp] theorem encode_cons (c : Char) (text : List Char) :
    encode (c :: text) = String.utf8EncodeChar c ++ encode text := rfl

theorem encode_append (first second : List Char) :
    encode (first ++ second) = encode first ++ encode second := by
  simp [encode]

end FormsAudit.Utf8
