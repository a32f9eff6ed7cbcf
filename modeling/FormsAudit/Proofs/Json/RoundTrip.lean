import FormsAudit.Json.Reader
import FormsAudit.Proofs.Json.Lexeme
import Mathlib.Data.List.Forall2

/-!
# Values that have been written

`Reads shape written value` says that the text of `written`, wherever it stands and whatever comes
after it, is read by the shape as `value`.  The two differ where a record leaves out fields that the
shape completes.  There is one lemma for each kind of shape, so that what is read of a format is put
together as the format is.
-/

namespace FormsAudit.Json

/-! ## Space between lexemes -/

namespace Cursor

theorem skipSpace_of_not_isSpace {c : Char} (hc : isSpace c = false) (line column : Nat)
    (rest : List Char) :
    (⟨line, column, c :: rest⟩ : Cursor).skipSpace = ⟨line, column, c :: rest⟩ :=
  skipSpaceFrom_of_not_isSpace hc line column rest

/-- The space of a new line is skipped. -/
theorem exists_skipSpace_newLine {c : Char} (hc : isSpace c = false) (depth line column : Nat)
    (rest : List Char) :
    ∃ line' column', (⟨line, column, newLine depth ++ c :: rest⟩ : Cursor).skipSpace =
      ⟨line', column', c :: rest⟩ := by
  have hspaces : ∀ count column, ∃ column',
      skipSpaceFrom (line + 1) column (List.replicate count ' ' ++ c :: rest) =
        ⟨line + 1, column', c :: rest⟩ := by
    intro count
    induction count with
    | zero => exact fun column => ⟨column, skipSpaceFrom_of_not_isSpace hc _ column rest⟩
    | succ count ih =>
      intro column
      obtain ⟨column', h⟩ := ih (column + 1)
      exact ⟨column', by simpa [List.replicate_succ, skipSpaceFrom, isSpace] using h⟩
  obtain ⟨column', h⟩ := hspaces (2 * depth) 0
  exact ⟨line + 1, column', by simpa [skipSpace, newLine, skipSpaceFrom] using h⟩

theorem skipSpace_skipSpace (cursor : Cursor) : cursor.skipSpace.skipSpace = cursor.skipSpace := by
  have hfrom : ∀ (rest : List Char) (line column : Nat),
      (skipSpaceFrom line column rest).skipSpace = skipSpaceFrom line column rest := by
    intro rest
    induction rest with
    | nil => exact fun _ _ => rfl
    | cons c rest ih =>
      intro line column
      rw [skipSpaceFrom]
      split_ifs with hbreak hspace
      · exact ih (line + 1) 0
      · exact ih line (column + 1)
      · exact skipSpace_of_not_isSpace (by simpa using hspace) line column rest
  exact hfrom cursor.rest cursor.line cursor.column

end Cursor

/-- A shape passes over the space before a value. -/
theorem Shape.read_skipSpace (shape : Shape) (cursor : Cursor) :
    shape.read cursor.skipSpace = shape.read cursor := by
  rw [Shape.read.eq_def, Cursor.skipSpace_skipSpace, ← Shape.read.eq_def]

/-! ## Readable values -/

/-- Whether a value other than null, or than a number below zero, may begin with `c`. -/
def opens (c : Char) : Bool :=
  c = '"' || c = 't' || c = 'f' || c = '[' || c = '\x7b' || isDigit c

theorem not_isSpace_of_opens {c : Char} (h : opens c = true) : Cursor.isSpace c = false := by
  cases hspace : Cursor.isSpace c with
  | false => rfl
  | true =>
    simp only [Cursor.isSpace, Bool.or_eq_true, decide_eq_true_eq] at hspace
    rcases hspace with ((rfl | rfl) | rfl) | rfl <;> cases h

/-- The text of `written` is read by the shape as `value`. -/
structure Reads (shape : Shape) (written value : Value) : Prop where
  head : ∀ depth, ∃ c rest, written.renderAt depth = c :: rest ∧ opens c = true
  read : ∀ depth line column rest, Follows rest → ∃ line' column',
    shape.read ⟨line, column, written.renderAt depth ++ rest⟩ =
      .ok (value, ⟨line', column', rest⟩)

theorem reads_text {wanted : String} {refusal : String → Option String} {s : String}
    (h : refusal s = none) : Reads (.text wanted refusal) (.text s) (.text s) where
  head depth := ⟨'"', _, rfl, rfl⟩
  read depth line column rest hrest := by
    obtain ⟨line', column', hread⟩ := exists_readText s line (column + '"'.utf8Size) rest
    refine ⟨line', column', ?_⟩
    have hcursor : (⟨line, column, (Value.text s).renderAt depth ++ rest⟩ : Cursor).skipSpace =
        ⟨line, column, '"' :: (s.toList.flatMap escapeChar ++ '"' :: rest)⟩ := by
      simp only [Value.renderAt, renderText, List.append_assoc, List.cons_append, List.nil_append]
      exact Cursor.skipSpace_of_not_isSpace rfl _ _ _
    rw [Shape.read]
    simp only [hcursor, Cursor.after]
    simp [hread, Except.bind, Shape.checkText, h, judged]

theorem reads_anyText (s : String) : Reads .anyText (.text s) (.text s) :=
  reads_text rfl

theorem reads_boolean (b : Bool) : Reads .boolean (.boolean b) (.boolean b) where
  head depth := by
    cases b
    · exact ⟨'f', _, rfl, rfl⟩
    · exact ⟨'t', _, rfl, rfl⟩
  read depth line column rest hrest := by
    cases b
    · refine ⟨line, column + 1 + 1 + 1 + 1 + 1, ?_⟩
      rw [Shape.read]
      rfl
    · refine ⟨line, column + 1 + 1 + 1 + 1, ?_⟩
      rw [Shape.read]
      rfl

theorem reads_natural {wanted : String} {bound n : Nat} (hn : n < bound)
    (hbound : bound ≤ wordBound) :
    Reads (.natural wanted bound) (.number (.natural n)) (.number (.natural n)) where
  head depth := by
    obtain ⟨c, rest, hdigits⟩ :=
      List.exists_cons_of_ne_nil (Nat.toDigits_ne_nil (n := n) (b := 10))
    have hc : isDigit c = true := isDigit_of_mem_toDigits (hdigits ▸ List.mem_cons_self)
    exact ⟨c, rest, hdigits, by simp [opens, hc]⟩
  read depth line column rest hrest := by
    obtain ⟨line', column', hread⟩ := exists_readNumber (hn.trans_le hbound) line column hrest
    refine ⟨line', column', ?_⟩
    obtain ⟨c, digits, hdigits⟩ :=
      List.exists_cons_of_ne_nil (Nat.toDigits_ne_nil (n := n) (b := 10))
    have hc : isDigit c = true := isDigit_of_mem_toDigits (hdigits ▸ List.mem_cons_self)
    have hsign : c ≠ '-' := by
      rintro rfl
      cases hc
    have hopens : opens c = true := by simp [opens, hc]
    have hrender : (Value.number (.natural n)).renderAt depth = c :: digits := hdigits
    rw [hdigits] at hread
    rw [Shape.read, hrender]
    simp only [List.cons_append] at hread ⊢
    rw [Cursor.skipSpace_of_not_isSpace (not_isSpace_of_opens hopens)]
    simp [hc, hread, Except.bind, judged, Shape.checkNatural, hn]

theorem reads_choice {names : List String} {name : String} (h : name ∈ names) :
    Reads (.choice names) (.text name) (.text name) where
  head depth := ⟨'"', _, rfl, rfl⟩
  read depth line column rest hrest := by
    obtain ⟨line', column', hread⟩ := exists_readText name line (column + '"'.utf8Size) rest
    refine ⟨line', column', ?_⟩
    have hcursor : ∀ line column, (⟨line, column,
        (Value.text name).renderAt depth ++ rest⟩ : Cursor).skipSpace =
        ⟨line, column, '"' :: (name.toList.flatMap escapeChar ++ '"' :: rest)⟩ := by
      intro line column
      simp only [Value.renderAt, renderText, List.append_assoc, List.cons_append, List.nil_append]
      exact Cursor.skipSpace_of_not_isSpace rfl _ _ _
    have hagain : (⟨line, column,
        '"' :: (name.toList.flatMap escapeChar ++ '"' :: rest)⟩ : Cursor).skipSpace =
        ⟨line, column, '"' :: (name.toList.flatMap escapeChar ++ '"' :: rest)⟩ :=
      Cursor.skipSpace_of_not_isSpace rfl _ _ _
    rw [Shape.read]
    simp only [hcursor, readChoice, hagain, Cursor.after]
    simp [hread, Except.bind, Shape.checkChoice, h, judged]

theorem Reads.option {shape : Shape} {written value : Value} (h : Reads shape written value) :
    Reads (.option shape) written value where
  head := h.head
  read depth line column rest hrest := by
    obtain ⟨line', column', hread⟩ := h.read depth line column rest hrest
    refine ⟨line', column', ?_⟩
    obtain ⟨c, chars, hrender, hopens⟩ := h.head depth
    have hnull : c ≠ 'n' := by
      rintro rfl
      cases hopens
    have hspace := not_isSpace_of_opens hopens
    rw [hrender, List.cons_append] at hread ⊢
    rw [Shape.read, Cursor.skipSpace_of_not_isSpace hspace, hread]
    simp only [List.isEmpty_cons, Bool.false_eq_true, if_false]
    split
    · next heq => exact absurd (List.cons.inj heq).1 hnull
    · rfl

/-! ## Lists -/

theorem follows_renderItems (depth : Nat) (items : List Value) (rest : List Char) :
    Follows (renderItems depth items ++ rest) := by
  cases items <;> simp [Follows, renderItems, newLine]

/-- The further items of a list are read up to the bracket that ends it. -/
theorem exists_readItems {shape : Shape} {items values : List Value}
    (h : List.Forall₂ (Reads shape) items values) (depth : Nat) (rest : List Char) :
    ∀ fuel, items.length < fuel → ∀ line column, ∃ line' column',
      readItems shape.read fuel false ⟨line, column, renderItems depth items ++ rest⟩ =
        .ok (values, ⟨line', column', ']' :: rest⟩) := by
  induction h with
  | nil =>
    intro fuel hfuel line column
    obtain ⟨fuel, rfl⟩ := Nat.exists_eq_add_one.mpr hfuel
    obtain ⟨line', column', hspace⟩ :=
      Cursor.exists_skipSpace_newLine (c := ']') rfl depth line column rest
    refine ⟨line', column', ?_⟩
    simp [readItems, nextItem, renderItems, hspace]
  | @cons item value items values hitem _ ih =>
    intro fuel hfuel line column
    obtain ⟨fuel, rfl⟩ := Nat.exists_eq_add_one.mpr (Nat.zero_lt_of_lt hfuel)
    obtain ⟨c, chars, hrender, hopens⟩ := hitem.head (depth + 1)
    have hc := not_isSpace_of_opens hopens
    have hclose : c ≠ ']' := by
      rintro rfl
      cases hopens
    obtain ⟨line₁, column₁, hspace⟩ := Cursor.exists_skipSpace_newLine hc (depth + 1) line
      (column + ','.utf8Size) (chars ++ (renderItems depth items ++ rest))
    have hnext : nextItem false ⟨line, column, renderItems depth (item :: items) ++ rest⟩ =
        .ok (true, ⟨line₁, column₁,
          item.renderAt (depth + 1) ++ (renderItems depth items ++ rest)⟩) := by
      have hcomma : Cursor.skipSpace ⟨line, column, renderItems depth (item :: items) ++ rest⟩ =
          ⟨line, column, ',' :: (newLine (depth + 1) ++
            c :: (chars ++ (renderItems depth items ++ rest)))⟩ := by
        simp only [renderItems, hrender, List.cons_append, List.append_assoc]
        exact Cursor.skipSpace_of_not_isSpace rfl _ _ _
      simp only [nextItem, hcomma]
      simp [Cursor.after, hspace, hrender, hclose]
    obtain ⟨line₂, column₂, hread⟩ := hitem.read (depth + 1) line₁ column₁ _
      (follows_renderItems depth items rest)
    obtain ⟨line₃, column₃, hothers⟩ := ih fuel (by simpa using hfuel) line₂ column₂
    refine ⟨line₃, column₃, ?_⟩
    simp [readItems, hnext, hread, hothers, Except.map]

theorem length_lt_length_renderItems (depth : Nat) (items : List Value) :
    items.length < (renderItems depth items).length := by
  induction items with
  | nil => simp [renderItems]
  | cons item items ih =>
    simp only [renderItems, List.length_cons, List.length_append]
    omega

theorem reads_list {shape : Shape} {items values : List Value}
    (h : List.Forall₂ (Reads shape) items values) :
    Reads (.list shape) (.list items) (.list values) where
  head depth := by cases items <;> exact ⟨'[', _, rfl, rfl⟩
  read depth line column rest hrest := by
    cases h with
    | nil =>
      refine ⟨line, column + 1 + 1, ?_⟩
      rw [Shape.read]
      rfl
    | @cons item value items values hitem hitems =>
      obtain ⟨c, chars, hrender, hopens⟩ := hitem.head (depth + 1)
      have hc := not_isSpace_of_opens hopens
      have hclose : c ≠ ']' := by
        rintro rfl
        cases hopens
      -- the place of the first item, the place behind it, and the place before the end
      obtain ⟨line₁, column₁, hspace⟩ := Cursor.exists_skipSpace_newLine hc (depth + 1) line
        (column + '['.utf8Size) (chars ++ (renderItems depth items ++ rest))
      obtain ⟨line₂, column₂, hread⟩ := hitem.read (depth + 1) line₁ column₁ _
        (follows_renderItems depth items rest)
      obtain ⟨line₃, column₃, hothers⟩ := exists_readItems hitems depth rest
        (newLine (depth + 1) ++ c :: (chars ++ (renderItems depth items ++ rest))).length
        (by
          have := length_lt_length_renderItems depth items
          simp only [List.length_append, List.length_cons]
          omega)
        line₂ column₂
      have hclosed : closeList ⟨line₃, column₃, ']' :: rest⟩ =
          (⟨line₃, column₃ + ']'.utf8Size, rest⟩, none) := by
        simp [closeList, Cursor.skipSpace_of_not_isSpace, Cursor.isSpace, Cursor.after]
      have hopening : Cursor.skipSpace ⟨line, column,
            (Value.list (item :: items)).renderAt depth ++ rest⟩ =
          ⟨line, column, '[' :: (newLine (depth + 1) ++
            c :: (chars ++ (renderItems depth items ++ rest)))⟩ := by
        simp only [Value.renderAt, hrender, List.cons_append, List.append_assoc]
        exact Cursor.skipSpace_of_not_isSpace rfl _ _ _
      have hfirst : nextItem true ⟨line, column + '['.utf8Size,
            newLine (depth + 1) ++ c :: (chars ++ (renderItems depth items ++ rest))⟩ =
          .ok (true, ⟨line₁, column₁,
            item.renderAt (depth + 1) ++ (renderItems depth items ++ rest)⟩) := by
        simp [nextItem, hspace, hrender, hclose]
      have hall : readItems shape.read
            ((newLine (depth + 1) ++ c :: (chars ++ (renderItems depth items ++ rest))).length + 1)
            true ⟨line, column + '['.utf8Size,
              newLine (depth + 1) ++ c :: (chars ++ (renderItems depth items ++ rest))⟩ =
          .ok (value :: values, ⟨line₃, column₃, ']' :: rest⟩) := by
        simp only [readItems, hfirst, hread, hothers, Except.map]
      refine ⟨line₃, column₃ + ']'.utf8Size, ?_⟩
      rw [Shape.read, hopening]
      simp only [Cursor.after, hall, hclosed, List.isEmpty_cons, Bool.false_eq_true, if_false,
        Char.reduceEq]

/-! ## Records -/

theorem follows_renderFields (depth : Nat) (fields : List (String × Value)) (rest : List Char) :
    Follows (renderFields depth fields ++ rest) := by
  cases fields <;> simp [Follows, renderFields, newLine]

theorem length_lt_length_renderFields (depth : Nat) (fields : List (String × Value)) :
    fields.length < (renderFields depth fields).length := by
  induction fields with
  | nil => simp [renderFields]
  | cons field fields ih =>
    simp only [renderFields, List.length_cons, List.length_append]
    omega

/-- The text of a value is read behind the colon and the space after a name. -/
theorem Reads.exists_readColon {shape : Shape} {written value : Value}
    (h : Reads shape written value) (depth line column : Nat) {rest : List Char}
    (hrest : Follows rest) :
    ∃ line' column', (readColon ⟨line, column, ':' :: ' ' :: (written.renderAt depth ++ rest)⟩).bind
      shape.read = .ok (value, ⟨line', column', rest⟩) := by
  obtain ⟨line', column', hread⟩ := h.read depth line (column + 1 + 1) rest hrest
  refine ⟨line', column', ?_⟩
  obtain ⟨c, chars, hrender, hopens⟩ := h.head depth
  have hc := not_isSpace_of_opens hopens
  have hcolon : readColon ⟨line, column, ':' :: ' ' :: (written.renderAt depth ++ rest)⟩ =
      .ok ⟨line, column + 1, ' ' :: (written.renderAt depth ++ rest)⟩ := by
    simp only [readColon,
      Cursor.skipSpace_of_not_isSpace (show Cursor.isSpace ':' = false from rfl)]
    rfl
  have hspace : Cursor.skipSpace ⟨line, column + 1, ' ' :: (written.renderAt depth ++ rest)⟩ =
      ⟨line, column + 1 + 1, written.renderAt depth ++ rest⟩ := by
    rw [hrender]
    exact Cursor.skipSpace_of_not_isSpace hc line (column + 1 + 1) (chars ++ rest)
  rw [hcolon, Except.bind, ← Shape.read_skipSpace, hspace, hread]

/-- The written field is one of the record's, and its text is read by the reader it has there. -/
def ReadsField (readers : List (String × ValueReader)) (written found : String × Value) : Prop :=
  written.1 = found.1 ∧ ∃ shape : Shape,
    readers.lookup written.1 = some shape.read ∧ Reads shape written.2 found.2

/-- The text of a field, and what comes behind it. -/
def fieldThen (depth : Nat) (field : String × Value) (rest : List Char) : List Char :=
  '"' :: (field.1.toList.flatMap escapeChar ++
    '"' :: ':' :: ' ' :: (field.2.renderAt (depth + 1) ++ rest))

theorem renderFields_cons (depth : Nat) (field : String × Value)
    (fields : List (String × Value)) (rest : List Char) :
    renderFields depth (field :: fields) ++ rest =
      ',' :: (newLine (depth + 1) ++
        fieldThen depth field (renderFields depth fields ++ rest)) := by
  simp [renderFields, fieldThen, renderText]

theorem renderAt_record_cons (depth : Nat) (field : String × Value)
    (fields : List (String × Value)) (rest : List Char) :
    (Value.record (field :: fields)).renderAt depth ++ rest =
      '\x7b' :: (newLine (depth + 1) ++
        fieldThen depth field (renderFields depth fields ++ rest)) := by
  simp [Value.renderAt, fieldThen, renderText]

theorem exists_skipSpace_fieldThen (depth line column : Nat) (field : String × Value)
    (rest : List Char) :
    ∃ line' column', (⟨line, column, newLine (depth + 1) ++ fieldThen depth field rest⟩ :
      Cursor).skipSpace = ⟨line', column', fieldThen depth field rest⟩ :=
  Cursor.exists_skipSpace_newLine rfl (depth + 1) line column _

/-- One field is read where it has been seen that one follows. -/
theorem exists_readNamed_field {readers : List (String × ValueReader)}
    {written found : String × Value} (h : ReadsField readers written found) {depth : Nat}
    {first : Bool} {before : List (String × Value)} (hnew : before.lookup written.1 = none)
    {cursor : Cursor} {line column : Nat} {rest : List Char} (hrest : Follows rest)
    (hnext : nextName first cursor = .ok (true, ⟨line, column, fieldThen depth written rest⟩))
    (fuel : Nat) :
    ∃ line' column', readNamed readers (fuel + 1) first before cursor =
      readNamed readers fuel false (before ++ [found]) ⟨line', column', rest⟩ := by
  obtain ⟨name, writtenValue⟩ := written
  obtain ⟨name', value⟩ := found
  obtain ⟨rfl, shape, hreader, hreads⟩ := h
  dsimp only at hreader hreads hnew
  obtain ⟨line₁, column₁, hname⟩ := exists_readText name line (column + Utf8.size ['"'])
    (':' :: ' ' :: (writtenValue.renderAt (depth + 1) ++ rest))
  obtain ⟨line₂, column₂, hvalue⟩ := hreads.exists_readColon (depth + 1) line₁ column₁ hrest
  refine ⟨line₂, column₂, ?_⟩
  simp only [readNamed, hnext, fieldThen, Cursor.past, List.drop_one, List.tail_cons, hname,
    hreader, hnew, hvalue, Option.isSome_none, Bool.false_eq_true, if_false]

/-- The further fields of a record are read up to the brace that ends it. -/
theorem exists_readNamed {readers : List (String × ValueReader)}
    {written found : List (String × Value)} (h : List.Forall₂ (ReadsField readers) written found)
    (depth : Nat) (rest : List Char) :
    ∀ fuel, written.length < fuel → ∀ before : List (String × Value),
      ((before ++ written).map Prod.fst).Nodup → ∀ line column, ∃ line' column',
        readNamed readers fuel false before
            ⟨line, column, renderFields depth written ++ rest⟩ =
          .ok (before ++ found, ⟨line', column', '\x7d' :: rest⟩) := by
  induction h with
  | nil =>
    intro fuel hfuel before _ line column
    obtain ⟨fuel, rfl⟩ := Nat.exists_eq_add_one.mpr hfuel
    obtain ⟨line', column', hspace⟩ :=
      Cursor.exists_skipSpace_newLine (c := '\x7d') rfl depth line column rest
    refine ⟨line', column', ?_⟩
    simp [readNamed, nextName, renderFields, hspace]
  | @cons field value written found hfield _ ih =>
    intro fuel hfuel before hnodup line column
    obtain ⟨fuel, rfl⟩ := Nat.exists_eq_add_one.mpr (Nat.zero_lt_of_lt hfuel)
    have hnew : before.lookup field.1 = none := by
      rw [List.lookup_eq_none_iff]
      intro other hother
      rw [bne_iff_ne]
      intro heq
      rw [List.map_append, List.nodup_append] at hnodup
      exact hnodup.2.2 _ (List.mem_map_of_mem hother) _ List.mem_cons_self heq.symm
    -- the place of the name
    obtain ⟨line₁, column₁, hspace⟩ := exists_skipSpace_fieldThen depth line
      (column + ','.utf8Size) field (renderFields depth written ++ rest)
    have hnext : nextName false ⟨line, column, renderFields depth (field :: written) ++ rest⟩ =
        .ok (true, ⟨line₁, column₁,
          fieldThen depth field (renderFields depth written ++ rest)⟩) := by
      rw [renderFields_cons]
      simp only [nextName,
        Cursor.skipSpace_of_not_isSpace (show Cursor.isSpace ',' = false from rfl)]
      simp only [Cursor.after, Char.reduceEq, if_false, if_true, Bool.false_eq_true, hspace]
      rfl
    obtain ⟨line₂, column₂, hread⟩ := exists_readNamed_field hfield hnew
      (follows_renderFields depth written rest) hnext fuel
    obtain ⟨line₃, column₃, hothers⟩ := ih fuel (by simpa using hfuel) (before ++ [value])
      (by simpa [hfield.1] using hnodup) line₂ column₂
    exact ⟨line₃, column₃, by rw [hread, hothers, List.append_assoc, List.singleton_append]⟩

/-- The fields that are left out have what the shape falls back on: the written fields of a record
are read as the fields of the completed one. -/
inductive ReadsFields : List (String × Shape × Option Value) → List (String × Value) →
    List (String × Value) → Prop
  | nil : ReadsFields [] [] []
  | present {name : String} {shape : Shape} {fallback : Option Value} {written value : Value}
      {fields : List (String × Shape × Option Value)} {others values : List (String × Value)} :
      Reads shape written value → ReadsFields fields others values →
      ReadsFields ((name, shape, fallback) :: fields) ((name, written) :: others)
        ((name, value) :: values)
  | absent {name : String} {shape : Shape} {fallback : Value}
      {fields : List (String × Shape × Option Value)} {others values : List (String × Value)} :
      ReadsFields fields others values →
      ReadsFields ((name, shape, some fallback) :: fields) others ((name, fallback) :: values)

namespace ReadsFields

variable {fields : List (String × Shape × Option Value)} {written values : List (String × Value)}

theorem names_sublist (h : ReadsFields fields written values) :
    (written.map Prod.fst).Sublist (fields.map Prod.fst) := by
  induction h with
  | nil => exact .slnil
  | present _ _ ih => exact ih.cons_cons _
  | absent _ ih => exact ih.cons _

/-- A field that the others do not name makes no difference to their completion. -/
theorem complete_cons {name : String} (value : Value) {found : List (String × Value)}
    (h : name ∉ fields.map Prod.fst) :
    Shape.complete ((name, value) :: found) fields = Shape.complete found fields := by
  induction fields with
  | nil => rfl
  | cons field fields ih =>
    obtain ⟨other, shape, fallback⟩ := field
    rw [List.map_cons, List.mem_cons, not_or] at h
    have hlookup : ((name, value) :: found).lookup other = found.lookup other := by
      simp [List.lookup_cons, beq_eq_false_iff_ne.mpr (Ne.symm h.1)]
    simp only [Shape.complete, hlookup, ih h.2]

/-- The readers of the other fields are among those of all. -/
theorem forall₂_readsField_cons {name : String} {read : ValueReader}
    {readers : List (String × ValueReader)} {written found : List (String × Value)}
    (hne : name ∉ written.map Prod.fst) (h : List.Forall₂ (ReadsField readers) written found) :
    List.Forall₂ (ReadsField ((name, read) :: readers)) written found := by
  have hothers : ∀ field ∈ written, field.1 ≠ name := by
    rintro field hfield rfl
    exact hne (List.mem_map_of_mem hfield)
  refine ((List.forall₂_and_left _ _).mpr ⟨hothers, h⟩).imp ?_
  rintro field value ⟨hfield, heq, shape, hreader, hreads⟩
  exact ⟨heq, shape, by simpa [List.lookup_cons, beq_eq_false_iff_ne.mpr hfield] using hreader, hreads⟩

/-- What is found of the written fields is completed to the values. -/
theorem exists_found (h : ReadsFields fields written values)
    (hnodup : (fields.map Prod.fst).Nodup) :
    ∃ found, List.Forall₂ (ReadsField (fieldReaders fields)) written found ∧
      found.map Prod.fst = written.map Prod.fst ∧ Shape.complete found fields = .ok values := by
  induction h with
  | nil => exact ⟨[], .nil, rfl, rfl⟩
  | @present name shape fallback w v fields others values hreads hothers ih =>
    rw [List.map_cons, List.nodup_cons] at hnodup
    obtain ⟨found, hall, hnames, hcomplete⟩ := ih hnodup.2
    have hne : name ∉ others.map Prod.fst := mt (hothers.names_sublist.subset ·) hnodup.1
    refine ⟨(name, v) :: found, .cons ?_ (forall₂_readsField_cons hne hall), by simp [hnames], ?_⟩
    · exact ⟨rfl, shape, by simp [fieldReaders], hreads⟩
    · simp [Shape.complete, complete_cons v hnodup.1, hcomplete, Except.map]
  | @absent name shape fallback fields others values hothers ih =>
    rw [List.map_cons, List.nodup_cons] at hnodup
    obtain ⟨found, hall, hnames, hcomplete⟩ := ih hnodup.2
    have hne : name ∉ others.map Prod.fst := mt (hothers.names_sublist.subset ·) hnodup.1
    have hnone : found.lookup name = none := by
      rw [List.lookup_eq_none_iff]
      intro field hfield
      rw [bne_iff_ne]
      rintro rfl
      exact hne (hnames ▸ List.mem_map_of_mem hfield)
    refine ⟨found, forall₂_readsField_cons hne hall, hnames, ?_⟩
    simp [Shape.complete, hnone, hcomplete, Except.map]

end ReadsFields

/-- All fields of a record are read, from behind its opening brace to its closing one. -/
theorem exists_readNamed_first {readers : List (String × ValueReader)}
    {written found : List (String × Value)} (h : List.Forall₂ (ReadsField readers) written found)
    (hnodup : (written.map Prod.fst).Nodup) (depth line column : Nat) (rest : List Char) :
    ∃ chars line' column',
      (Value.record written).renderAt depth ++ rest = '\x7b' :: chars ∧
      readNamed readers (chars.length + 1) true [] ⟨line, column, chars⟩ =
        .ok (found, ⟨line', column', '\x7d' :: rest⟩) := by
  cases h with
  | nil => exact ⟨'\x7d' :: rest, line, column, rfl, by
      simp [readNamed, nextName, Cursor.skipSpace_of_not_isSpace, Cursor.isSpace]⟩
  | @cons field value written found hfield hothers =>
    obtain ⟨line₁, column₁, hspace⟩ := exists_skipSpace_fieldThen depth line column field
      (renderFields depth written ++ rest)
    have hnext : nextName true ⟨line, column, newLine (depth + 1) ++
          fieldThen depth field (renderFields depth written ++ rest)⟩ =
        .ok (true, ⟨line₁, column₁,
          fieldThen depth field (renderFields depth written ++ rest)⟩) := by
      simp only [nextName, hspace]
      rfl
    refine ⟨newLine (depth + 1) ++ fieldThen depth field (renderFields depth written ++ rest), ?_⟩
    have hlength : written.length < (newLine (depth + 1) ++
        fieldThen depth field (renderFields depth written ++ rest)).length := by
      have := length_lt_length_renderFields depth written
      simp only [fieldThen, List.length_append, List.length_cons]
      omega
    obtain ⟨line₂, column₂, hread⟩ := exists_readNamed_field hfield List.lookup_nil
      (follows_renderFields depth written rest) hnext _
    obtain ⟨line₃, column₃, hall⟩ := exists_readNamed hothers depth rest _ hlength [value]
      (by simpa [hfield.1] using hnodup) line₂ column₂
    refine ⟨line₃, column₃, renderAt_record_cons depth field written rest, ?_⟩
    rw [hread, List.nil_append, hall, List.singleton_append]

theorem reads_record {name : String} {fields : List (String × Shape × Option Value)}
    {written values : List (String × Value)} (h : ReadsFields fields written values)
    (hnodup : (fields.map Prod.fst).Nodup) :
    Reads (.record name fields) (.record written) (.record values) where
  head depth := by cases written <;> exact ⟨'\x7b', _, rfl, rfl⟩
  read depth line column rest hrest := by
    obtain ⟨found, hall, -, hcomplete⟩ := h.exists_found hnodup
    obtain ⟨chars, line', column', hrender, hread⟩ := exists_readNamed_first hall
      (hnodup.sublist h.names_sublist) depth line (column + '\x7b'.utf8Size) rest
    refine ⟨line', column' + '\x7d'.utf8Size, ?_⟩
    have hclose : closeRecord ⟨line', column', '\x7d' :: rest⟩ =
        (⟨line', column' + '\x7d'.utf8Size, rest⟩, none) := by
      simp [closeRecord, Cursor.skipSpace_of_not_isSpace, Cursor.isSpace, Cursor.after]
    rw [Shape.read, hrender,
      Cursor.skipSpace_of_not_isSpace (show Cursor.isSpace '\x7b' = false from rfl)]
    simp only [Cursor.after, List.isEmpty_cons, Bool.false_eq_true, if_false, Char.reduceEq,
      hread, completed, hcomplete, closed, hclose]

/-! ## Whole texts -/

/-- **The text of a value is read as the value that is read of it.** -/
theorem Reads.parse_render {shape : Shape} {written value : Value}
    (h : Reads shape written value) : shape.parse written.render = .ok value := by
  obtain ⟨line, column, hread⟩ := h.read 0 1 0 [] (by simp [Follows])
  rw [List.append_nil] at hread
  simp [Shape.parse, Cursor.start, Value.render, hread, Cursor.skipSpace]

/-- At any depth a text tells what is read of it. -/
theorem Reads.value_inj {shape : Shape} {written written' value value' : Value}
    (h : Reads shape written value) (h' : Reads shape written' value') {depth : Nat}
    (heq : written.renderAt depth = written'.renderAt depth) : value = value' := by
  obtain ⟨line, column, hread⟩ := h.read depth 1 0 [] (by simp [Follows])
  obtain ⟨line', column', hread'⟩ := h'.read depth 1 0 [] (by simp [Follows])
  rw [heq, hread'] at hread
  exact (Prod.mk.inj (Except.ok.inj hread)).1.symm

/-! ## Parts of a text -/

theorem infix_append_right {α : Type} {part rest : List α} (h : part <:+: rest) (first : List α) :
    part <:+: first ++ rest :=
  h.trans (List.suffix_append first rest).isInfix

/-- The text of an item stands in that of the first item and the further ones. -/
theorem renderAt_infix_renderItems {item other : Value} {items : List Value}
    (h : item ∈ other :: items) (depth : Nat) :
    item.renderAt (depth + 1) <:+: other.renderAt (depth + 1) ++ renderItems depth items := by
  induction items generalizing other with
  | nil =>
    obtain rfl := List.mem_singleton.mp h
    exact (List.prefix_append _ _).isInfix
  | cons next items ih =>
    rcases List.mem_cons.mp h with rfl | h
    · exact (List.prefix_append _ _).isInfix
    · rw [renderItems]
      exact infix_append_right (infix_append_right (ih h) _) _

/-- The text of an item stands in the text of its list. -/
theorem renderAt_infix_list {item : Value} {items : List Value} (h : item ∈ items) (depth : Nat) :
    item.renderAt (depth + 1) <:+: (Value.list items).renderAt depth := by
  cases items with
  | nil => cases h
  | cons other items =>
    rw [Value.renderAt]
    exact infix_append_right (renderAt_infix_renderItems h depth) _

/-- The text of a field's value stands in that of the first field's and the further fields. -/
theorem renderAt_infix_renderFields {field other : String × Value}
    {fields : List (String × Value)} (h : field ∈ other :: fields) (depth : Nat) :
    field.2.renderAt (depth + 1) <:+: other.2.renderAt (depth + 1) ++ renderFields depth fields := by
  induction fields generalizing other with
  | nil =>
    obtain rfl := List.mem_singleton.mp h
    exact (List.prefix_append _ _).isInfix
  | cons next fields ih =>
    rcases List.mem_cons.mp h with rfl | h
    · exact (List.prefix_append _ _).isInfix
    · rw [renderFields]
      exact infix_append_right (infix_append_right (infix_append_right (ih h) _) _) _

/-- The text of a field's value stands in the text of its record. -/
theorem renderAt_infix_record {field : String × Value} {fields : List (String × Value)}
    (h : field ∈ fields) (depth : Nat) :
    field.2.renderAt (depth + 1) <:+: (Value.record fields).renderAt depth := by
  cases fields with
  | nil => cases h
  | cons other fields =>
    rw [Value.renderAt]
    exact infix_append_right (infix_append_right (renderAt_infix_renderFields h depth) _) _

end FormsAudit.Json
