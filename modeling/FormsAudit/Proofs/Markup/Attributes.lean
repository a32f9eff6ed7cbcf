import FormsAudit.Markup.Attribute
import Mathlib.Data.List.Basic
import Mathlib.Data.List.TakeWhile

/-!
# Where the values of a tag lie

The attributes of a tag and its quoted stretches are found by two readers.  They agree where no name
contains a quote: then the values of the attributes are the first of the quoted stretches, one by
one (`isPrefix_quotedValues`).  They agree nowhere else.  A quote in a name opens a stretch that is
no value, and from there on the stretches are not those of the attributes (`unquotedUpTo_iff`).

Whatever either reader reports lies inside of the tag.
-/

namespace FormsAudit.Markup

/-- Whether the byte is one of the two quotes. -/
def isQuote (byte : UInt8) : Bool :=
  byte = 0x22 || byte = 0x27

/-- The stretch that is the value of an attribute. -/
def Attribute.quoted (item : Attribute) : QuotedValue :=
  ⟨item.start, item.value⟩

/-! ## Stretches lie inside of the tag -/

/-- A stretch that is found behind the bytes `seen` stands where it says. -/
theorem exists_of_mem_quotedValuesFrom {seen bytes : List UInt8} {value : QuotedValue}
    {quote : Option (UInt8 × Nat × List UInt8)}
    (hquote : ∀ mark start collected, quote = some (mark, start, collected) →
      ∃ before, seen = before ++ collected.reverse ∧ before.length = start)
    (h : value ∈ quotedValuesFrom quote seen.length bytes) :
    ∃ before mark after, seen ++ bytes = before ++ (value.content ++ mark :: after) ∧
      before.length = value.start := by
  induction bytes generalizing seen quote with
  | nil => cases h
  | cons byte rest ih =>
    have hmoved : seen ++ byte :: rest = (seen ++ [byte]) ++ rest := by simp
    have hlength : seen.length + 1 = (seen ++ [byte]).length := by simp
    unfold quotedValuesFrom at h
    rw [hlength] at h
    cases quote with
    | none =>
      dsimp only at h
      rw [hmoved]
      split at h
      · refine ih ?_ h
        rintro _ _ _ ⟨⟩
        exact ⟨seen ++ [byte], by simp, rfl⟩
      · exact ih (by simp) h
    | some quote =>
      obtain ⟨mark, start, collected⟩ := quote
      obtain ⟨before, hseen, hstart⟩ := hquote mark start collected rfl
      dsimp only at h
      split at h
      · rcases List.mem_cons.mp h with rfl | h
        · exact ⟨before, byte, rest, by simp [hseen], hstart⟩
        · rw [hmoved]
          exact ih (by simp) h
      · rw [hmoved]
        refine ih ?_ h
        rintro _ _ _ ⟨⟩
        exact ⟨before, by simp [hseen], hstart⟩

theorem exists_of_mem_quotedValues {content : List UInt8} {value : QuotedValue}
    (h : value ∈ quotedValues content) :
    ∃ before mark after, content = before ++ (value.content ++ mark :: after) ∧
      before.length = value.start := by
  have hfrom : value ∈ quotedValuesFrom none ([] : List UInt8).length content := h
  exact exists_of_mem_quotedValuesFrom (by simp) hfrom

theorem quotedValues_le {content : List UInt8} {value : QuotedValue}
    (h : value ∈ quotedValues content) :
    value.start + value.content.length < content.length := by
  obtain ⟨before, mark, after, rfl, hstart⟩ := exists_of_mem_quotedValues h
  simp only [List.length_append, List.length_cons]
  omega

theorem lessThanInValue?_le {content : List UInt8} {index : Nat}
    (h : lessThanInValue? (quotedValues content) = some index) : index ≤ content.length := by
  obtain ⟨value, hvalue, hindex⟩ := List.exists_of_findSome?_eq_some h
  have hle := quotedValues_le hvalue
  obtain ⟨found, hfound, rfl⟩ := Option.map_eq_some_iff.mp hindex
  have hlt : found < value.content.length := List.findIdx?_eq_some_iff_findIdx_eq.mp hfound |>.1
  omega

/-! ## Faults lie inside of the tag -/

/-- The key that is being read began before the offset. -/
def AttributeMode.StartsBy (offset : Nat) : AttributeMode → Prop
  | .key start _ | .afterKey start _ => start ≤ offset
  | _ => True

/-- What a step says of places is no later than its byte. -/
theorem step_startsBy {mode : AttributeMode} {offset : Nat} (hmode : mode.StartsBy offset)
    (byte : UInt8) :
    match mode.step offset byte with
    | .go next => next.StartsBy (offset + 1)
    | .keyed start _ => start ≤ offset
    | .found _ => True
    | .fault fault => fault.position ≤ offset := by
  cases mode <;> simp only [AttributeMode.step] <;> split_ifs <;>
    simp_all [AttributeMode.StartsBy, AttributeFault.position] <;> omega

theorem attributesFrom_position_le {unique : Bool} {bytes : List UInt8} {offset : Nat}
    {seen : List (List UInt8 × Nat)} {mode : AttributeMode} {fault : AttributeFault}
    (hmode : mode.StartsBy offset)
    (h : (attributesFrom unique seen mode offset bytes).2 = some fault) :
    fault.position ≤ offset + bytes.length := by
  induction bytes generalizing offset seen mode with
  | nil =>
    unfold attributesFrom at h
    cases mode <;> simp only [AttributeMode.finish, Option.some.injEq, reduceCtorEq] at h <;>
      subst h <;> exact le_rfl
  | cons byte rest ih =>
    rw [List.length_cons, ← Nat.add_assoc, Nat.add_right_comm]
    have hstep := step_startsBy hmode byte
    unfold attributesFrom at h
    cases hresult : mode.step offset byte with
    | go next =>
      simp only [hresult] at h hstep
      exact ih hstep h
    | keyed start key =>
      simp only [hresult] at h hstep
      split at h
      · obtain rfl := Option.some.inj h
        exact hstep.trans (by omega)
      · have hnext : (AttributeMode.beforeValue key).StartsBy (offset + 1) := trivial
        exact ih hnext h
    | found item =>
      simp only [hresult] at h
      have hnext : AttributeMode.between.StartsBy (offset + 1) := trivial
      exact ih hnext h
    | fault found =>
      simp only [hresult] at h hstep
      obtain rfl := Option.some.inj h
      omega

theorem attributes_position_le {content : List UInt8} {fault : AttributeFault}
    (h : (attributes content).2 = some fault) : fault.position ≤ content.length := by
  have hmode : AttributeMode.between.StartsBy (tagName content).length := trivial
  have hle := attributesFrom_position_le hmode h
  have hname : (tagName content).length ≤ content.length := (List.takeWhile_prefix _).length_le
  rw [List.length_drop] at hle
  omega

/-! ## Attributes and stretches -/

/-- The part of a key that has been read, or all of it once it is complete. -/
def AttributeMode.pendingKey : AttributeMode → List UInt8
  | .between => []
  | .key _ collected => collected.reverse
  | .afterKey _ name | .beforeValue name | .value name _ _ _ => name

theorem step_pendingKey (mode : AttributeMode) (offset : Nat) (byte : UInt8) :
    match mode.step offset byte with
    | .go next => mode.pendingKey <+: next.pendingKey
    | .keyed _ key => mode.pendingKey <+: key
    | .found item => mode.pendingKey <+: item.key
    | .fault _ => True := by
  cases mode <;> simp only [AttributeMode.step] <;> split_ifs <;>
    simp [AttributeMode.pendingKey]

/-- The next attribute has the key that is being read. -/
theorem pendingKey_isPrefix {unique : Bool} {bytes : List UInt8} {offset : Nat}
    {seen : List (List UInt8 × Nat)} {mode : AttributeMode} {item : Attribute}
    (h : (attributesFrom unique seen mode offset bytes).1.head? = some item) :
    mode.pendingKey <+: item.key := by
  induction bytes generalizing offset seen mode with
  | nil => cases h
  | cons byte rest ih =>
    have hstep := step_pendingKey mode offset byte
    unfold attributesFrom at h
    cases hresult : mode.step offset byte with
    | go next =>
      simp only [hresult] at h hstep
      exact hstep.trans (ih h)
    | keyed start key =>
      simp only [hresult] at h hstep
      split at h
      · cases h
      · exact hstep.trans (ih h)
    | found found =>
      simp only [hresult] at h hstep
      obtain rfl := Option.some.inj h
      exact hstep
    | fault fault =>
      simp only [hresult] at h
      cases h

/-- The quotes that the reader of stretches is inside of, where the reader of attributes is in the
mode. -/
def AttributeMode.openQuote : AttributeMode → Option (UInt8 × Nat × List UInt8)
  | .value _ quote start collected => some (quote, start, collected)
  | _ => none

theorem quotedValuesFrom_of_not_isQuote {byte : UInt8} (h : isQuote byte = false) (offset : Nat)
    (rest : List UInt8) :
    quotedValuesFrom none offset (byte :: rest) = quotedValuesFrom none (offset + 1) rest := by
  have hquote : ¬ (byte = 0x22 ∨ byte = 0x27) := by simpa [isQuote] using h
  rw [quotedValuesFrom]
  exact if_neg hquote

theorem isQuote_of_isSpace {byte : UInt8} (h : isSpace byte = true) : isQuote byte = false := by
  simp only [isSpace, Bool.or_eq_true, decide_eq_true_eq] at h
  rcases h with ((rfl | rfl) | rfl) | rfl <;> rfl

/-- A byte means the same to both readers, unless it is a quote in a key. -/
theorem step_openQuote (mode : AttributeMode) (offset : Nat) (byte : UInt8) (rest : List UInt8) :
    match mode.step offset byte with
    | .go next => (∀ other ∈ next.pendingKey, isQuote other = false) →
        quotedValuesFrom mode.openQuote offset (byte :: rest) =
          quotedValuesFrom next.openQuote (offset + 1) rest
    | .keyed _ _ => quotedValuesFrom mode.openQuote offset (byte :: rest) =
        quotedValuesFrom none (offset + 1) rest
    | .found item => quotedValuesFrom mode.openQuote offset (byte :: rest) =
        item.quoted :: quotedValuesFrom none (offset + 1) rest
    | .fault _ => True := by
  have hequals : isQuote 0x3D = false := rfl
  cases mode with
  | between =>
    simp only [AttributeMode.step]
    split_ifs with hspace
    · exact fun _ => quotedValuesFrom_of_not_isQuote (isQuote_of_isSpace hspace) offset rest
    · exact fun hkey => quotedValuesFrom_of_not_isQuote (hkey byte (by
        simp [AttributeMode.pendingKey])) offset rest
  | key start collected =>
    simp only [AttributeMode.step]
    split_ifs with hequal hspace
    · exact quotedValuesFrom_of_not_isQuote (hequal ▸ hequals) offset rest
    · exact fun _ => quotedValuesFrom_of_not_isQuote (isQuote_of_isSpace hspace) offset rest
    · exact fun hkey => quotedValuesFrom_of_not_isQuote (hkey byte (by
        simp [AttributeMode.pendingKey])) offset rest
  | afterKey start name =>
    simp only [AttributeMode.step]
    split_ifs with hequal hspace
    · exact quotedValuesFrom_of_not_isQuote (hequal ▸ hequals) offset rest
    · exact fun _ => quotedValuesFrom_of_not_isQuote (isQuote_of_isSpace hspace) offset rest
    · trivial
  | beforeValue name =>
    simp only [AttributeMode.step]
    split_ifs with hquote hspace
    · intro _
      simp [AttributeMode.openQuote, quotedValuesFrom, hquote]
    · exact fun _ => quotedValuesFrom_of_not_isQuote (isQuote_of_isSpace hspace) offset rest
    · trivial
  | value name quote start collected =>
    simp only [AttributeMode.step]
    split_ifs with hquote
    · simp [AttributeMode.openQuote, quotedValuesFrom, hquote, Attribute.quoted]
    · intro _
      simp [AttributeMode.openQuote, quotedValuesFrom, hquote]

/-- The values of the first attributes are quoted stretches, as long as the keys up to there have no
quotes. -/
theorem isPrefix_quotedValuesFrom {unique : Bool} {bytes : List UInt8} {offset : Nat}
    {seen : List (List UInt8 × Nat)} {mode : AttributeMode} {items : List Attribute}
    (hitems : items <+: (attributesFrom unique seen mode offset bytes).1)
    (h : ∀ item ∈ items, ∀ byte ∈ item.key, isQuote byte = false) :
    items.map Attribute.quoted <+: quotedValuesFrom mode.openQuote offset bytes := by
  induction bytes generalizing offset seen mode items with
  | nil =>
    obtain rfl := List.prefix_nil.mp hitems
    exact List.nil_prefix
  | cons byte rest ih =>
    have hstep := step_openQuote mode offset byte rest
    unfold attributesFrom at hitems
    cases hresult : mode.step offset byte with
    | go next =>
      simp only [hresult] at hitems hstep
      cases items with
      | nil => exact List.nil_prefix
      | cons item items =>
        -- the key that is being read is that of an attribute, so it has no quote
        have hhead : (attributesFrom unique seen next (offset + 1) rest).1.head? = some item := by
          obtain ⟨others, hothers⟩ := hitems
          rw [← hothers]
          rfl
        have hkey : next.pendingKey <+: item.key := pendingKey_isPrefix hhead
        rw [hstep fun other hother =>
          h item List.mem_cons_self other (hkey.subset hother)]
        exact ih hitems h
    | keyed start key =>
      simp only [hresult] at hitems hstep
      rw [hstep]
      split at hitems
      · obtain rfl := List.prefix_nil.mp hitems
        exact List.nil_prefix
      · exact ih hitems h
    | found item =>
      simp only [hresult] at hitems hstep
      rw [hstep]
      cases items with
      | nil => exact List.nil_prefix
      | cons other items =>
        obtain ⟨rfl, hrest⟩ := List.cons_prefix_cons.mp hitems
        rw [List.map_cons, List.cons_prefix_cons]
        refine ⟨rfl, ih hrest ?_⟩
        intro another hanother
        exact h another (List.mem_cons_of_mem other hanother)
    | fault fault =>
      simp only [hresult] at hitems
      obtain rfl := List.prefix_nil.mp hitems
      exact List.nil_prefix

theorem quotedValuesFrom_append {name : List UInt8} (h : ∀ byte ∈ name, isQuote byte = false)
    (offset : Nat) (rest : List UInt8) :
    quotedValuesFrom none offset (name ++ rest) =
      quotedValuesFrom none (offset + name.length) rest := by
  induction name generalizing offset with
  | nil => rfl
  | cons byte name ih =>
    rw [List.cons_append, quotedValuesFrom_of_not_isQuote (h byte List.mem_cons_self),
      ih fun other hother => h other (List.mem_cons_of_mem byte hother), List.length_cons,
      Nat.add_assoc, Nat.add_comm 1]

/-- Neither the name of the tag nor the keys of these attributes have a quote in them. -/
def UnquotedUpTo (content : List UInt8) (items : List Attribute) : Prop :=
  (∀ byte ∈ tagName content, isQuote byte = false) ∧
    ∀ item ∈ items, ∀ byte ∈ item.key, isQuote byte = false

instance (content : List UInt8) : DecidablePred (UnquotedUpTo content) :=
  fun _ => inferInstanceAs (Decidable (_ ∧ _))

/-- No name of the tag has a quote in it. -/
def Unquoted (content : List UInt8) : Prop :=
  (∀ byte ∈ tagName content, isQuote byte = false) ∧
    ∀ item ∈ (attributes content).1, ∀ byte ∈ item.key, isQuote byte = false

instance : DecidablePred Unquoted := fun _ => inferInstanceAs (Decidable (_ ∧ _))

/-- No name of the token has a quote in it, if it is a tag. -/
def Token.HasUnquotedNames (token : Token) : Prop :=
  match token.event with
  | .startTag content | .emptyTag content => Unquoted content
  | _ => True

instance : DecidablePred Token.HasUnquotedNames
  | ⟨_, _, .startTag content⟩ | ⟨_, _, .emptyTag content⟩ =>
    inferInstanceAs (Decidable (Unquoted content))
  | ⟨_, _, .declaration _⟩ | ⟨_, _, .doctype _⟩ | ⟨_, _, .endTag _⟩ | ⟨_, _, .text _⟩
  | ⟨_, _, .cdata _⟩ | ⟨_, _, .comment _⟩ | ⟨_, _, .instruction _⟩ => .isTrue trivial

/-- The values of the attributes up to one are the first quoted stretches of the tag, if no name up
to there has a quote in it. -/
theorem map_quoted_isPrefix {content : List UInt8} {items : List Attribute}
    (hitems : items <+: (attributes content).1) (h : UnquotedUpTo content items) :
    items.map Attribute.quoted <+: quotedValues content := by
  have hname : tagName content ++ content.drop (tagName content).length = content :=
    List.prefix_iff_eq_append.mp (List.takeWhile_prefix _)
  have hvalues : quotedValues content =
      quotedValuesFrom none (tagName content).length
        (content.drop (tagName content).length) := by
    rw [← Nat.zero_add (tagName content).length, ← quotedValuesFrom_append h.1, Nat.zero_add, hname]
    rfl
  rw [hvalues]
  exact isPrefix_quotedValuesFrom hitems h.2

/-- **The values of the attributes are the first quoted stretches of the tag.** -/
theorem isPrefix_quotedValues {content : List UInt8} (h : Unquoted content) :
    (attributes content).1.map Attribute.quoted <+: quotedValues content :=
  map_quoted_isPrefix List.prefix_rfl h

/-! ## Where the two readers part -/

/-- A value does not start before it is begun. -/
theorem step_startsAfter {mode : AttributeMode} {offset least : Nat} (hle : least ≤ offset)
    (hmode : ∀ quote start collected, mode.openQuote = some (quote, start, collected) →
      least < start) (byte : UInt8) :
    match mode.step offset byte with
    | .go next => ∀ quote start collected, next.openQuote = some (quote, start, collected) →
        least < start
    | .found item => least < item.start
    | _ => True := by
  cases mode <;> simp only [AttributeMode.step] <;> split_ifs <;>
    simp_all [AttributeMode.openQuote]
  all_goals omega

theorem lt_start_of_mem {unique : Bool} {bytes : List UInt8} {offset least : Nat}
    {seen : List (List UInt8 × Nat)} {mode : AttributeMode} {item : Attribute} (hle : least ≤ offset)
    (hmode : ∀ quote start collected, mode.openQuote = some (quote, start, collected) →
      least < start)
    (h : item ∈ (attributesFrom unique seen mode offset bytes).1) : least < item.start := by
  induction bytes generalizing offset seen mode with
  | nil => cases h
  | cons byte rest ih =>
    have hstep := step_startsAfter hle hmode byte
    unfold attributesFrom at h
    cases hresult : mode.step offset byte with
    | go next =>
      simp only [hresult] at h hstep
      exact ih (hle.trans (Nat.le_succ _)) hstep h
    | keyed start key =>
      simp only [hresult] at h
      split at h
      · cases h
      · exact ih (hle.trans (Nat.le_succ _)) (by simp [AttributeMode.openQuote]) h
    | found other =>
      simp only [hresult] at h hstep
      rcases List.mem_cons.mp h with rfl | h
      · exact hstep
      · exact ih (hle.trans (Nat.le_succ _)) (by simp [AttributeMode.openQuote]) h
    | fault fault =>
      simp only [hresult] at h
      cases h

theorem start_of_head_quotedValuesFrom {mark : UInt8} {start offset : Nat}
    {collected bytes : List UInt8} {value : QuotedValue}
    (h : (quotedValuesFrom (some (mark, start, collected)) offset bytes).head? = some value) :
    value.start = start := by
  induction bytes generalizing offset collected with
  | nil => cases h
  | cons byte rest ih =>
    rw [quotedValuesFrom] at h
    split at h
    · obtain rfl := Option.some.inj h
      rfl
    · exact ih h

/-- A stretch that a quote opens is not the value of an attribute that begins later. -/
theorem not_isPrefix_of_isQuote {byte : UInt8} (hbyte : isQuote byte = true) {offset : Nat}
    {rest : List UInt8} {items : List Attribute} (hne : items ≠ [])
    (hlater : ∀ item ∈ items, offset + 1 < item.start) :
    ¬ items.map Attribute.quoted <+: quotedValuesFrom none offset (byte :: rest) := by
  intro hpre
  obtain ⟨item, others, rfl⟩ := List.exists_cons_of_ne_nil hne
  obtain ⟨values, hvalues⟩ := hpre
  have hquote : byte = 0x22 ∨ byte = 0x27 := by simpa [isQuote] using hbyte
  rw [quotedValuesFrom, if_pos hquote] at hvalues
  have hstart : item.quoted.start = offset + 1 :=
    start_of_head_quotedValuesFrom (by rw [← hvalues]; rfl)
  exact absurd (hlater item List.mem_cons_self) (by rw [← hstart]; exact Nat.lt_irrefl _)

theorem not_isPrefix_of_quoted {name : List UInt8} (hname : ∃ byte ∈ name, isQuote byte = true)
    {offset : Nat} {rest : List UInt8} {items : List Attribute} (hne : items ≠ [])
    (hlater : ∀ item ∈ items, offset + name.length < item.start) :
    ¬ items.map Attribute.quoted <+: quotedValuesFrom none offset (name ++ rest) := by
  induction name generalizing offset with
  | nil => simp at hname
  | cons byte name ih =>
    simp only [List.length_cons] at hlater
    rw [List.cons_append]
    by_cases hbyte : isQuote byte = true
    · refine not_isPrefix_of_isQuote hbyte hne fun item hitem => ?_
      exact lt_of_le_of_lt (by omega) (hlater item hitem)
    · rw [quotedValuesFrom_of_not_isQuote (Bool.eq_false_iff.mpr hbyte)]
      refine ih (by simpa [hbyte] using hname) fun item hitem => ?_
      exact lt_of_le_of_lt (by omega) (hlater item hitem)

/-- A key that has no quote gets one only by a byte that is a quote, outside of a value. -/
theorem step_isQuote {mode : AttributeMode}
    (hmode : ∀ other ∈ mode.pendingKey, isQuote other = false) (offset : Nat) (byte : UInt8) :
    match mode.step offset byte with
    | .go next => (∀ other ∈ next.pendingKey, isQuote other = false) ∨
        isQuote byte = true ∧ mode.openQuote = none ∧ next.openQuote = none
    | .keyed _ key => key = mode.pendingKey
    | .found item => item.key = mode.pendingKey
    | .fault _ => True := by
  cases mode <;> simp only [AttributeMode.step] <;> split_ifs <;> cases hbyte : isQuote byte <;>
    simp_all [AttributeMode.pendingKey, AttributeMode.openQuote, or_imp]

/-- Where the values of the first attributes are quoted stretches, the keys up to there have no
quotes. -/
theorem unquoted_of_isPrefix {unique : Bool} {bytes : List UInt8} {offset : Nat}
    {seen : List (List UInt8 × Nat)} {mode : AttributeMode} {items : List Attribute}
    (hmode : ∀ byte ∈ mode.pendingKey, isQuote byte = false)
    (hitems : items <+: (attributesFrom unique seen mode offset bytes).1)
    (h : items.map Attribute.quoted <+: quotedValuesFrom mode.openQuote offset bytes) :
    ∀ item ∈ items, ∀ byte ∈ item.key, isQuote byte = false := by
  induction bytes generalizing offset seen mode items with
  | nil =>
    obtain rfl := List.prefix_nil.mp hitems
    simp
  | cons byte rest ih =>
    rcases eq_or_ne items [] with rfl | hne
    · simp
    have hvalues := step_openQuote mode offset byte rest
    have hkey := step_isQuote hmode offset byte
    unfold attributesFrom at hitems
    cases hresult : mode.step offset byte with
    | go next =>
      simp only [hresult] at hitems hvalues hkey
      rcases hkey with hnext | ⟨hquote, houtside, hnext⟩
      · exact ih hnext hitems (hvalues hnext ▸ h)
      · -- the quote opens a stretch before any value of these attributes
        rw [houtside] at h
        refine absurd h (not_isPrefix_of_isQuote hquote hne fun item hitem => ?_)
        exact lt_start_of_mem le_rfl (by simp [hnext]) (hitems.subset hitem)
    | keyed start key =>
      simp only [hresult] at hitems hvalues hkey
      split at hitems
      · exact absurd (List.prefix_nil.mp hitems) hne
      · have hnext : ∀ byte ∈ (AttributeMode.beforeValue key).pendingKey, isQuote byte = false :=
          hkey ▸ hmode
        exact ih hnext hitems (hvalues ▸ h)
    | found item =>
      simp only [hresult] at hitems hvalues hkey
      rw [hvalues] at h
      obtain ⟨first, others, rfl⟩ := List.exists_cons_of_ne_nil hne
      obtain ⟨rfl, hothers⟩ := List.cons_prefix_cons.mp hitems
      rw [List.map_cons, List.cons_prefix_cons] at h
      have hbetween : ∀ byte ∈ AttributeMode.between.pendingKey, isQuote byte = false := by
        simp [AttributeMode.pendingKey]
      have hrest := ih hbetween hothers h.2
      exact List.forall_mem_cons.mpr ⟨hkey ▸ hmode, hrest⟩
    | fault fault =>
      simp only [hresult] at hitems
      exact absurd (List.prefix_nil.mp hitems) hne

/-- **The values of the attributes up to one are the first quoted stretches of the tag exactly when
no name up to there has a quote in it.** -/
theorem unquotedUpTo_iff {content : List UInt8} {items : List Attribute} (hne : items ≠ [])
    (hitems : items <+: (attributes content).1) :
    UnquotedUpTo content items ↔ items.map Attribute.quoted <+: quotedValues content := by
  have hvalues : quotedValues content = quotedValuesFrom none 0
      (tagName content ++ content.drop (tagName content).length) :=
    congrArg (quotedValuesFrom none 0)
      (List.prefix_iff_eq_append.mp (List.takeWhile_prefix _)).symm
  refine ⟨map_quoted_isPrefix hitems, fun h => ?_⟩
  rw [hvalues] at h
  have hname : ∀ byte ∈ tagName content, isQuote byte = false := by
    by_contra hquoted
    simp only [not_forall, Bool.not_eq_false, exists_prop] at hquoted
    refine not_isPrefix_of_quoted hquoted hne (fun item hitem => ?_) h
    rw [Nat.zero_add]
    exact lt_start_of_mem le_rfl (by simp [AttributeMode.openQuote]) (hitems.subset hitem)
  refine ⟨hname, ?_⟩
  rw [quotedValuesFrom_append hname, Nat.zero_add] at h
  have hbetween : ∀ byte ∈ AttributeMode.between.pendingKey, isQuote byte = false := by
    simp [AttributeMode.pendingKey]
  exact unquoted_of_isPrefix hbetween hitems h

end FormsAudit.Markup
