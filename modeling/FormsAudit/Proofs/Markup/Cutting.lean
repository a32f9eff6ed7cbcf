import FormsAudit.Proofs.Markup.Opening
import FormsAudit.Proofs.Markup.Spelling

/-!
# Ways to cut bytes into reads

The lexer is fed byte by byte, but two others look at a read as such: the signature of an encoding
is searched for in the first, and the starts of lines are noted read by read, so that an offset is
located by the lines of the reads that have come in when it is asked for.

* A first read that holds four bytes, or all of them, says about the encoding what all bytes say
  (`Source.signature_eq`).
* The lines noted so far locate what has been read as all lines do in the end
  (`locate_of_isPrefix`).
* A mark of UTF-8 is left out of the lines when it is left out of the content, and only then
  (`mark_foldl_read`).

What has been read is told by how many bytes of the content have been taken (`Tracks`).  The lexer
rejects bytes at an offset that it has taken (`rejected_le_taken`).
-/

namespace FormsAudit.Markup

/-- The source hands out `bytes`, in reads that are not empty, and does not fail. -/
structure Source.Yields (source : Source) (bytes : List UInt8) : Prop where
  reads : ∀ read ∈ source.reads, read ≠ []
  bytes : source.bytes = bytes
  failure : source.failure = none

/-- The first read holds the first four bytes, or all where there are fewer. -/
def Source.OpensWide (source : Source) : Prop :=
  min 4 source.bytes.length ≤ source.firstRead.length

instance (source : Source) : Decidable source.OpensWide :=
  inferInstanceAs (Decidable (min 4 source.bytes.length ≤ source.firstRead.length))

variable {source other : Source}

/-! ## The first read -/

theorem firstRead_isPrefix (source : Source) : source.firstRead <+: source.bytes := by
  unfold Source.firstRead Source.bytes
  cases source.reads with
  | nil => exact List.prefix_rfl
  | cons first rest => exact List.prefix_append _ _

theorem length_lt_of_mem_briefs : ∀ bytes ∈ briefs, bytes.length < 4 := by
  decide

/-- A first read that is long enough is not a part of a signature, unless there is no more. -/
theorem Source.signature_eq (hopens : source.OpensWide) :
    source.signature = .ofFirstRead source.bytes := by
  obtain ⟨rest, hrest⟩ := firstRead_isPrefix source
  rw [Source.OpensWide, ← hrest, List.length_append] at hopens
  rw [Source.signature, ← hrest]
  rcases ofFirstRead_append source.firstRead rest with hsame | ⟨hbrief, -⟩
  · exact hsame.symm
  · have hshort := length_lt_of_mem_briefs _ hbrief
    have hnone : rest = [] := List.length_eq_zero_iff.mp (by omega)
    rw [hnone, List.append_nil]

section Bytes

variable {bytes : List UInt8} (hsource : source.Yields bytes) (hother : other.Yields bytes)
  (hopens : source.OpensWide) (hopens' : other.OpensWide)

include hsource hother hopens hopens'

theorem signature_eq_of_yields : other.signature = source.signature := by
  rw [Source.signature_eq hopens, Source.signature_eq hopens', hsource.bytes, hother.bytes]

theorem tokens_eq_of_yields : other.tokens = source.tokens := by
  have hcontent : other.content = source.content := by
    rw [Source.content, Source.content, signature_eq_of_yields hsource hother hopens hopens',
      hsource.bytes, hother.bytes]
  unfold Source.tokens
  rw [hcontent, hsource.failure, hother.failure]

theorem ofSource_eq_of_yields : LineIndex.ofSource other = LineIndex.ofSource source := by
  have hsignature := signature_eq_of_yields hsource hother hopens hopens'
  rw [LineIndex.ofSource_eq hsource.reads, LineIndex.ofSource_eq hother.reads,
    markLength_eq_of_signature hsignature, hsource.bytes, hother.bytes]

end Bytes

/-! ## Lines while the reads come in -/

/-- At the start of the content the first line and column are found before the first read. -/
theorem locate_zero (hreads : ∀ read ∈ source.reads, read ≠ []) (hmark : source.signature.mark ≠ 2) :
    (LineIndex.ofSource source).locate 0 = (1, 1) := by
  rw [LineIndex.locate_ofSource hreads hmark (Nat.zero_le _)]
  rfl

section Part

variable {reads : List (List UInt8)} (hpre : reads <+: source.reads)

include hpre

theorem reads_of_isPrefix (hreads : ∀ read ∈ source.reads, read ≠ []) :
    ∀ read ∈ (⟨reads, none⟩ : Source).reads, read ≠ [] :=
  fun read hread => hreads read (hpre.subset hread)

/-- What the first read is does not change any more. -/
theorem firstRead_of_isPrefix (hne : reads ≠ []) :
    (⟨reads, none⟩ : Source).firstRead = source.firstRead := by
  obtain ⟨later, hlater⟩ := hpre
  obtain ⟨first, others, rfl⟩ := List.exists_cons_of_ne_nil hne
  rw [Source.firstRead, Source.firstRead, ← hlater]
  rfl

theorem continued_of_isPrefix (hreads : ∀ read ∈ source.reads, read ≠ []) (hne : reads ≠ []) :
    ∃ rest, Continued ⟨reads, none⟩ source rest := by
  obtain ⟨later, hlater⟩ := hpre
  refine ⟨later.flatten, reads_of_isPrefix ⟨later, hlater⟩ hreads, hreads, ?_, ?_⟩
  · rw [Source.bytes, Source.bytes, ← hlater, List.flatten_append]
  · rw [Source.signature, Source.signature, firstRead_of_isPrefix ⟨later, hlater⟩ hne]

end Part

/-- **What has been read is located by the lines noted so far.** -/
theorem locate_of_isPrefix (hreads : ∀ read ∈ source.reads, read ≠ [])
    {reads : List (List UInt8)} (hpre : reads <+: source.reads) {offset : Nat}
    (hoffset : source.signature.mark + offset ≤ reads.flatten.length) :
    (reads.foldl LineIndex.read .empty).locate offset =
      (LineIndex.ofSource source).locate offset := by
  by_cases hne : reads = []
  · -- nothing has been read, so there is no mark and the offset is that of the start
    subst hne
    simp only [List.flatten_nil, List.length_nil, Nat.le_zero, Nat.add_eq_zero_iff] at hoffset
    obtain ⟨hmark, rfl⟩ := hoffset
    rw [locate_zero hreads (by omega)]
    rfl
  · obtain ⟨rest, hcontinued⟩ := continued_of_isPrefix hpre hreads hne
    have hinside : offset ≤ (⟨reads, none⟩ : Source).content.length := by
      rw [Source.content, ← hcontinued.signature, List.length_drop]
      change offset ≤ reads.flatten.length - source.signature.mark
      omega
    exact (hcontinued.locate hinside).symm

/-- The lines of a source at each count of its content's bytes: those of some first reads, at least
of those that hold the bytes counted. -/
def Tracks (source : Source) (lines : Nat → LineIndex) : Prop :=
  ∀ count, ∃ reads, reads <+: source.reads ∧
    min (source.signature.mark + count) source.bytes.length ≤ reads.flatten.length ∧
    lines count = reads.foldl LineIndex.read .empty

/-- All reads may come in before the first question. -/
theorem tracks_ofSource (source : Source) : Tracks source fun _ => .ofSource source :=
  fun _ => ⟨source.reads, List.prefix_rfl, Nat.min_le_right _ _, rfl⟩

/-- The first reads that hold `count` bytes, as few as can be. -/
def readsUpTo : Nat → List (List UInt8) → List (List UInt8)
  | 0, _ | _, [] => []
  | count + 1, read :: rest => read :: readsUpTo (count + 1 - read.length) rest

theorem readsUpTo_spec (count : Nat) (reads : List (List UInt8)) :
    readsUpTo count reads <+: reads ∧
      min count reads.flatten.length ≤ (readsUpTo count reads).flatten.length := by
  induction reads generalizing count with
  | nil => cases count <;> simp [readsUpTo]
  | cons read rest ih =>
    cases count with
    | zero => simp [readsUpTo]
    | succ count =>
      obtain ⟨hpre, hlength⟩ := ih (count + 1 - read.length)
      rw [readsUpTo, List.flatten_cons, List.flatten_cons, List.length_append, List.length_append]
      exact ⟨List.cons_prefix_cons.mpr ⟨rfl, hpre⟩, by omega⟩

/-- The lines where no read is made before it is needed. -/
def Source.promptLines (source : Source) (count : Nat) : LineIndex :=
  (readsUpTo (source.signature.mark + count) source.reads).foldl LineIndex.read .empty

theorem tracks_promptLines (source : Source) : Tracks source source.promptLines := by
  intro count
  obtain ⟨hpre, hlength⟩ := readsUpTo_spec (source.signature.mark + count) source.reads
  exact ⟨_, hpre, hlength, rfl⟩

/-- An offset that has been taken is located as in the end. -/
theorem Tracks.locate {lines : Nat → LineIndex} (h : Tracks source lines)
    (hreads : ∀ read ∈ source.reads, read ≠ []) {count offset : Nat} (hcount : offset ≤ count)
    (hoffset : offset ≤ source.content.length) :
    (lines count).locate offset = (LineIndex.ofSource source).locate offset := by
  obtain ⟨reads, hpre, hlength, hlines⟩ := h count
  have hmark := mark_le_length_bytes source
  rw [Source.content, List.length_drop] at hoffset
  rw [hlines]
  exact locate_of_isPrefix hreads hpre (by omega)

/-! ## The mark of UTF-8 -/

/-- The encodings of UTF-16 do not begin as the mark of UTF-8 does. -/
theorem mark_ne_two (hbytes : byteOrderMark <+: source.bytes) : source.signature.mark ≠ 2 := by
  have hfirst := firstRead_isPrefix source
  obtain ⟨rest, hrest⟩ := hbytes
  rw [← hrest] at hfirst
  unfold Source.signature
  cases hread : source.firstRead with
  | nil => decide
  | cons byte others =>
    rw [hread] at hfirst
    obtain ⟨rfl, -⟩ := List.cons_prefix_cons.mp hfirst
    unfold Signature.ofFirstRead
    split <;> simp_all

section Marked

variable (hreads : ∀ read ∈ source.reads, read ≠ []) (hbytes : byteOrderMark <+: source.bytes)
  {reads : List (List UInt8)} (hpre : reads <+: source.reads) (hne : reads ≠ [])

include hreads hbytes hpre hne

/-- **The lines leave out a mark of UTF-8 when the content does**, after the first read and ever
after. -/
theorem mark_foldl_read :
    (reads.foldl LineIndex.read .empty).mark = source.signature.mark :=
  calc (reads.foldl LineIndex.read .empty).mark
      = (LineIndex.ofSource ⟨reads, none⟩).mark := rfl
    _ = LineIndex.markLength source.firstRead := by
        rw [LineIndex.ofSource_eq (reads_of_isPrefix hpre hreads), firstRead_of_isPrefix hpre hne]
    _ = source.signature.mark := (LineIndex.mark_ofFirstRead (mark_ne_two hbytes)).symm

theorem locate_foldl_read_zero :
    (reads.foldl LineIndex.read .empty).locate 0 = (1, 1) := by
  obtain ⟨rest, hcontinued⟩ := continued_of_isPrefix hpre hreads hne
  apply locate_zero hcontinued.reads
  rw [← hcontinued.signature]
  exact mark_ne_two hbytes

end Marked

/-! ## What the lexer has taken -/

/-- The number of bytes that the lexer takes: up to the one that it rejects, or all. -/
def taken (lexer : Lexer) : List UInt8 → Nat
  | [] => 0
  | byte :: rest =>
    match lexer.step byte with
    | .collecting next | .token _ next => taken next rest + 1
    | .rejected .. => 1

theorem taken_eq_length {lexer final : Lexer} {bytes : List UInt8}
    (h : (lex lexer bytes).2 = .ready final) : taken lexer bytes = bytes.length := by
  induction bytes generalizing lexer with
  | nil => rfl
  | cons byte rest ih =>
    rw [lex] at h
    rw [taken, List.length_cons]
    cases hstep : lexer.step byte with
    | collecting next | token _ next =>
      rw [hstep] at h
      simp only [ih h]
    | rejected offset reason =>
      rw [hstep] at h
      cases h

theorem Lexed.rejected_le_taken {consumed bytes : List UInt8} {tokens : List Token} {lexer : Lexer}
    (h : Lexed consumed tokens lexer) {offset : Nat} {reason : Rejection}
    (hlex : (Markup.lex lexer bytes).2 = .rejected offset reason) :
    offset ≤ consumed.length + taken lexer bytes := by
  induction bytes generalizing consumed tokens lexer with
  | nil => cases hlex
  | cons byte rest ih =>
    rw [Markup.lex] at hlex
    rw [taken]
    cases hstep : lexer.step byte with
    | collecting next =>
      rw [hstep] at hlex
      have hle := ih (h.collecting hstep) hlex
      rw [List.length_append, List.length_singleton] at hle
      dsimp only
      omega
    | token token next =>
      rw [hstep] at hlex
      have hle := ih (h.token hstep) hlex
      rw [List.length_append, List.length_singleton] at hle
      dsimp only
      omega
    | rejected found why =>
      rw [hstep] at hlex
      cases hlex
      exact (h.rejected_between hstep).2.trans (Nat.le_add_right _ _)

/-- What is not a token is reported at an offset that has been taken. -/
theorem rejected_le_taken {offset : Nat} {reason : Rejection}
    (h : source.tokens.ending = .rejected offset reason) :
    offset ≤ taken .initial source.content := by
  cases hlex : (lex .initial source.content).2 with
  | ready lexer =>
    rw [taken_eq_length hlex]
    exact (rejected_between_of_source h).2
  | rejected found why =>
    rw [tokens_of_rejected hlex] at h
    cases h
    simpa using Lexed.initial.rejected_le_taken hlex

/-- Tokens that are complete end where the content does, and all of it has been taken. -/
theorem eq_length_of_complete {stop : Nat} (h : source.tokens.ending = .complete stop) :
    stop = source.content.length ∧ taken .initial source.content = source.content.length := by
  cases hlex : (lex .initial source.content).2 with
  | rejected found why =>
    rw [tokens_of_rejected hlex] at h
    cases h
  | ready lexer =>
    refine ⟨?_, taken_eq_length hlex⟩
    cases hfailure : source.failure with
    | some error =>
      rw [tokens_of_failure hfailure hlex] at h
      cases h
    | none =>
      rw [tokens_of_ready hfailure hlex] at h
      obtain ⟨consumed, final, hread, hend⟩ := Lexed.initial.lex source.content
      obtain ⟨hconsumed, rfl⟩ : consumed = source.content ∧ final = lexer := by
        rcases hend with ⟨hconsumed, hready⟩ | ⟨_, _, _, _, _, hrejected⟩
        · rw [hlex] at hready
          exact ⟨hconsumed, (Pause.ready.inj hready).symm⟩
        · rw [hlex] at hrejected
          cases hrejected
      have hstop : stop = final.offset := by
        revert h
        dsimp only
        unfold Lexer.finish
        split <;> simp +contextual [eq_comm]
      rw [hstop, hread.offset_eq, List.nil_append, hconsumed]

end FormsAudit.Markup
