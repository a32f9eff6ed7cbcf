import FormsAudit.Proofs.Text.SplitOn
import FormsAudit.Proofs.Unicode.Blank
import FormsAudit.Text.Lists

/-!
# Lists read back from a text

`Lists parts entries` says how a list may be written, part by part between the commas: an entry
with blanks around it, or blanks alone.  A text is split into just the entries that some parts of it
list (`splitList_eq_iff_lists`), so no entry is lost, made up, cut or moved, and what is written from
a list that has been split is the same list when it is split again.
-/

namespace FormsAudit

open Unicode

/-- What can be an entry: a text that is not empty, without commas, without blanks at its ends. -/
structure IsEntry (entry : String) : Prop where
  ne_nil : entry.toList ≠ []
  comma_notMem : ',' ∉ entry.toList
  trimmed : IsTrimmed entry.toList

/-- The parts between commas are the entries in their order, each with blanks around it, and blanks
alone before, between and after them. -/
inductive Lists : List (List Char) → List String → Prop
  | nil : Lists [] []
  | blank {part : List Char} {parts : List (List Char)} {entries : List String} :
      (∀ c ∈ part, isBlank c = true) → Lists parts entries → Lists (part :: parts) entries
  | entry {before after : List Char} {entry : String} {parts : List (List Char)}
      {entries : List String} :
      (∀ c ∈ before, isBlank c = true) → (∀ c ∈ after, isBlank c = true) → Lists parts entries →
      Lists ((before ++ entry.toList ++ after) :: parts) (entry :: entries)

/-- The entries among the parts between commas. -/
def entriesOf (parts : List (List Char)) : List String :=
  ((parts.map trim).filter (· ≠ [])).map String.ofList

theorem splitList_eq (text : String) : splitList text = entriesOf (text.toList.splitOn ',') := rfl

theorem entriesOf_cons (part : List Char) (parts : List (List Char)) :
    entriesOf (part :: parts) =
      if trim part = [] then entriesOf parts
      else String.ofList (trim part) :: entriesOf parts := by
  by_cases hpart : trim part = [] <;> simp [entriesOf, hpart]

/-- Whatever the parts are, they list their entries. -/
theorem lists_entriesOf (parts : List (List Char)) : Lists parts (entriesOf parts) := by
  induction parts with
  | nil => exact .nil
  | cons part parts ih =>
    rw [entriesOf_cons]
    split
    · rename_i hpart
      exact .blank (trim_eq_nil_iff.mp hpart) ih
    · obtain ⟨before, after, hbefore, hafter, heq⟩ := exists_eq_append_trim part
      have hlists : Lists ((before ++ (String.ofList (trim part)).toList ++ after) :: parts) _ :=
        .entry hbefore hafter ih
      rwa [String.toList_ofList, ← heq] at hlists

/-- Parts list nothing but their entries. -/
theorem Lists.entriesOf_eq {parts : List (List Char)} {entries : List String}
    (h : Lists parts entries) (hentries : ∀ entry ∈ entries, IsEntry entry) :
    entriesOf parts = entries := by
  induction h with
  | nil => rfl
  | blank hpart _ ih => rw [entriesOf_cons, if_pos (trim_eq_nil_iff.mpr hpart), ih hentries]
  | @entry before after entry parts entries hbefore hafter _ ih =>
    obtain ⟨hentry, hothers⟩ := List.forall_mem_cons.mp hentries
    have htrim : trim (before ++ entry.toList ++ after) = entry.toList :=
      trim_append_append hbefore hafter hentry.trimmed
    rw [entriesOf_cons, htrim, if_neg hentry.ne_nil, String.ofList_toList, ih hothers]

theorem comma_notMem_of_forall_isBlank {text : List Char} (h : ∀ c ∈ text, isBlank c = true) :
    ',' ∉ text := by
  have hcomma : isBlank ',' = false := by decide
  intro hmem
  rw [h ',' hmem] at hcomma
  cases hcomma

/-- No part of a list holds a comma. -/
theorem Lists.comma_notMem {parts : List (List Char)} {entries : List String}
    (h : Lists parts entries) (hentries : ∀ entry ∈ entries, IsEntry entry) :
    ∀ part ∈ parts, ',' ∉ part := by
  induction h with
  | nil => simp
  | blank hpart _ ih =>
    exact List.forall_mem_cons.mpr ⟨comma_notMem_of_forall_isBlank hpart, ih hentries⟩
  | entry hbefore hafter _ ih =>
    obtain ⟨hentry, hothers⟩ := List.forall_mem_cons.mp hentries
    refine List.forall_mem_cons.mpr ⟨?_, ih hothers⟩
    simp only [List.mem_append, not_or]
    exact ⟨⟨comma_notMem_of_forall_isBlank hbefore, hentry.comma_notMem⟩,
      comma_notMem_of_forall_isBlank hafter⟩

theorem isEntry_of_mem_splitList {text entry : String} (h : entry ∈ splitList text) :
    IsEntry entry := by
  rw [splitList_eq, entriesOf] at h
  obtain ⟨trimmed, htrimmed, rfl⟩ := List.mem_map.mp h
  obtain ⟨hmem, hne⟩ := List.mem_filter.mp htrimmed
  obtain ⟨part, hpart, rfl⟩ := List.mem_map.mp hmem
  constructor
  · simpa using hne
  · rw [String.toList_ofList]
    exact fun hcomma => notMem_of_mem_splitOn hpart (mem_of_mem_trim hcomma)
  · rw [String.toList_ofList]
    exact isTrimmed_trim part

/-- A text is split at the commas that join its parts. -/
theorem entriesOf_splitOn_intercalate {parts : List (List Char)}
    (h : ∀ part ∈ parts, ',' ∉ part) :
    entriesOf (([','].intercalate parts).splitOn ',') = entriesOf parts := by
  by_cases hparts : parts = []
  · subst hparts
    rfl
  · rw [List.splitOn_intercalate ',' h hparts]

/-- The entries of a text are those that parts of it list. -/
theorem splitList_eq_iff_lists {text : String} {entries : List String} :
    splitList text = entries ↔
      (∀ entry ∈ entries, IsEntry entry) ∧
        ∃ parts, text.toList = [','].intercalate parts ∧ Lists parts entries := by
  constructor
  · rintro rfl
    refine ⟨fun entry => isEntry_of_mem_splitList, text.toList.splitOn ',', ?_, ?_⟩
    · exact (List.intercalate_splitOn ',').symm
    · exact lists_entriesOf _
  · rintro ⟨hentries, parts, htext, hlists⟩
    calc splitList text
      _ = entriesOf (([','].intercalate parts).splitOn ',') := by rw [splitList_eq, htext]
      _ = entriesOf parts := entriesOf_splitOn_intercalate (hlists.comma_notMem hentries)
      _ = entries := hlists.entriesOf_eq hentries

/-- Entries are listed by themselves. -/
theorem lists_toList (entries : List String) : Lists (entries.map String.toList) entries := by
  induction entries with
  | nil => exact .nil
  | cons entry entries ih =>
    have hlists : Lists (([] ++ entry.toList ++ []) :: entries.map String.toList) _ :=
      .entry (by simp) (by simp) ih
    rwa [List.nil_append, List.append_nil] at hlists

/-- **Splitting undoes writing.**  A text is split into `entries` just if these can be entries and
the text lists them: its parts between commas are the entries in order, with any blanks around each,
and any blanks alone.  And what has been split is split into the same when it is joined by commas. -/
theorem splitList_retracts (text : String) (entries : List String) :
    (splitList text = entries ↔
      (∀ entry ∈ entries, IsEntry entry) ∧
        ∃ parts, text.toList = [','].intercalate parts ∧ Lists parts entries) ∧
    splitList (",".intercalate (splitList text)) = splitList text := by
  refine ⟨splitList_eq_iff_lists, splitList_eq_iff_lists.mpr ⟨?_, ?_⟩⟩
  · exact fun entry => isEntry_of_mem_splitList
  · exact ⟨_, String.toList_intercalate, lists_toList _⟩

example : splitList " a,,b\u00A0c\u3000, \t," = ["a", "b\u00A0c"] := by decide +kernel

end FormsAudit
