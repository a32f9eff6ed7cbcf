import FormsAudit.Config.Basic
import Mathlib.Logic.Basic

/-!
# Merging and what is set

A setting of the upper layer is meant to count where it is not the standard one, and to leave the
lower layer as it is otherwise (`overlay`).  Merging has tests of its own.  For the number of threads
and the patterns these are the same; a list of extensions is asked whether it is empty, and the other
settings are asked nothing.  So the two part where a list is empty or a setting is the standard one
while the lower layer says something else (`merge_eq_overlay_iff`), and nowhere else.

A file is merged into the standard configuration.  There only an empty list of extensions is lost.
-/

namespace FormsAudit.Config

/-- The configuration that holds when nothing else is said. -/
def standard : Config := {}

/-- The configuration under another one, whose settings count where they are not the standard
ones. -/
def overlay (base upper : Config) : Config where
  xmlExtensions :=
    if upper.xmlExtensions = standard.xmlExtensions then base.xmlExtensions
    else upper.xmlExtensions
  scriptExtensions :=
    if upper.scriptExtensions = standard.scriptExtensions then base.scriptExtensions
    else upper.scriptExtensions
  excludePatterns :=
    if upper.excludePatterns = standard.excludePatterns then base.excludePatterns
    else upper.excludePatterns
  followLinks :=
    if upper.followLinks = standard.followLinks then base.followLinks else upper.followLinks
  threads := if upper.threads = standard.threads then base.threads else upper.threads
  report := if upper.report = standard.report then base.report else upper.report
  verbose := if upper.verbose = standard.verbose then base.verbose else upper.verbose
  quiet := if upper.quiet = standard.quiet then base.quiet else upper.quiet

/-- A layer that sets nothing changes nothing. -/
theorem overlay_standard (base : Config) : overlay base standard = base := by
  simp [overlay]

/-- The layers agree where merging and the law take a setting of the upper one differently: on lists
of extensions that are empty or the standard ones, and on what is standard of the rest. -/
structure AgreeWhereMisread (base upper : Config) : Prop where
  xmlExtensions : upper.xmlExtensions = [] ∨ upper.xmlExtensions = standard.xmlExtensions →
    base.xmlExtensions = upper.xmlExtensions
  scriptExtensions :
    upper.scriptExtensions = [] ∨ upper.scriptExtensions = standard.scriptExtensions →
      base.scriptExtensions = upper.scriptExtensions
  followLinks : upper.followLinks = standard.followLinks → base.followLinks = upper.followLinks
  report : upper.report = standard.report → base.report = upper.report
  verbose : upper.verbose = standard.verbose → base.verbose = upper.verbose
  quiet : upper.quiet = standard.quiet → base.quiet = upper.quiet

/-! ## One setting -/

section Setting

variable {α : Type*} {lower upper standard : α} [DecidableEq α]

/-- A setting that is taken as it is follows the law unless it is the standard one. -/
theorem eq_ite_standard_iff :
    upper = (if upper = standard then lower else upper) ↔ (upper = standard → lower = upper) := by
  by_cases h : upper = standard
  · rw [if_pos h]
    exact ⟨fun heq _ => heq.symm, fun heq => (heq h).symm⟩
  · rw [if_neg h]
    exact ⟨fun _ heq => absurd heq h, fun _ => rfl⟩

/-- A list that is passed over where it is empty follows the law unless it is empty or the standard
one, which is not empty. -/
theorem ite_isEmpty_eq_ite_standard_iff {lower upper standard : List α} (hstandard : standard ≠ []) :
    (if upper.isEmpty then lower else upper) = (if upper = standard then lower else upper) ↔
      (upper = [] ∨ upper = standard → lower = upper) := by
  by_cases hempty : upper = []
  · subst hempty
    rw [if_pos List.isEmpty_nil, if_neg hstandard.symm]
    exact ⟨fun heq _ => heq, fun heq => heq (.inl rfl)⟩
  · have hnot : upper.isEmpty = false := by simpa using hempty
    rw [hnot, if_neg Bool.false_ne_true, eq_ite_standard_iff]
    exact ⟨fun heq h => heq (h.resolve_left hempty), fun heq h => heq (.inr h)⟩

end Setting

/-! ## All settings -/

variable {base upper : Config}

theorem threads_merge : (merge base upper).threads = (overlay base upper).threads := by
  show upper.threads.or base.threads = if upper.threads = none then base.threads else upper.threads
  cases upper.threads <;> rfl

theorem excludePatterns_merge :
    (merge base upper).excludePatterns = (overlay base upper).excludePatterns := by
  show (if upper.excludePatterns.isEmpty then base.excludePatterns else upper.excludePatterns) =
    if upper.excludePatterns = [] then base.excludePatterns else upper.excludePatterns
  cases upper.excludePatterns <;> rfl

theorem merge_eq_overlay_iff : merge base upper = overlay base upper ↔
    AgreeWhereMisread base upper := by
  have hxml : standard.xmlExtensions ≠ [] := List.cons_ne_nil _ _
  have hscript : standard.scriptExtensions ≠ [] := List.cons_ne_nil _ _
  rw [Config.mk.injEq]
  constructor
  · rintro ⟨hx, hs, -, hf, -, hr, hv, hq⟩
    exact ⟨(ite_isEmpty_eq_ite_standard_iff hxml).mp hx,
      (ite_isEmpty_eq_ite_standard_iff hscript).mp hs, eq_ite_standard_iff.mp hf,
      eq_ite_standard_iff.mp hr, eq_ite_standard_iff.mp hv, eq_ite_standard_iff.mp hq⟩
  · intro h
    exact ⟨(ite_isEmpty_eq_ite_standard_iff hxml).mpr h.xmlExtensions,
      (ite_isEmpty_eq_ite_standard_iff hscript).mpr h.scriptExtensions, excludePatterns_merge,
      eq_ite_standard_iff.mpr h.followLinks, threads_merge, eq_ite_standard_iff.mpr h.report,
      eq_ite_standard_iff.mpr h.verbose, eq_ite_standard_iff.mpr h.quiet⟩

/-- Merging a layer that sets nothing keeps the number of threads and the patterns. -/
theorem merge_standard : merge base standard =
    { standard with threads := base.threads, excludePatterns := base.excludePatterns } := by
  show ({ standard with threads := none.or base.threads, excludePatterns := _ } : Config) = _
  rw [Option.none_or]
  rfl

/-- Over the standard configuration only an empty list of extensions is misread. -/
theorem agreeWhereMisread_standard_iff :
    AgreeWhereMisread standard upper ↔ upper.xmlExtensions ≠ [] ∧ upper.scriptExtensions ≠ [] := by
  have hxml : standard.xmlExtensions ≠ [] := List.cons_ne_nil _ _
  have hscript : standard.scriptExtensions ≠ [] := List.cons_ne_nil _ _
  constructor
  · intro h
    exact ⟨fun hempty => hxml ((h.xmlExtensions (.inl hempty)).trans hempty),
      fun hempty => hscript ((h.scriptExtensions (.inl hempty)).trans hempty)⟩
  · rintro ⟨hxmlGiven, hscriptGiven⟩
    exact ⟨fun h => (h.resolve_left hxmlGiven).symm, fun h => (h.resolve_left hscriptGiven).symm,
      Eq.symm, Eq.symm, Eq.symm, Eq.symm⟩

/-- **Where a layer counts for what it sets.**  The number of threads and the patterns of two merged
layers are the upper one's where those are not the standard ones, and else the lower one's.  The same
is so of all settings just if the layers agree where the tests of merging are others.  A layer that
sets nothing keeps only these two; and a layer over the standard configuration counts for all that it
sets just if none of its lists of extensions is empty. -/
theorem merge_overlay (base upper : Config) :
    (merge base upper).threads = (overlay base upper).threads ∧
    (merge base upper).excludePatterns = (overlay base upper).excludePatterns ∧
    (merge base upper = overlay base upper ↔ AgreeWhereMisread base upper) ∧
    merge base standard =
      { standard with threads := base.threads, excludePatterns := base.excludePatterns } ∧
    (merge standard upper = overlay standard upper ↔
      upper.xmlExtensions ≠ [] ∧ upper.scriptExtensions ≠ []) :=
  ⟨threads_merge, excludePatterns_merge, merge_eq_overlay_iff, merge_standard,
    merge_eq_overlay_iff.trans agreeWhereMisread_standard_iff⟩

/-- A configuration with a list of extensions, links, a report and a loudness of its own. -/
def chosen : Config :=
  { xmlExtensions := ["form"], followLinks := true, report := .ofString "base.sarif", verbose := true }

/-- A layer that sets nothing undoes what was chosen, and one that sets an empty list does not get
it. -/
theorem merge_undoes :
    (overlay chosen standard = chosen ∧ merge chosen standard = standard ∧ chosen ≠ standard) ∧
    (overlay standard { xmlExtensions := [] }).xmlExtensions = [] ∧
      (merge standard { xmlExtensions := [] }).xmlExtensions = ["xml"] := by
  decide +kernel

end FormsAudit.Config
