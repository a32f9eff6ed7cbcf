import Mathlib.Data.List.Infix

/-!
# The parts between separators

A part of a list that is split at a separator does not hold it (`notMem_of_mem_splitOn`), and stands
in the list as it is (`infix_of_mem_splitOn`).
-/

namespace FormsAudit

variable {α : Type*} {parts : List (List α)} {part : List α}

theorem infix_intercalate_of_mem (separator : List α) (h : part ∈ parts) :
    part <:+: separator.intercalate parts := by
  induction parts with
  | nil => cases h
  | cons first rest ih =>
    by_cases hrest : rest = []
    · subst hrest
      rw [List.mem_singleton.mp h, List.intercalate_singleton]
    · rw [List.intercalate_cons_of_ne_nil hrest]
      rcases List.mem_cons.mp h with rfl | h
      · rw [List.append_assoc]
        exact (List.prefix_append ..).isInfix
      · exact (ih h).trans (List.suffix_append ..).isInfix

variable [BEq α] [LawfulBEq α] {separator : α} {items : List α}

theorem infix_of_mem_splitOn (h : part ∈ items.splitOn separator) : part <:+: items := by
  have hinfix := infix_intercalate_of_mem [separator] h
  rwa [List.intercalate_splitOn] at hinfix

/-- No separator stands between separators. -/
theorem notMem_of_mem_splitOn (h : part ∈ items.splitOn separator) : separator ∉ part := by
  induction items generalizing part with
  | nil =>
    rw [List.splitOn_nil, List.mem_singleton] at h
    simp [h]
  | cons item items ih =>
    rw [List.splitOn_cons_eq_if_modifyHead] at h
    split at h
    · rcases List.mem_cons.mp h with rfl | h
      · exact List.not_mem_nil
      · exact ih h
    · rename_i hitem
      cases hparts : items.splitOn separator with
      | nil => exact absurd hparts (List.splitOn_ne_nil _ _)
      | cons first parts =>
        rw [hparts] at h ih
        rcases List.mem_cons.mp h with rfl | h
        · have hfirst := ih List.mem_cons_self
          simp only [List.mem_cons, not_or]
          exact ⟨fun heq => hitem (by simp [heq]), hfirst⟩
        · exact ih (List.mem_cons_of_mem _ h)

end FormsAudit
