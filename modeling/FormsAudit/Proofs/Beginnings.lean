import Mathlib.Data.List.Infix

/-!
# Places in a list

`before ++ [item] <+: items` says that `item` has its place in `items` right after `before`.  Tokens
are looked at in this way, and so are the moves of a run.  Of two such places one comes before the
other unless they are the same (`isPrefix_trichotomy`), which is how a place is shown to be the only
one of its kind.
-/

namespace FormsAudit

variable {α : Type} {before other items : List α} {item last : α}

theorem isPrefix_of_concat (h : before ++ [item] <+: items) : before <+: items :=
  (List.prefix_append before [item]).trans h

theorem mem_of_concat (h : before ++ [item] <+: items) : item ∈ items := by
  apply h.subset
  exact List.mem_append_right before List.mem_cons_self

/-- A place in a longer list is the last one or a place in the list before. -/
theorem concat_isPrefix_concat_iff :
    before ++ [item] <+: items ++ [last] ↔
      (before = items ∧ item = last) ∨ before ++ [item] <+: items := by
  rw [List.prefix_concat_iff]
  refine or_congr_left ⟨fun heq => ?_, ?_⟩
  · obtain ⟨hbefore, hitem⟩ := List.append_inj' heq rfl
    exact ⟨hbefore, List.singleton_injective hitem⟩
  · rintro ⟨rfl, rfl⟩
    rfl

/-- Right after a beginning of a list there is one item. -/
theorem concat_isPrefix_unique {second : α} (h : before ++ [item] <+: items)
    (hother : before ++ [second] <+: items) : item = second := by
  have hsame : before ++ [item] = before ++ [second] :=
    (List.prefix_of_prefix_length_le h hother (by simp)).eq_of_length (by simp)
  simpa using hsame

/-- Of two places in a list one comes before the other, or they are the same. -/
theorem isPrefix_trichotomy {second : α} (h : before ++ [item] <+: items)
    (hother : other ++ [second] <+: items) :
    before ++ [item] <+: other ∨ before = other ∨ other ++ [second] <+: before := by
  rcases Nat.lt_trichotomy before.length other.length with hlt | heq | hlt
  · left
    apply List.prefix_of_prefix_length_le h (isPrefix_of_concat hother)
    rw [List.length_append, List.length_singleton]
    exact hlt
  · right; left
    have hpre : before <+: other :=
      List.prefix_of_prefix_length_le (isPrefix_of_concat h) (isPrefix_of_concat hother) heq.le
    exact hpre.eq_of_length heq
  · right; right
    apply List.prefix_of_prefix_length_le hother (isPrefix_of_concat h)
    rw [List.length_append, List.length_singleton]
    exact hlt

end FormsAudit
