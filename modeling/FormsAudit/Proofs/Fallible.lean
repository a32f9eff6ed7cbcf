/-!
# Results that may be errors

When a computation that is made of others succeeds, and when it fails.  Each lemma takes the last
step apart.
-/

namespace FormsAudit

variable {ε α β : Type}

theorem bind_eq_ok_iff {result : Except ε α} {next : α → Except ε β} {found : β} :
    result >>= next = .ok found ↔ ∃ value, result = .ok value ∧ next value = .ok found := by
  cases result <;> simp [bind, Except.bind]

theorem map_eq_ok_iff {result : Except ε α} {f : α → β} {found : β} :
    result.map f = .ok found ↔ ∃ value, result = .ok value ∧ found = f value := by
  cases result <;> simp [Except.map, eq_comm]

theorem exists_map_eq_ok_iff {result : Except ε α} {f : α → β} :
    (∃ found, result.map f = .ok found) ↔ ∃ value, result = .ok value := by
  cases result <;> simp [Except.map]

theorem exists_pure_eq_error_iff {value : α} :
    (∃ fault, (pure value : Except ε α) = .error fault) ↔ False := by
  simp [pure, Except.pure]

theorem bind_eq_error_iff {result : Except ε α} {next : α → Except ε β} {fault : ε} :
    result >>= next = .error fault ↔
      result = .error fault ∨ ∃ value, result = .ok value ∧ next value = .error fault := by
  cases result <;> simp [bind, Except.bind]

theorem map_eq_error_iff {result : Except ε α} {f : α → β} {fault : ε} :
    result.map f = .error fault ↔ result = .error fault := by
  cases result <;> simp [Except.map]

theorem exists_bind_eq_error_iff {result : Except ε α} {next : α → Except ε β} :
    (∃ fault, result >>= next = .error fault) ↔
      (∃ fault, result = .error fault) ∨
        ∃ value, result = .ok value ∧ ∃ fault, next value = .error fault := by
  cases result <;> simp [bind, Except.bind]

theorem exists_map_eq_error_iff {result : Except ε α} {f : α → β} :
    (∃ fault, result.map f = .error fault) ↔ ∃ fault, result = .error fault := by
  cases result <;> simp [Except.map]

end FormsAudit
