import FormsAudit.Unicode.Lowercase

/-!
# The script index

The names of a project's scripts, found again without regard to case.  Of names that differ in case
alone, the one added last stays.
-/

namespace FormsAudit

/-- The key under which a name is filed. -/
def foldCase (name : String) : List Char :=
  Unicode.lowercase name.toList

/-- Names by their keys; no key occurs twice. -/
structure ScriptIndex where
  entries : List (List Char × String)
  deriving DecidableEq, Repr

/-- What a reference to a script leads to. -/
inductive ScriptLookup where
  /-- No script has the name in any case. -/
  | missing
  /-- A script has the name, but in other letters. -/
  | casingMismatch (canonical : String)
  | found
  deriving DecidableEq, Repr

namespace ScriptIndex

def empty : ScriptIndex := ⟨[]⟩

/-- The name filed under the key of `name`. -/
def lookup (index : ScriptIndex) (name : String) : Option String :=
  index.entries.lookup (foldCase name)

/-- Files `name`, in place of the name that has had its key. -/
def insert (index : ScriptIndex) (name : String) : ScriptIndex :=
  let key := foldCase name
  ⟨(key, name) :: index.entries.filter (·.1 != key)⟩

/-- The index of the names, added in order. -/
def ofNames (names : List String) : ScriptIndex :=
  names.foldl insert empty

/-- The number of keys. -/
def size (index : ScriptIndex) : Nat :=
  index.entries.length

/-- What a reference to `name` leads to. -/
def resolve (index : ScriptIndex) (name : String) : ScriptLookup :=
  match index.lookup name with
  | none => .missing
  | some canonical => if canonical = name then .found else .casingMismatch canonical

@[simp] theorem lookup_empty (name : String) : empty.lookup name = none := rfl

theorem lookup_insert (index : ScriptIndex) (name query : String) :
    (index.insert name).lookup query =
      if foldCase query = foldCase name then some name else index.lookup query := by
  unfold lookup insert
  by_cases h : foldCase query = foldCase name
  · simp [h]
  · have hquery : (foldCase query == foldCase name) = false := beq_eq_false_iff_ne.mpr h
    simp only [List.lookup_cons, h, if_false, hquery]
    induction index.entries with
    | nil => rfl
    | cons entry rest ih =>
      obtain ⟨key, value⟩ := entry
      by_cases hkey : key = foldCase name
      · subst hkey
        simp [List.lookup_cons, hquery, ih]
      · have hkept : (key != foldCase name) = true := bne_iff_ne.mpr hkey
        simp only [List.filter_cons, hkept, if_true, List.lookup_cons, ih]

end ScriptIndex

end FormsAudit
