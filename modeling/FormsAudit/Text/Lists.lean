import FormsAudit.Unicode.Blank

/-!
# Lists written in one text

Entries are parted by commas; blanks around an entry do not belong to it, and blank entries are
dropped.
-/

namespace FormsAudit

/-- The entries of a list written in one text. -/
def splitList (text : String) : List String :=
  (((text.toList.splitOn ',').map Unicode.trim).filter (· ≠ [])).map String.ofList

end FormsAudit
