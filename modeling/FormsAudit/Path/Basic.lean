import FormsAudit.Text.Utf8

/-!
# Paths

A path is a sequence of bytes, read as components between slashes.  Empty components and dots say
nothing, except for a dot at the very start.
-/

namespace FormsAudit

/-- A path as it is written. -/
structure Path where
  bytes : List UInt8
  deriving DecidableEq, Repr

namespace Path

/-- One step of a path. -/
inductive Component where
  | root
  | current
  | parent
  | normal (name : List UInt8)
  deriving DecidableEq, Repr

/-- The slash. -/
def slash : UInt8 := 0x2F

/-- The component that a stretch stands for, if it says anything. -/
def component? (stretch : List UInt8) : Option Component :=
  if stretch = [] ∨ stretch = [0x2E] then none
  else if stretch = [0x2E, 0x2E] then some .parent
  else some (.normal stretch)

def ofString (text : String) : Path := ⟨text.toUTF8.toList⟩

/-- The path as text, with the replacement character for what is no text. -/
def display (path : Path) : String := String.ofList (Utf8.decodeLossy path.bytes)

def isEmpty (path : Path) : Bool := path.bytes.isEmpty

def isAbsolute (path : Path) : Bool := path.bytes.head? == some slash

/-- The components of the path. -/
def components (path : Path) : List Component :=
  let parts := path.bytes.splitOn slash
  let first : List Component :=
    if path.isAbsolute then [.root]
    else if parts.head? == some [0x2E] then [.current]
    else []
  first ++ parts.filterMap component?

/-- The name that a component is, if it is one. -/
def Component.name? : Component → Option (List UInt8)
  | .normal name => some name
  | _ => none

/-- The name of the file, if the path ends with one. -/
def fileName? (path : Path) : Option (List UInt8) :=
  path.components.getLast?.bind Component.name?

/-- What follows the last dot of a name, unless nothing else stands before it. -/
def extensionOfName? (name : List UInt8) : Option (List UInt8) :=
  let extension := (name.reverse.takeWhile (· != 0x2E)).reverse
  let stem := name.length - extension.length
  if stem ≤ 1 then none else some extension

/-- The extension of the file's name. -/
def extension? (path : Path) : Option (List UInt8) :=
  path.fileName?.bind extensionOfName?

/-- `other` seen from `path`: itself where it is absolute. -/
def join (path other : Path) : Path :=
  if other.isAbsolute || path.isEmpty then other
  else if path.bytes.getLast? = some slash then ⟨path.bytes ++ other.bytes⟩
  else ⟨path.bytes ++ slash :: other.bytes⟩

/-- What is left of `components` after `leading`, if they begin so. -/
def stripComponents? : List Component → List Component → Option (List Component)
  | [], components => some components
  | _ :: _, [] => none
  | expected :: leading, found :: components =>
    if expected = found then stripComponents? leading components else none

/-- The names of `path` below `root`, joined by slashes; all its names where it is not below. -/
def relativeTo (path root : Path) : String :=
  let components := path.components
  let below := (stripComponents? root.components components).getD components
  let names := (below.filterMap Component.name?).map fun name =>
    String.ofList (Utf8.decodeLossy name)
  "/".intercalate names

/-- The place of a kind of component in the order of paths. -/
def Component.rank : Component → Nat
  | .root => 0
  | .current => 1
  | .parent => 2
  | .normal _ => 3

/-- The order of components: by kind, names by their bytes. -/
def Component.order (a b : Component) : Ordering :=
  match a, b with
  | .normal first, .normal second => compare first second
  | _, _ => compare a.rank b.rank

/-- The order of sequences of components, a beginning before what it begins. -/
def orderComponents : List Component → List Component → Ordering
  | [], [] => .eq
  | [], _ :: _ => .lt
  | _ :: _, [] => .gt
  | a :: as, b :: bs => (a.order b).then (orderComponents as bs)

/-- The order of paths: component by component. -/
def order (a b : Path) : Ordering :=
  orderComponents a.components b.components

@[simp] theorem stripComponents?_nil (components : List Component) :
    stripComponents? [] components = some components := rfl

theorem stripComponents?_append (leading rest : List Component) :
    stripComponents? leading (leading ++ rest) = some rest := by
  induction leading with
  | nil => rfl
  | cons first leading ih => simp [stripComponents?, ih]

end Path

end FormsAudit
