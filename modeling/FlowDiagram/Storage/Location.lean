import FlowDiagram.Text.Blank
/-! Places in a tree of directories, as they are written. -/

namespace FlowDiagram.Storage

/-- The names on the way down from the top of a tree. -/
abbrev Path := List String

/-- A way through a tree, from its top or from the current directory. The name of two dots leads one
directory up. -/
structure Route where
  fromTop : Bool
  names : List String
deriving DecidableEq, Repr

/-- The way without its last name. -/
def Route.parent (r : Route) : Route := { r with names := r.names.dropLast }

/-- What a written location ends with. After a slash or a single dot it can only be a directory. -/
inductive Ending where
  | name
  | slash
  | dot
deriving DecidableEq, Repr

/-- A part that a written location has of its own. -/
inductive Component where
  | top
  | here
  | up
  | name (s : String)
deriving DecidableEq, Repr

def Component.ofName (s : String) : Component := if s = ".." then up else name s

structure Location where
  text : String
  route : Route
  ending : Ending
deriving DecidableEq, Repr

namespace Location

/-- The names between slashes. -/
def parts (cs : List Char) : List String :=
  ((Text.splitAt (· = '/') cs).map String.ofList).filter (· ≠ "")

/-- The location that a text names. Single dots lead nowhere. -/
def ofText (s : String) : Location where
  text := s
  route := ⟨s.toList.head? = some '/', (parts s.toList).filter (· ≠ ".")⟩
  ending :=
    if (parts s.toList).getLast? = some "." then .dot
    else if s.toList.getLast? = some '/' then .slash
    else .name

/-- A slash or a single dot that a text begins with. -/
def front (s : String) : List Component :=
  if s.toList.head? = some '/' then [.top]
  else if (parts s.toList).head? = some "." then [.here]
  else []

/-- What a written location is made of. Slashes and single dots count only in front. -/
def components (s : String) : List Component :=
  front s ++ ((parts s.toList).filter (· ≠ ".")).map Component.ofName

/-- What tells a location from others. -/
abbrev Key := List Component

def key (l : Location) : Key := components l.text

/-- The location of a path below the current directory. -/
def ofPath (p : Path) : Location := ⟨"/".intercalate p, ⟨false, p⟩, .name⟩

/-- Drops slashes, and dots between slashes, from the end of a reversed text. -/
def dropTrailing : List Char → List Char
  | '/' :: cs => dropTrailing cs
  | '.' :: '/' :: cs => dropTrailing cs
  | cs => cs

/-- A written location without its last name. -/
def parentText (s : String) : String :=
  let rest := (dropTrailing s.toList.reverse).dropWhile (· ≠ '/')
  String.ofList (dropTrailing rest).reverse

/-- The directory of a location, if it is not the one that the way starts from. -/
def parent? (l : Location) : Option Location :=
  if l.route.parent.names.isEmpty then none
  else some { text := parentText l.text, route := l.route.parent, ending := .name }

/-- A name within a directory. An empty location is where the way starts from. -/
def child (l : Location) (name : String) : Location :=
  if l.text = "" ∨ l.text.toList.getLast? = some '/' then ofText (l.text ++ name)
  else ofText (l.text ++ "/" ++ name)

end Location

end FlowDiagram.Storage
