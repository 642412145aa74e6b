import FlowDiagram.Text.Alphanumeric
import FlowDiagram.Text.Lowercase
/-! File names for diagrams, made of their titles. -/

namespace FlowDiagram.FileName

/-- Goes on with a name, which is reversed: by the lower case of a letter or number, and by one hyphen
for any other characters that follow on one. -/
def extend (name : List Char) (c : Char) : List Char :=
  if Text.isAlphanumeric c then (Text.toLowercase c).reverse ++ name
  else if name.isEmpty ∨ name.head? = some '-' then name
  else '-' :: name

/-- The letters and numbers of a title in lower case, with single hyphens for all that stands
between them. -/
def slug (title : List Char) : List Char :=
  ((title.foldl extend []).dropWhile (· = '-')).reverse

/-- The name for a title without letters and numbers. -/
def defaultStem : String := "flowchart"

/-- The file name for a title. -/
def ofTitle (title : Option String) : String :=
  let stem := String.ofList (slug (title.getD "").toList)
  (if stem = "" then defaultStem else stem) ++ ".mmd"

end FlowDiagram.FileName
