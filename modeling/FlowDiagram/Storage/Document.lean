import FlowDiagram.Document.Basic
import FlowDiagram.Storage.FileSystem
/-! Documents in files. -/

namespace FlowDiagram.Storage

/-- Why a document cannot be loaded. -/
inductive LoadError where
  | io (e : Error)
  | parse (e : Document.ParseError)

def LoadError.message : LoadError → String
  | .io e => "io: " ++ e.message
  | .parse e => e.message

variable {m : Type → Type} [Monad m] [FileSystem m]

/-- Makes the directory of a place, if it names one. -/
def makeParent (l : Location) : m (Except Error Unit) :=
  match l.parent? with
  | some parent => FileSystem.makeDirectories parent
  | none => return .ok ()

/-- Writes a text to a file in a directory that is made if it is missing. -/
def writeFile (l : Location) (s : String) : m (Except Error Unit) := do
  match ← makeParent l with
  | .ok () => FileSystem.writeText l s
  | .error e => return .error e

def save (l : Location) (d : Document) : m (Except Error Unit) := writeFile l d.render

def load (l : Location) : m (Except LoadError Document) := do
  match ← FileSystem.readText l with
  | .ok s => return (Document.parse s).mapError .parse
  | .error e => return .error (.io e)

end FlowDiagram.Storage
