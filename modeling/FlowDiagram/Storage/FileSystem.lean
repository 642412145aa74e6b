import FlowDiagram.Storage.Location
/-! What can be done with files, and why it cannot. -/

namespace FlowDiagram.Storage

/-- Why something cannot be done with a file. -/
inductive Error where
  | notFound
  | isDirectory
  | notDirectory
  | alreadyExists
  | nameTooLong
  /-- A location holds the character with the number zero. -/
  | nullInName
  /-- A file is no text. -/
  | invalidData
  | other (text : String)
deriving DecidableEq, Repr

def Error.message : Error → String
  | .notFound => "No such file or directory (os error 2)"
  | .isDirectory => "Is a directory (os error 21)"
  | .notDirectory => "Not a directory (os error 20)"
  | .alreadyExists => "File exists (os error 17)"
  | .nameTooLong => "File name too long (os error 36)"
  | .nullInName => "file name contained an unexpected NUL byte"
  | .invalidData => "stream did not contain valid UTF-8"
  | .other text => text

/-- Access to files. -/
class FileSystem (m : Type → Type) where
  readText : Location → m (Except Error String)
  /-- Makes a directory and those that it lies in, as far as they are missing. -/
  makeDirectories : Location → m (Except Error Unit)
  writeText : Location → String → m (Except Error Unit)

end FlowDiagram.Storage
