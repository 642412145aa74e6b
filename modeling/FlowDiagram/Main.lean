import FlowDiagram.Command.Run
/-! The program. -/

namespace FlowDiagram

open Storage

/-- The error of the operating system by its number, which may come negated. -/
def Storage.Error.ofCode (number : UInt32) (details : String) : Storage.Error :=
  let code := if number < 0x80000000 then number else -number
  if code = 2 then .notFound
  else if code = 17 then .alreadyExists
  else if code = 20 then .notDirectory
  else if code = 21 then .isDirectory
  else if code = 36 then .nameTooLong
  else .other s!"{details} (os error {code})"

def Storage.Error.ofIO : IO.Error → Storage.Error
  | .noFileOrDirectory _ code details => ofCode code details
  | .alreadyExists _ code details => ofCode code details
  | .inappropriateType _ code details => ofCode code details
  | .permissionDenied _ code details => ofCode code details
  | .invalidArgument _ code details => ofCode code details
  | e => .other (toString e)

/-- Does something with a file, for an outcome that is a value. -/
def attempt {α : Type} (action : IO α) : IO (Except Storage.Error α) := do
  match ← action.toBaseIO with
  | .ok a => return .ok a
  | .error e => return .error (.ofIO e)

/-- Makes a directory and those that it lies in. If a file is in the way, the directory itself is
tried, which tells whether the file stands in its place or further up. -/
def makeDirectoriesAt (l : Location) : IO (Except Storage.Error Unit) := do
  match ← attempt (IO.FS.createDirAll l.text) with
  | .error .alreadyExists => attempt (IO.FS.createDir l.text)
  | outcome => return outcome

instance : FileSystem IO where
  readText l := do
    match ← attempt (IO.FS.readBinFile l.text) with
    | .error e => return .error e
    | .ok content =>
      match String.fromUTF8? content with
      | some s => return .ok s
      | none => return .error .invalidData
  makeDirectories := makeDirectoriesAt
  writeText l s := attempt (IO.FS.writeFile l.text s)

end FlowDiagram

def main (args : List String) : IO UInt32 := do
  let env : FlowDiagram.Command.Environment :=
    { direction := ← IO.getEnv FlowDiagram.Command.directionVariable
      theme := ← IO.getEnv FlowDiagram.Command.themeVariable }
  let outcome ← FlowDiagram.Command.run args env
  (← IO.getStderr).putStr outcome.stderr
  (← IO.getStdout).putStr outcome.stdout
  return outcome.code.toUInt32
