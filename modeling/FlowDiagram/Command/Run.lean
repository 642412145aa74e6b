import FlowDiagram.Command.Options
import FlowDiagram.Document.FileName
import FlowDiagram.Storage.Document
/-! A run of the program: from arguments to a diagram. -/

namespace FlowDiagram.Command

open Storage

/-- What a run leaves besides files. On the standard error this is what the run reports: the lines
of a log, which go there too, are left out. -/
structure Outcome where
  code : Nat
  stdout : String
  stderr : String
deriving DecidableEq, Repr

def usage : String := "Usage: flowchart [OPTIONS] <document.json>"

def help : String :=
  "Export a flowchart document to Mermaid flowchart text\n\n" ++ usage ++ "\n\n" ++
    "Arguments:\n" ++
    "  <document.json>  Path to the flowchart document\n\n" ++
    "Options:\n" ++
    "      --options <FILE>   JSON file with conversion options (includeTitle, " ++
    "includeDescription, direction, theme)\n" ++
    "      --direction <DIR>  Layout direction. Overridden by FLOWCHART_DIRECTION if set\n" ++
    "      --theme <NAME>     Mermaid theme. Overridden by FLOWCHART_THEME if set\n" ++
    "      --no-title         Do not emit the title front-matter block\n" ++
    "      --no-description   Do not emit the description comment\n" ++
    "  -o, --output <FILE>    Write the diagram to this file instead of stdout\n" ++
    "      --out-dir <DIR>    Write the diagram into this directory, named after the document " ++
    "title\n" ++
    "      --check            Exit with status 2 when validation reports errors\n" ++
    "      --stats            Print line and character counts of the generated text to stderr\n" ++
    "  -h, --help             Print help\n\n" ++
    "Environment variables (override flags when set):\n" ++
    "  FLOWCHART_DIRECTION   Layout direction (TD, TB, BT, RL, LR).\n" ++
    "  FLOWCHART_THEME       Mermaid theme name for the init directive.\n\n" ++
    "Examples:\n" ++
    "  flowchart order-flow.json\n" ++
    "  flowchart --direction LR --theme dark --out-dir exports order-flow.json\n"

/-- What is told about a graph: its warnings and errors, and how many edges are left out. -/
def notices (g : Graph) : List String :=
  g.review.warnings.map ("warning: " ++ ·) ++ g.review.errors.map ("error: " ++ ·) ++
    if g.looseEdges.isEmpty then []
    else [s!"note: {g.looseEdges.length} edge(s) reference missing nodes and were skipped"]

def sizeNotice (code : String) : String :=
  let p := Preview.ofText code
  s!"{p.lineCount} lines, {p.characterCount} characters"

/-- The file that a diagram is written to, if it is written to one. -/
def Invocation.target? (i : Invocation) (m : Metadata) : Option Location :=
  (i.output.map Location.ofText).or
    (i.outDir.map fun dir => (Location.ofText dir).child (FileName.ofTitle m.title?))

/-- Why a run fails once its arguments are accepted. -/
inductive Failure where
  | readingOptions (name : String) (e : Storage.Error)
  | parsingOptions (name : String) (e : Json.Error)
  | environment (e : Direction.Unknown)
  | loading (name : String) (e : LoadError)
  | creating (directory : Location) (e : Storage.Error)
  | writing (file : Location) (e : Storage.Error)

def Failure.message : Failure → String
  | .readingOptions name e => s!"Error reading {name}: {e.message}"
  | .parsingOptions name e => s!"Error parsing options {name}: {e.message}"
  | .environment e => s!"{directionVariable}: {e.message}"
  | .loading name e => s!"Error loading {name}: {e.message}"
  | .creating directory e => s!"Error creating {directory.text}: {e.message}"
  | .writing file e => s!"Error writing {file.text}: {e.message}"

def unlines (lines : List String) : String := String.join (lines.map (· ++ "\n"))

/-- The outcome of a failure, after what was told before it. -/
def Outcome.failed (told : List String) (f : Failure) : Outcome :=
  ⟨1, "", unlines (told ++ [f.message])⟩

variable {m : Type → Type} [Monad m] [FileSystem m]

/-- The options of the file that is named, if one is. -/
def fileOptions (name : Option String) : m (Except Failure Options) :=
  match name with
  | none => return .ok .default
  | some name => do
    match ← FileSystem.readText (Location.ofText name) with
    | .ok s => return (readOptions s).mapError (.parsingOptions name)
    | .error e => return .error (.readingOptions name e)

/-- The options of a run. The file is looked at before the environment. -/
def chooseOptions (i : Invocation) (env : Environment) : m (Except Failure Options) := do
  match ← fileOptions i.options with
  | .ok file => return (env.override (i.override file)).mapError .environment
  | .error e => return .error e

/-- Writes a diagram and a line break to a file, in a directory that is made if it is missing. -/
def writeDiagram (l : Location) (code : String) : m (Except Failure Unit) := do
  let made : Except Failure Unit ← match l.parent? with
    | some directory =>
      (·.mapError (.creating directory)) <$> FileSystem.makeDirectories directory
    | none => pure (.ok ())
  match made with
  | .ok () => return (← FileSystem.writeText l (code ++ "\n")).mapError (.writing l)
  | .error e => return .error e

/-- Presents the diagram of a document that is loaded. -/
def present (i : Invocation) (o : Options) (d : Document) : m Outcome := do
  let code := d.graph.diagramText (some d.metadata) o
  let told := notices d.graph ++ if i.stats then [sizeNotice code] else []
  let exit := if i.check && !d.graph.review.isValid then 2 else 0
  match i.target? d.metadata with
  | none => return ⟨exit, code ++ "\n", unlines told⟩
  | some l =>
    match ← writeDiagram l code with
    | .ok () => return ⟨exit, "", unlines (told ++ ["Wrote " ++ l.text])⟩
    | .error e => return .failed told e

/-- Does what is asked for. -/
def perform (i : Invocation) (env : Environment) : m Outcome := do
  match ← chooseOptions i env with
  | .error e => return .failed [] e
  | .ok o =>
    match ← Storage.load (Location.ofText i.document) with
    | .ok d => present i o d
    | .error e => return .failed [] (.loading i.document e)

/-- A run. Arguments are looked at before anything else. -/
def run (args : List String) (env : Environment) : m Outcome :=
  match parse args with
  | .error e => return ⟨2, "", unlines ["error: " ++ e.message, "", usage]⟩
  | .ok none => return ⟨0, help, ""⟩
  | .ok (some i) => perform i env

end FlowDiagram.Command
