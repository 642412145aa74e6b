import FlowDiagram.Graph.Direction
/-! Command line arguments. -/

namespace FlowDiagram.Command

/-- An option that takes a value. -/
inductive Setting where
  | options
  | direction
  | theme
  | output
  | outDir
deriving DecidableEq, Repr

def Setting.all : List Setting := [.options, .direction, .theme, .output, .outDir]

def Setting.name : Setting → String
  | .options => "--options"
  | .direction => "--direction"
  | .theme => "--theme"
  | .output => "--output"
  | .outDir => "--out-dir"

/-- An option that takes none. -/
inductive Flag where
  | noTitle
  | noDescription
  | check
  | stats
  | help
deriving DecidableEq, Repr

def Flag.all : List Flag := [.noTitle, .noDescription, .check, .stats, .help]

def Flag.name : Flag → String
  | .noTitle => "--no-title"
  | .noDescription => "--no-description"
  | .check => "--check"
  | .stats => "--stats"
  | .help => "--help"

/-- What an argument, or an option with the argument after it, stands for. -/
inductive Word where
  | setting (s : Setting) (value : String)
  | flag (f : Flag)
  | document (name : String)
deriving DecidableEq, Repr

/-- Why arguments are not accepted. -/
inductive UsageError where
  | unknownOption (name : String)
  | missingValue (s : Setting)
  | unexpectedValue (f : Flag)
  | repeatedSetting (s : Setting)
  | repeatedFlag (f : Flag)
  | twoOutputs
  | missingDocument
  | extraDocument (name : String)
  | unknownDirection (e : Direction.Unknown)
  | emptyName
deriving DecidableEq, Repr

def UsageError.message : UsageError → String
  | .unknownOption name => s!"unknown option {name}"
  | .missingValue s => s!"{s.name} needs a value"
  | .unexpectedValue f => s!"{f.name} takes no value"
  | .repeatedSetting s => s!"{s.name} is given more than once"
  | .repeatedFlag f => s!"{f.name} is given more than once"
  | .twoOutputs => s!"{Setting.output.name} and {Setting.outDir.name} exclude each other"
  | .missingDocument => "a document is needed"
  | .extraDocument name => s!"only one document is taken, not also {name}"
  | .unknownDirection e => e.message
  | .emptyName => "a file name is empty"

/-- An argument that starts with a hyphen, other than a hyphen alone, is no value. -/
def looksLikeOption (s : String) : Bool :=
  match s.toList with
  | '-' :: _ :: _ => true
  | _ => false

/-- The parts of a long option before and after its first equals sign. -/
def splitValue (s : String) : String × Option String :=
  let cs := s.toList
  let name := cs.takeWhile (· ≠ '=')
  let rest := cs.dropWhile (· ≠ '=')
  (String.ofList name, if rest.isEmpty then none else some (String.ofList (rest.drop 1)))

/-- An option in one argument: what it is, and the value attached to it. The short name may have
its value attached with or without an equals sign. -/
inductive OptionArgument where
  | setting (s : Setting) (value : Option String)
  | flag (f : Flag) (value : Option String)
  | unknown

def OptionArgument.ofText (s : String) : OptionArgument :=
  match s.toList with
  | '-' :: 'o' :: [] => .setting .output none
  | '-' :: 'o' :: '=' :: value => .setting .output (some (String.ofList value))
  | '-' :: 'o' :: value => .setting .output (some (String.ofList value))
  | '-' :: 'h' :: _ => .flag .help none
  | _ =>
    let (name, value) := splitValue s
    match Setting.all.find? (·.name = name) with
    | some s => .setting s value
    | none =>
      match Flag.all.find? (·.name = name) with
      | some f => .flag f value
      | none => .unknown

/-- The words of arguments. After two hyphens alone all are documents. Nothing after a call for
help is looked at. -/
def words : List String → Except UsageError (List Word)
  | [] => .ok []
  | a :: rest =>
    if a = "--" then .ok (rest.map .document)
    else if looksLikeOption a then
      match OptionArgument.ofText a with
      | .setting s (some value) => (words rest).map (.setting s value :: ·)
      | .setting s none =>
        match rest with
        | [] => .error (.missingValue s)
        | value :: rest =>
          if looksLikeOption value then .error (.missingValue s)
          else (words rest).map (.setting s value :: ·)
      | .flag .help none => .ok [.flag .help]
      | .flag f none => (words rest).map (.flag f :: ·)
      | .flag f (some _) => .error (.unexpectedValue f)
      | .unknown => .error (.unknownOption a)
    else (words rest).map (.document a :: ·)

/-- What a run is asked to do. -/
structure Invocation where
  options : Option String
  direction : Option Direction
  theme : Option String
  noTitle : Bool
  noDescription : Bool
  output : Option String
  outDir : Option String
  check : Bool
  stats : Bool
  document : String
deriving DecidableEq, Repr

/-- The value of a setting that is given at most once. -/
def settingValue (ws : List Word) (s : Setting) : Except UsageError (Option String) :=
  match ws.filterMap fun w => match w with
    | .setting t value => if t = s then some value else none
    | _ => none with
  | [] => .ok none
  | [value] => .ok (some value)
  | _ => .error (.repeatedSetting s)

/-- The name of a file, which is not empty. -/
def fileName (ws : List Word) (s : Setting) : Except UsageError (Option String) := do
  match ← settingValue ws s with
  | some "" => .error .emptyName
  | value => return value

/-- Whether a flag is given, at most once. -/
def flagValue (ws : List Word) (f : Flag) : Except UsageError Bool :=
  match ws.count (.flag f) with
  | 0 => .ok false
  | 1 => .ok true
  | _ => .error (.repeatedFlag f)

/-- The name of the document, if it is given, at most once. -/
def documentName (ws : List Word) : Except UsageError (Option String) :=
  match ws.filterMap fun w => match w with
    | .document name => some name
    | _ => none with
  | [] => .ok none
  | [name] => if name = "" then .error .emptyName else .ok (some name)
  | _ :: name :: _ => .error (.extraDocument name)

/-- The direction of a setting, if it is given. -/
def directionValue (value : Option String) : Except UsageError (Option Direction) :=
  match value with
  | none => .ok none
  | some s => ((Direction.ofText s).map some).mapError .unknownDirection

/-- What arguments ask for: `none` is help. What is wrong with an argument counts before help, what
is wrong with them together does not. -/
def parse (args : List String) : Except UsageError (Option Invocation) := do
  let ws ← words args
  let options ← fileName ws .options
  let direction ← directionValue (← settingValue ws .direction)
  let theme ← settingValue ws .theme
  let noTitle ← flagValue ws .noTitle
  let noDescription ← flagValue ws .noDescription
  let output ← fileName ws .output
  let outDir ← fileName ws .outDir
  let check ← flagValue ws .check
  let stats ← flagValue ws .stats
  let document ← documentName ws
  if ws.contains (.flag .help) then return none
  if output.isSome && outDir.isSome then throw .twoOutputs
  match document with
  | none => throw .missingDocument
  | some document =>
    return some
      { options, direction, theme, noTitle, noDescription, output, outDir, check, stats, document }

end FlowDiagram.Command
