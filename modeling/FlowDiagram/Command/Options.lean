import FlowDiagram.Codec.Display
import FlowDiagram.Command.Arguments
/-! Display options from a file, from arguments and from the environment. -/

namespace FlowDiagram.Command

/-- The variables that a run looks at. -/
structure Environment where
  direction : Option String
  theme : Option String
deriving DecidableEq, Repr

def directionVariable : String := "FLOWCHART_DIRECTION"

def themeVariable : String := "FLOWCHART_THEME"

/-- The options of arguments in place of those of a file. -/
def Invocation.override (i : Invocation) (file : Options) : Options where
  includeTitle := file.includeTitle && !i.noTitle
  includeDescription := file.includeDescription && !i.noDescription
  direction := i.direction.getD file.direction
  theme := i.theme.or file.theme

/-- The options of the environment in place of all others. An empty theme is none. -/
def Environment.override (env : Environment) (o : Options) : Except Direction.Unknown Options := do
  let direction ← match env.direction with
    | some s => Direction.ofText s
    | none => .ok o.direction
  let theme := match env.theme with
    | some theme => if theme = "" then none else some theme
    | none => o.theme
  return { o with direction, theme }

/-- Reads the options of a file. -/
def readOptions (s : String) : Except Json.Error Options := Options.decoder.run s

end FlowDiagram.Command
