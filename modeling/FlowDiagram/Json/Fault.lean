/-! What can be wrong with a text that is not JSON. -/

namespace FlowDiagram.Json

/-- The first thing that keeps a text from being JSON. -/
inductive Flaw where
  | endInValue
  | endInText
  | endInArray
  | endInObject
  | valueDue
  | misspeltWord
  | colonDue
  | commaOrBraceDue
  | commaOrBracketDue
  | nameDue
  | trailingComma
  | trailingText
  | controlCharacter
  | unknownEscape
  | brokenPair
  | loneSurrogate
  | malformedNumber
  | numberTooLarge
  | tooDeep
deriving DecidableEq, Repr

def Flaw.message : Flaw → String
  | .endInValue => "EOF while parsing a value"
  | .endInText => "EOF while parsing a string"
  | .endInArray => "EOF while parsing a list"
  | .endInObject => "EOF while parsing an object"
  | .valueDue => "expected value"
  | .misspeltWord => "expected ident"
  | .colonDue => "expected `:`"
  | .commaOrBraceDue => "expected `,` or `\x7d`"
  | .commaOrBracketDue => "expected `,` or `]`"
  | .nameDue => "key must be a string"
  | .trailingComma => "trailing comma"
  | .trailingText => "trailing characters"
  | .controlCharacter => "control character (\\u0000-\\u001F) found while parsing a string"
  | .unknownEscape => "invalid escape"
  | .brokenPair => "unexpected end of hex escape"
  | .loneSurrogate => "lone leading surrogate in hex escape"
  | .malformedNumber => "invalid number"
  | .numberTooLarge => "number out of range"
  | .tooDeep => "recursion limit exceeded"

/-- A flaw, as a reader words it that keeps the value, and as one does that passes over it. The
latter looks less closely: `none` if it goes on. -/
structure Fault where
  kept : Flaw
  skipped : Option Flaw
deriving DecidableEq, Repr

/-- A flaw that both readers word alike. -/
def Fault.plain (f : Flaw) : Fault := ⟨f, some f⟩

end FlowDiagram.Json
