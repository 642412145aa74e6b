import FlowDiagram.Codec.Node
import FlowDiagram.Diagram.Text
import FlowDiagram.Review.Remark
/-! Options, previews and reports as JSON. -/

namespace FlowDiagram

open Json

namespace Direction

def decoder : Decoder Direction := fun o r => do
  match ofText (← Decoder.text o r) with
  | .ok d => return d
  | .error e => .error (.refused e.message)

def toTree (d : Direction) : Tree := .text d.keyword

end Direction

namespace Options

def record : Record Options where
  name := "ConversionOptions"
  fields :=
    [.allow "includeTitle" .bool fun includeTitle o => { o with includeTitle },
     .allow "includeDescription" .bool fun includeDescription o => { o with includeDescription },
     .allow "direction" Direction.decoder fun direction o => { o with direction },
     .allow "theme" (.optional .text) fun theme o => { o with theme }]
  blank := .default

def decoder : Decoder Options := record.decode

def toTree (o : Options) : Tree :=
  .object
    ([("includeTitle", .bool o.includeTitle), ("includeDescription", .bool o.includeDescription),
      ("direction", o.direction.toTree)] ++ textMember "theme" o.theme)

end Options

namespace Preview

def countDecoder : Decoder Nat := .natBelow 0x10000000000000000 "usize"

def record : Record Preview where
  name := "PreviewMetrics"
  fields :=
    [.need "code" .text fun code p => { p with code },
     .need "lineCount" countDecoder fun lineCount p => { p with lineCount },
     .need "characterCount" countDecoder fun characterCount p => { p with characterCount }]
  blank := ⟨"", 0, 0⟩

def decoder : Decoder Preview := record.decode

def toTree (p : Preview) : Tree :=
  .object
    [("code", .text p.code), ("lineCount", .nat p.lineCount),
     ("characterCount", .nat p.characterCount)]

end Preview

namespace Report

def record : Record Report where
  name := "ValidationReport"
  fields :=
    [.need "isValid" .bool fun isValid r => { r with isValid },
     .need "warnings" (.list .text) fun warnings r => { r with warnings },
     .need "errors" (.list .text) fun errors r => { r with errors }]
  blank := ⟨true, [], []⟩

def decoder : Decoder Report := record.decode

def toTree (r : Report) : Tree :=
  .object
    [("isValid", .bool r.isValid), ("warnings", .array (r.warnings.map .text)),
     ("errors", .array (r.errors.map .text))]

end Report

end FlowDiagram
