import FlowDiagram.Calendar.InstantText
import FlowDiagram.Codec.Graph
/-! Documents: a graph with its metadata, as it is saved and loaded. -/

namespace FlowDiagram

open Json Calendar

structure Document where
  version : UInt32
  metadata : Metadata
  graph : Graph
  savedAt : Option Instant
deriving DecidableEq

namespace Document

/-- The version of the format that is written, and the only one that is loaded. -/
def formatVersion : UInt32 := 1

def new (metadata : Metadata) (graph : Graph) : Document := ⟨formatVersion, metadata, graph, none⟩

def stamp (d : Document) (now : Instant) : Document := { d with savedAt := some now }

/-! Reading -/

def instantDecoder : Decoder Instant := fun o r => do
  let s ← Decoder.textFor "an RFC 3339 formatted date and time string" o r
  match Instant.read s.toList with
  | .ok i => return i
  | .error e => .error (.refused e.message)

def versionDecoder : Decoder UInt32 := .map UInt32.ofNat (.natBelow 0x100000000 "u32")

/-- A document of which the members that are not its own are held back. -/
structure Draft where
  version : UInt32
  metadata : Metadata
  savedAt : Option Instant
  held : List (Name × Reading)

def draftRecord : Record Draft where
  name := "FlowchartDocument"
  fields :=
    [.allow "version" versionDecoder fun version d => { d with version },
     .allow "metadata" Metadata.decoder fun metadata d => { d with metadata },
     .allow "savedAt" (.optional instantDecoder) fun savedAt d => { d with savedAt }]
  blank := ⟨formatVersion, .blank, none, []⟩

/-- Holds a member back once it is found to be free of faults. -/
def hold : Record.Rest Draft := fun o name r d => do
  let _ ← Decoder.tree o r
  return { d with held := d.held ++ [(.ok name, r)] }

/-- Reads a document of any version. The graph is read from the members held back. -/
def decoder : Decoder Document := fun o r => do
  let d ← draftRecord.decodeOpen hold o r
  let graph ← Graph.decoder .kept (.object d.held none)
  return ⟨d.version, d.metadata, graph, d.savedAt⟩

/-- Why a text is no document. -/
inductive ParseError where
  | json (e : Json.Error)
  | unsupportedVersion (found : UInt32)
deriving DecidableEq

def ParseError.message : ParseError → String
  | .json e => "invalid document json: " ++ e.message
  | .unsupportedVersion found =>
    s!"unsupported document version {found.toNat} (expected {formatVersion.toNat})"

/-- Reads a document of the current version. The version is looked at last. -/
def parse (s : String) : Except ParseError Document :=
  match decoder.run s with
  | .error e => .error (.json e)
  | .ok d => if d.version = formatVersion then .ok d else .error (.unsupportedVersion d.version)

/-! Writing -/

def savedAtMember : Option Instant → List (String × Tree)
  | some i => [("savedAt", .text (String.ofList i.print))]
  | none => []

def toTree (d : Document) : Tree :=
  .object
    ([("version", .nat d.version.toNat), ("metadata", d.metadata.toTree)] ++ d.graph.members ++
      savedAtMember d.savedAt)

/-- The text of a saved document, over several lines. -/
def render (d : Document) : String := d.toTree.toPretty

end Document

end FlowDiagram
