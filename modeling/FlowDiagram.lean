import FlowDiagram.Saving.Queue
import FlowDiagram.Editing.Session
import FlowDiagram.Main
import FlowDiagram.Storage.Volume
import FlowDiagram.Proofs.Codec.Compact
import FlowDiagram.Proofs.Codec.Unrecognized
import FlowDiagram.Proofs.Command.Layers
import FlowDiagram.Proofs.Diagram.Captions
import FlowDiagram.Proofs.Diagram.Growth
import FlowDiagram.Proofs.Diagram.Identifier
import FlowDiagram.Proofs.Diagram.Notes
import FlowDiagram.Proofs.Diagram.Order
import FlowDiagram.Proofs.Diagram.Unread
import FlowDiagram.Proofs.Document.FileName
import FlowDiagram.Proofs.Document.MemberOrder
import FlowDiagram.Proofs.Document.RoundTrip
import FlowDiagram.Proofs.Editing.Connections
import FlowDiagram.Proofs.Editing.Nodes
import FlowDiagram.Proofs.Saving.Composition
import FlowDiagram.Proofs.Saving.Simulation
import FlowDiagram.Proofs.Saving.Writes
import FlowDiagram.Proofs.Storage.AllOrNothing
