import LeafFringe.Element.Value
import LeafFringe.Element.Word
import LeafFringe.Fringe.History
import LeafFringe.Node.Debug
import LeafFringe.Node.Store
import LeafFringe.Proofs.Appending
import LeafFringe.Proofs.Buffer.Faults
import LeafFringe.Proofs.Buffer.Fringe
import LeafFringe.Proofs.Buffer.Outside
import LeafFringe.Proofs.Buffer.Site
import LeafFringe.Proofs.Editing
import LeafFringe.Proofs.Element
import LeafFringe.Proofs.Equality.Node
import LeafFringe.Proofs.Equality.Number
import LeafFringe.Proofs.Fringe.Absorption
import LeafFringe.Proofs.Fringe.Acceptance
import LeafFringe.Proofs.Fringe.Chunks
import LeafFringe.Proofs.Fringe.Concat
import LeafFringe.Proofs.Fringe.Grouping
import LeafFringe.Proofs.Fringe.Locate
import LeafFringe.Proofs.Fringe.Stitching
import LeafFringe.Proofs.Halving
import LeafFringe.Proofs.Json.Array
import LeafFringe.Proofs.Json.Framing
import LeafFringe.Proofs.Json.Numeral
import LeafFringe.Proofs.Json.Quoted
import LeafFringe.Proofs.Ledger
import LeafFringe.Proofs.Mapping.Oblivious
import LeafFringe.Proofs.Readers
import LeafFringe.Proofs.Refusal
import LeafFringe.Proofs.Restitching
import LeafFringe.Proofs.Runs
import LeafFringe.Proofs.Sharing.Calls
import LeafFringe.Proofs.Sharing.Elements
import LeafFringe.Proofs.Sharing.History
import LeafFringe.Proofs.Sharing.Origin
import LeafFringe.Proofs.Shown
import LeafFringe.Proofs.Site.Insertion
import LeafFringe.Proofs.Site.Mirror
import LeafFringe.Proofs.Site.Outcome
import LeafFringe.Proofs.Site.Removal
import LeafFringe.Proofs.Site.Undo
import LeafFringe.Proofs.Stored
import LeafFringe.Proofs.Text.Quoted
import LeafFringe.Proofs.Windows
import LeafFringe.Sharing.Pool
