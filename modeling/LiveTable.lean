import LiveTable.Workspace.Observe
import LiveTable.Proofs.Grid.Refinement
import LiveTable.Proofs.Selection.Search
import LiveTable.Proofs.Workspace.Run
import LiveTable.Proofs.Content.Layout
import LiveTable.Proofs.Edit.Observers
import LiveTable.Proofs.Edit.Script
import LiveTable.Proofs.Store.Mirror
import LiveTable.Proofs.Workspace.Mirror
import LiveTable.Proofs.Element
import LiveTable.Proofs.Grid.Snapshots
import LiveTable.Proofs.Format.RoundTrip
import LiveTable.Proofs.Format.Csv
import LiveTable.Proofs.Format.PlainText.Alignment
import LiveTable.Proofs.Format.Xml.Document
import LiveTable.Proofs.Format.Xml.References
import LiveTable.Proofs.Format.Xhtml
import LiveTable.Proofs.Selection.Projection
import LiveTable.Proofs.Workspace.Hydration
import LiveTable.Proofs.Workspace.Keyed
import LiveTable.Proofs.Workspace.Registration
import LiveTable.Proofs.Handle.Tracking
import LiveTable.Proofs.Handle.Revision
import LiveTable.Proofs.Workspace.Document
import LiveTable.Proofs.Format.Json
import LiveTable.Proofs.Format.Extent
import LiveTable.Proofs.Workspace.Delivery
import LiveTable.Proofs.Workspace.Isolation
import LiveTable.Proofs.Workspace.Refresh
import LiveTable.Proofs.Workspace.Pruning
import LiveTable.Proofs.Edit.Sorting
import LiveTable.Proofs.Edit.Unaddressable
import LiveTable.Proofs.Content.Growth
import LiveTable.Proofs.Store.File
import LiveTable.Proofs.Edit.Growth
import LiveTable.Proofs.Edit.Titled
import LiveTable.Proofs.Edit.Entries
import LiveTable.Proofs.Content.Snapshot
import LiveTable.Proofs.Content.Window
import LiveTable.Proofs.Selection.Terminals
import LiveTable.Proofs.Workspace.Views
import LiveTable.Proofs.Edit.Bulk
import LiveTable.Proofs.Stripes.Reorder
