import Tilework.Files.Disk
import Tilework.Grid.Text
import Tilework.Main
import Tilework.Plane.Vec
import Tilework.Proofs.Checked
import Tilework.Proofs.Grid.Access
import Tilework.Proofs.Catalog.Numbering
import Tilework.Proofs.Autotile.Alike
import Tilework.Proofs.Autotile.Evaluate
import Tilework.Proofs.Draws.Sources
import Tilework.Proofs.Plane.Region
import Tilework.Proofs.Autotile.Pass
import Tilework.Proofs.Edit.Changes
import Tilework.Proofs.Autotile.Simulation
import Tilework.Proofs.Autotile.Settled
import Tilework.Proofs.Archive.Record
import Tilework.Proofs.Archive.Stored
import Tilework.Proofs.Archive.RoundTrip
import Tilework.Proofs.Catalog.Lookup
import Tilework.Proofs.Snapshot.Restore
import Tilework.Proofs.Edit.Ownership
import Tilework.Proofs.Json.Literals
import Tilework.Proofs.Json.Reading
import Tilework.Proofs.Snapshot.Text
import Tilework.Proofs.Session.Reopen
import Tilework.Proofs.Session.Runs
import Tilework.Proofs.Files.Disk
import Tilework.Proofs.Catalog.Origin
import Tilework.Proofs.Snapshot.Rename
import Tilework.Proofs.Files.Reliable
import Tilework.Proofs.Store.Open
import Tilework.Proofs.Autotile.Drawless
import Tilework.Proofs.Command.Effects
import Tilework.Proofs.Command.Processes
import Tilework.Proofs.Command.Histories
import Tilework.Proofs.Plane.Moderate
import Tilework.Proofs.Autotile.Totality
import Tilework.Proofs.Edit.Totality
import Tilework.Proofs.Yields
import Tilework.Proofs.Catalog.Intact
import Tilework.Proofs.Archive.Countable
import Tilework.Proofs.Store.Fallback
import Tilework.Proofs.Snapshot.Layers
import Tilework.Proofs.Catalog.Arithmetic
import Tilework.Proofs.Session.Catalogs
import Tilework.Proofs.Edit.Readback
import Tilework.Proofs.Session.Generations
import Tilework.Proofs.Catalog.WellFormed
import Tilework.Proofs.Catalog.References
import Tilework.Proofs.Catalog.Identities
import Tilework.Proofs.Catalog.Pickers
import Tilework.Proofs.Catalog.Reordering
import Tilework.Proofs.Archive.Damage
import Tilework.Proofs.Grid.Text
import Tilework.Proofs.Snapshot.Places
import Tilework.Proofs.Autotile.Blind
import Tilework.Proofs.Edit.Resize
import Tilework.Proofs.Autotile.Frame
import Tilework.Proofs.Autotile.Confluence
import Tilework.Proofs.Autotile.Translation
import Tilework.Proofs.Edit.InPlace
import Tilework.Proofs.Catalog.Agreement
import Tilework.Proofs.Catalog.Footprint
import Tilework.Proofs.Catalog.Membership
import Tilework.Proofs.Catalog.Spelling
import Tilework.Proofs.Plane.Turn
import Tilework.Proofs.Autotile.Turning
import Tilework.Proofs.Number.Exact
import Tilework.Proofs.Autotile.Weights
import Tilework.Proofs.Autotile.Fixed
import Tilework.Proofs.Edit.Repaint
import Tilework.Proofs.Edit.Seam
import Tilework.Proofs.Snapshot.Additions
import Tilework.Proofs.Grid.Clipping
import Tilework.Proofs.Grid.Building
