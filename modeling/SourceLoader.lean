import SourceLoader.Canonical
import SourceLoader.Fault
import SourceLoader.Host.Basic
import SourceLoader.Host.Lookup
import SourceLoader.Json.Basic
import SourceLoader.Json.Reader
import SourceLoader.Log.Clock
import SourceLoader.Log.Journal
import SourceLoader.Log.Message
import SourceLoader.Log.Record
import SourceLoader.Log.Thrown
import SourceLoader.Main
import SourceLoader.Notice
import SourceLoader.Options.Settings
import SourceLoader.Options.Usage
import SourceLoader.Options.Word
import SourceLoader.Path.Basic
import SourceLoader.Path.Lexical
import SourceLoader.Program
import SourceLoader.Proofs.Host.Access
import SourceLoader.Proofs.Host.Canonicalize
import SourceLoader.Proofs.Host.Depth
import SourceLoader.Proofs.Host.Descent
import SourceLoader.Proofs.Host.ExtraFile
import SourceLoader.Proofs.Host.Growth
import SourceLoader.Proofs.Host.Leading
import SourceLoader.Proofs.Host.Linkfree
import SourceLoader.Proofs.Host.Moved
import SourceLoader.Proofs.Host.Rebuild
import SourceLoader.Proofs.Host.Resolution
import SourceLoader.Proofs.Host.Retraction
import SourceLoader.Proofs.Host.Route
import SourceLoader.Proofs.Json.Characters
import SourceLoader.Proofs.Json.RoundTrip
import SourceLoader.Proofs.Json.Sorted
import SourceLoader.Proofs.Log.Delivery
import SourceLoader.Proofs.Log.Failed
import SourceLoader.Proofs.Log.Handlers
import SourceLoader.Proofs.Log.Line
import SourceLoader.Proofs.Log.Report
import SourceLoader.Proofs.Log.Writable
import SourceLoader.Proofs.Options.Interleaving
import SourceLoader.Proofs.Options.Silence
import SourceLoader.Proofs.Options.Values
import SourceLoader.Proofs.Path.Absolute
import SourceLoader.Proofs.Path.Anchor
import SourceLoader.Proofs.Path.Canonical
import SourceLoader.Proofs.Path.Location
import SourceLoader.Proofs.Path.Order
import SourceLoader.Proofs.Path.RootName
import SourceLoader.Proofs.Program.Allowance
import SourceLoader.Proofs.Program.Ending
import SourceLoader.Proofs.Program.Inputs
import SourceLoader.Proofs.Program.Logging
import SourceLoader.Proofs.Program.Report
import SourceLoader.Proofs.Program.Steps
import SourceLoader.Proofs.Registry
import SourceLoader.Proofs.Run.Nesting
import SourceLoader.Proofs.Session.Audit
import SourceLoader.Proofs.Session.Denial
import SourceLoader.Proofs.Session.Failure
import SourceLoader.Proofs.Session.Granting
import SourceLoader.Proofs.Session.Invariant
import SourceLoader.Proofs.Session.Moved
import SourceLoader.Proofs.Session.Naming
import SourceLoader.Proofs.Session.Reading
import SourceLoader.Proofs.Session.Search
import SourceLoader.Proofs.Session.SearchPath
import SourceLoader.Proofs.Session.Tame
import SourceLoader.Proofs.Session.Visibility
import SourceLoader.Proofs.Session.Writes
import SourceLoader.Proofs.Text.Basic
import SourceLoader.Proofs.Text.Utf8
import SourceLoader.Registry
import SourceLoader.Sandbox
import SourceLoader.Session
import SourceLoader.Text.Basic
import SourceLoader.Text.CaseTable
import SourceLoader.Text.PrintableTable
import SourceLoader.Text.Unicode
