import XmlStore.CommandLine.Arguments
import XmlStore.CommandLine.Command
import XmlStore.CommandLine.Help
import XmlStore.CommandLine.Level
import XmlStore.CommandLine.Report
import XmlStore.CommandLine.Run
import XmlStore.Json.Basic
import XmlStore.Json.Printer
import XmlStore.Json.Reader
import XmlStore.Locator.Basic
import XmlStore.Locator.Builder
import XmlStore.Locator.Error
import XmlStore.Locator.Parser
import XmlStore.Locator.Printer
import XmlStore.Main
import XmlStore.Name
import XmlStore.Proofs.Json.Rereading
import XmlStore.Proofs.Locator.Building
import XmlStore.Proofs.Locator.Cursor
import XmlStore.Proofs.Locator.Faults
import XmlStore.Proofs.Locator.Grammar
import XmlStore.Proofs.Locator.Rendering
import XmlStore.Proofs.Locator.Rereading
import XmlStore.Proofs.Names
import XmlStore.Proofs.Outcomes
import XmlStore.Proofs.Service.Aftermath
import XmlStore.Proofs.Service.Alone
import XmlStore.Proofs.Service.Clients
import XmlStore.Proofs.Service.Connections
import XmlStore.Proofs.Service.Content
import XmlStore.Proofs.Service.Deletion
import XmlStore.Proofs.Service.Edited
import XmlStore.Proofs.Service.Effects
import XmlStore.Proofs.Service.Counting
import XmlStore.Proofs.Service.Filters
import XmlStore.Proofs.Service.Framing
import XmlStore.Proofs.Service.Guarded
import XmlStore.Proofs.Service.Handles
import XmlStore.Proofs.Service.Identity
import XmlStore.Proofs.Service.Interchange
import XmlStore.Proofs.Service.Interleaving
import XmlStore.Proofs.Service.NormalForm
import XmlStore.Proofs.Service.Occasions
import XmlStore.Proofs.Service.ReadBack
import XmlStore.Proofs.Service.Readings
import XmlStore.Proofs.Service.Records
import XmlStore.Proofs.Service.Refinement
import XmlStore.Proofs.Service.Renaming
import XmlStore.Proofs.Service.Serializability
import XmlStore.Proofs.Service.Snapshots
import XmlStore.Proofs.Service.Times
import XmlStore.Proofs.Service.Traces
import XmlStore.Proofs.Service.Verdicts
import XmlStore.Proofs.Service.Written
import XmlStore.Proofs.Store.Consistent
import XmlStore.Proofs.Store.Contents
import XmlStore.Proofs.Store.Counter
import XmlStore.Proofs.Store.File
import XmlStore.Proofs.Store.Image
import XmlStore.Proofs.Store.Loading
import XmlStore.Proofs.Store.Table
import XmlStore.Proofs.Store.Titles
import XmlStore.Proofs.Text.Digits
import XmlStore.Proofs.Text.Trim
import XmlStore.Proofs.Xml.Accepted
import XmlStore.Proofs.Xml.Addresses
import XmlStore.Proofs.Xml.Arena
import XmlStore.Proofs.Xml.Attributes
import XmlStore.Proofs.Xml.Building
import XmlStore.Proofs.Xml.Built
import XmlStore.Proofs.Xml.Changes
import XmlStore.Proofs.Xml.Coherence
import XmlStore.Proofs.Xml.Content
import XmlStore.Proofs.Xml.Contexts
import XmlStore.Proofs.Xml.Edits
import XmlStore.Proofs.Xml.Ends
import XmlStore.Proofs.Xml.Escaping
import XmlStore.Proofs.Xml.Forest
import XmlStore.Proofs.Xml.Fragments
import XmlStore.Proofs.Xml.Indentation
import XmlStore.Proofs.Xml.Links
import XmlStore.Proofs.Xml.Locality
import XmlStore.Proofs.Xml.Marks
import XmlStore.Proofs.Xml.Markup
import XmlStore.Proofs.Xml.Openings
import XmlStore.Proofs.Xml.Predicates
import XmlStore.Proofs.Xml.Preservation
import XmlStore.Proofs.Xml.Pruning
import XmlStore.Proofs.Xml.Relinking
import XmlStore.Proofs.Xml.Rereading
import XmlStore.Proofs.Xml.RoundTrip
import XmlStore.Proofs.Xml.Selection
import XmlStore.Proofs.Xml.Shapes
import XmlStore.Proofs.Xml.Sorting
import XmlStore.Proofs.Xml.Traversal
import XmlStore.Service.Documents
import XmlStore.Service.Editing
import XmlStore.Service.Error
import XmlStore.Service.Operation
import XmlStore.Service.Reading
import XmlStore.Service.Session
import XmlStore.Store.Directory
import XmlStore.Store.Error
import XmlStore.Store.File
import XmlStore.Store.Image
import XmlStore.Store.Interference
import XmlStore.Store.Memory
import XmlStore.Store.Path
import XmlStore.Store.Row
import XmlStore.Store.Statement
import XmlStore.Store.Table
import XmlStore.Text.Alphabetic
import XmlStore.Text.Basic
import XmlStore.Text.Digits
import XmlStore.Text.Numeric
import XmlStore.Text.Quoted
import XmlStore.Text.Terminal
import XmlStore.Xml.Arena
import XmlStore.Xml.Assembly
import XmlStore.Xml.Building
import XmlStore.Xml.Document
import XmlStore.Xml.Edit
import XmlStore.Xml.Error
import XmlStore.Xml.Escape
import XmlStore.Xml.Forest
import XmlStore.Xml.Printer
import XmlStore.Xml.Reader
import XmlStore.Xml.Reference
import XmlStore.Xml.Scanner
import XmlStore.Xml.Select
import XmlStore.Xml.Tag
