import AssetPress.Build.Artifact
import AssetPress.Build.Error
import AssetPress.Build.Request
import AssetPress.Build.Run
import AssetPress.Build.SourceOrder
import AssetPress.Bundle
import AssetPress.CommandLine.Failure
import AssetPress.CommandLine.Flag
import AssetPress.CommandLine.Settings
import AssetPress.CommandLine.Similarity
import AssetPress.Digest.Sha256
import AssetPress.Disk
import AssetPress.Json.Basic
import AssetPress.Json.Reader
import AssetPress.Log.Directive
import AssetPress.Log.Event
import AssetPress.Log.Filter
import AssetPress.Log.Pattern
import AssetPress.Main
import AssetPress.Number.Binary
import AssetPress.Number.Brief
import AssetPress.Number.Decimal
import AssetPress.Number.Digit
import AssetPress.Number.Tenths
import AssetPress.Path
import AssetPress.Press
import AssetPress.Program
import AssetPress.Proofs.Build.Again
import AssetPress.Proofs.Build.Banner
import AssetPress.Proofs.Build.Calls
import AssetPress.Proofs.Build.Commuting
import AssetPress.Proofs.Build.Course
import AssetPress.Proofs.Build.Delivery
import AssetPress.Proofs.Build.Equation
import AssetPress.Proofs.Build.Frame
import AssetPress.Proofs.Build.Halves
import AssetPress.Proofs.Build.Names
import AssetPress.Proofs.Build.Placement
import AssetPress.Proofs.Build.Trace
import AssetPress.Proofs.Build.Versions
import AssetPress.Proofs.Build.Warning
import AssetPress.Proofs.CommandLine.Phrases
import AssetPress.Proofs.CommandLine.Reading
import AssetPress.Proofs.CommandLine.Spelling
import AssetPress.Proofs.CommandLine.Verbosity
import AssetPress.Proofs.Json.RoundTrip
import AssetPress.Proofs.Log.Filter
import AssetPress.Proofs.Path.Lineage
import AssetPress.Proofs.Path.Steps
import AssetPress.Proofs.Program.Agreement
import AssetPress.Proofs.Program.Exit
import AssetPress.Proofs.Program.Logging
import AssetPress.Proofs.Program.Reporting
import AssetPress.Proofs.Report.Json
import AssetPress.Proofs.Results
import AssetPress.Proofs.Script.Beginnings
import AssetPress.Proofs.Script.Gap
import AssetPress.Proofs.Script.Joining
import AssetPress.Proofs.Script.LineEnd
import AssetPress.Proofs.Script.Runs
import AssetPress.Proofs.Script.Seam
import AssetPress.Proofs.Script.Shown
import AssetPress.Proofs.Script.Yields
import AssetPress.Proofs.Session.Again
import AssetPress.Proofs.Session.Bundling
import AssetPress.Proofs.Session.Contents
import AssetPress.Proofs.Session.Directories
import AssetPress.Proofs.Session.Disk
import AssetPress.Proofs.Session.Failures
import AssetPress.Proofs.Session.Inputs
import AssetPress.Proofs.Session.Jobs
import AssetPress.Proofs.Session.Listing
import AssetPress.Proofs.Session.Log
import AssetPress.Proofs.Session.Recording
import AssetPress.Proofs.Session.Saving
import AssetPress.Proofs.Session.Trail
import AssetPress.Proofs.Task
import AssetPress.Proofs.Text.Fields
import AssetPress.Proofs.Text.Utf8
import AssetPress.Proofs.Tree.Directory
import AssetPress.Proofs.Tree.Filling
import AssetPress.Proofs.Tree.Following
import AssetPress.Proofs.Tree.Growth
import AssetPress.Proofs.Tree.Inside
import AssetPress.Proofs.Tree.Linkless
import AssetPress.Proofs.Tree.Listing
import AssetPress.Proofs.Tree.Making
import AssetPress.Proofs.Tree.Texts
import AssetPress.Proofs.Version.Parts
import AssetPress.Report.Json
import AssetPress.Report.Summary
import AssetPress.Script.Cursor
import AssetPress.Script.Fault
import AssetPress.Script.Kind
import AssetPress.Script.Literal
import AssetPress.Script.Name
import AssetPress.Script.Numeral
import AssetPress.Script.Printer
import AssetPress.Script.Reader
import AssetPress.Script.Reading
import AssetPress.Script.Scope
import AssetPress.Script.Syntax
import AssetPress.Script.Target
import AssetPress.Script.Token
import AssetPress.SemanticVersion
import AssetPress.Session
import AssetPress.Style.Color
import AssetPress.Style.Display
import AssetPress.Style.Fault
import AssetPress.Style.Length
import AssetPress.Style.Node
import AssetPress.Style.Piece
import AssetPress.Style.Printer
import AssetPress.Style.Reader
import AssetPress.Style.Selector
import AssetPress.Style.Spelling
import AssetPress.Style.Syntax
import AssetPress.Style.Token
import AssetPress.Style.Value
import AssetPress.Text.Fields
import AssetPress.Text.Letters
import AssetPress.Text.Terminal
import AssetPress.Text.Utf8
import AssetPress.Tree.Basic
import AssetPress.Tree.Location
import AssetPress.Tree.Operations
import AssetPress.Tree.Walk
