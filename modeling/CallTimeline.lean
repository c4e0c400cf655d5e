import CallTimeline.Annotation.Layer
import CallTimeline.Annotation.Merge
import CallTimeline.Archive
import CallTimeline.Calendar
import CallTimeline.Command.Annotate
import CallTimeline.Command.Arguments
import CallTimeline.Command.Build
import CallTimeline.Fault
import CallTimeline.FileTree.Locate
import CallTimeline.FileTree.Node
import CallTimeline.FileTree.Path
import CallTimeline.FileTree.RealPath
import CallTimeline.Json.Convert
import CallTimeline.Json.Display
import CallTimeline.Json.Encoding
import CallTimeline.Json.Name
import CallTimeline.Json.Reader
import CallTimeline.Json.Stream
import CallTimeline.Json.Value
import CallTimeline.Json.Writer
import CallTimeline.Kernel.Release
import CallTimeline.Kernel.Symbol
import CallTimeline.Main
import CallTimeline.Number.Double
import CallTimeline.Number.Literal
import CallTimeline.Number.Places
import CallTimeline.Number.Shortest
import CallTimeline.Proofs.Annotation.Composition
import CallTimeline.Proofs.Annotation.Locality
import CallTimeline.Proofs.Annotation.Objects
import CallTimeline.Proofs.Annotation.Records
import CallTimeline.Proofs.Archive
import CallTimeline.Proofs.Archive.Database
import CallTimeline.Proofs.Archive.Documents
import CallTimeline.Proofs.Archive.Sources
import CallTimeline.Proofs.Command.Arguments
import CallTimeline.Proofs.Command.Building
import CallTimeline.Proofs.Command.Exits
import CallTimeline.Proofs.FileTree.Listings
import CallTimeline.Proofs.FileTree.Making
import CallTimeline.Proofs.FileTree.Reading
import CallTimeline.Proofs.FileTree.Removing
import CallTimeline.Proofs.FileTree.Steps
import CallTimeline.Proofs.FileTree.WorkingDirectory
import CallTimeline.Proofs.FileTree.Writing
import CallTimeline.Proofs.Json.Dialects
import CallTimeline.Proofs.Json.Fields
import CallTimeline.Proofs.Json.Names
import CallTimeline.Proofs.Json.Parts
import CallTimeline.Proofs.Json.Plain
import CallTimeline.Proofs.Json.Reaching
import CallTimeline.Proofs.Json.RoundTrip
import CallTimeline.Proofs.Json.Scalars
import CallTimeline.Proofs.Json.Streaming
import CallTimeline.Proofs.Json.Strings
import CallTimeline.Proofs.Number.Bits
import CallTimeline.Proofs.Number.Rounding
import CallTimeline.Proofs.Number.Shortest
import CallTimeline.Proofs.Number.Written
import CallTimeline.Proofs.Results
import CallTimeline.Proofs.Service.Answer
import CallTimeline.Proofs.Service.Pages
import CallTimeline.Proofs.Service.Records
import CallTimeline.Proofs.Service.Requests
import CallTimeline.Proofs.Service.Uploads
import CallTimeline.Proofs.Session
import CallTimeline.Proofs.Source.Batch
import CallTimeline.Proofs.Source.Braces
import CallTimeline.Proofs.Source.Call
import CallTimeline.Proofs.Source.CalledName
import CallTimeline.Proofs.Source.Canonical
import CallTimeline.Proofs.Source.CommentedLines
import CallTimeline.Proofs.Source.Complete
import CallTimeline.Proofs.Source.Database
import CallTimeline.Proofs.Source.Enumeration
import CallTimeline.Proofs.Source.Exhaustive
import CallTimeline.Proofs.Source.Extraction
import CallTimeline.Proofs.Source.LineBalance
import CallTimeline.Proofs.Source.LineNumbers
import CallTimeline.Proofs.Source.LineRanges
import CallTimeline.Proofs.Source.Marks
import CallTimeline.Proofs.Source.Opening
import CallTimeline.Proofs.Source.Paths
import CallTimeline.Proofs.Source.PlainSearch
import CallTimeline.Proofs.Source.Scanner
import CallTimeline.Proofs.Source.Shape
import CallTimeline.Proofs.Source.Strip
import CallTimeline.Proofs.Source.Walk
import CallTimeline.Proofs.Source.Window
import CallTimeline.Proofs.Text.Lines
import CallTimeline.Proofs.Text.Trim
import CallTimeline.Proofs.Text.Utf8
import CallTimeline.Proofs.Timeline.Document
import CallTimeline.Proofs.Timeline.Entries
import CallTimeline.Proofs.Timeline.File
import CallTimeline.Proofs.Trace.Cpus
import CallTimeline.Proofs.Trace.Duration
import CallTimeline.Proofs.Trace.Exit
import CallTimeline.Proofs.Trace.Faults
import CallTimeline.Proofs.Trace.Forest
import CallTimeline.Proofs.Trace.Layout
import CallTimeline.Proofs.Trace.OpenCalls
import CallTimeline.Proofs.Trace.Reading
import CallTimeline.Proofs.Trace.Snapshot
import CallTimeline.Proofs.Trace.Stacks
import CallTimeline.Proofs.Workflow.Agreement
import CallTimeline.Proofs.Workflow.Annotation
import CallTimeline.Proofs.Workflow.File
import CallTimeline.Proofs.Workflow.Plan
import CallTimeline.Proofs.Workflow.Publishing
import CallTimeline.Proofs.Workflow.TraceFile
import CallTimeline.Service.Api
import CallTimeline.Service.Upload
import CallTimeline.Session
import CallTimeline.Source.Batch
import CallTimeline.Source.Body
import CallTimeline.Source.Code
import CallTimeline.Source.Definition
import CallTimeline.Source.Files
import CallTimeline.Source.Location
import CallTimeline.Source.Search
import CallTimeline.Source.Settings
import CallTimeline.Source.Shelf
import CallTimeline.Text.AsciiFold
import CallTimeline.Text.Blank
import CallTimeline.Text.Digit
import CallTimeline.Text.Lines
import CallTimeline.Text.LowerCase
import CallTimeline.Text.Printable
import CallTimeline.Text.Quoted
import CallTimeline.Text.Search
import CallTimeline.Text.Utf8
import CallTimeline.Text.Word
import CallTimeline.Timeline.Buffer
import CallTimeline.Timeline.Build
import CallTimeline.Timeline.Direction
import CallTimeline.Timeline.Document
import CallTimeline.Timeline.Elapsed
import CallTimeline.Timeline.Entry
import CallTimeline.Trace.Body
import CallTimeline.Trace.Columns
import CallTimeline.Trace.Duration
import CallTimeline.Trace.Event
import CallTimeline.Trace.Replay
import CallTimeline.Workflow.Annotate
import CallTimeline.Workflow.Build
import CallTimeline.Proofs.Trace.Quiet
import CallTimeline.Proofs.Trace.Rows
import CallTimeline.Proofs.Timeline.Buffers
import CallTimeline.Proofs.Timeline.Directions
import CallTimeline.Proofs.Timeline.Summary
import CallTimeline.Proofs.Trace.Accounts
import CallTimeline.Proofs.Source.Clones
import CallTimeline.Proofs.Archive.Reading
import CallTimeline.Proofs.Timeline.Records
