import BuildLog.Command.Driver
import BuildLog.Command.Line
import BuildLog.Command.Quoting
import BuildLog.CommandLine.Convert
import BuildLog.CommandLine.Help
import BuildLog.CommandLine.Listing
import BuildLog.CommandLine.Outcome
import BuildLog.CommandLine.Program
import BuildLog.CommandLine.Switches
import BuildLog.Conversion
import BuildLog.Database.Writer
import BuildLog.Files.Tree
import BuildLog.Header.Build
import BuildLog.Header.Registry
import BuildLog.Header.Session
import BuildLog.Invocation
import BuildLog.Json.Printer
import BuildLog.Json.Reader
import BuildLog.Json.Value
import BuildLog.Machine
import BuildLog.Path
import BuildLog.Record
import BuildLog.Text.Basic
import BuildLog.Text.Blank
import BuildLog.Text.Letter
import BuildLog.Text.Lines
import BuildLog.Text.Numeral
import BuildLog.Text.Paragraph
import BuildLog.Text.Printable
import BuildLog.Text.Quoted
import BuildLog.Text.Terminal
import BuildLog.Text.Utf8
import BuildLog.Text.Wrap
import BuildLog.Transcript.Block
import BuildLog.Transcript.Scanner
import BuildLog.Transcript.Session
import BuildLog.Main
import BuildLog.Proofs.Transcript.Feeding
import BuildLog.Proofs.Transcript.Parts
import BuildLog.Proofs.Command.Escaping
import BuildLog.Proofs.Command.Quoting
import BuildLog.Proofs.Invocation.Walk
import BuildLog.Proofs.Json.Grammar
import BuildLog.Proofs.Json.Outline
import BuildLog.Proofs.Transcript.CompileBlock
import BuildLog.Proofs.Json.Printing
import BuildLog.Proofs.Database.Document
import BuildLog.Proofs.Database.Contents
import BuildLog.Database.Session
import BuildLog.Proofs.Database.Requests
import BuildLog.Proofs.Conversion
import BuildLog.Proofs.Header.Registry
import BuildLog.Proofs.Transcript.Accounting
import BuildLog.Proofs.Transcript.Steps
import BuildLog.Proofs.Command.Recognition
import BuildLog.Proofs.Invocation.Driver
import BuildLog.Proofs.Transcript.KeptDriver
import BuildLog.Proofs.Invocation.Headers
import BuildLog.Proofs.Transcript.MoreHeaders
import BuildLog.Proofs.Transcript.Interruption
import BuildLog.Proofs.Files.Shape
import BuildLog.Proofs.Text.Beginnings
import BuildLog.Proofs.Conversion.Interrupted
import BuildLog.Proofs.CommandLine.Converting
import BuildLog.Proofs.CommandLine.Frame
import BuildLog.Proofs.Command.Words
import BuildLog.Proofs.Transcript.DriverWords
import BuildLog.Proofs.Json.Nesting
import BuildLog.Proofs.CommandLine.Listing
import BuildLog.Proofs.CommandLine.RoundTrip
import BuildLog.Proofs.Header.Build
import BuildLog.Proofs.Header.History
import BuildLog.Proofs.Invocation.Record
import BuildLog.Proofs.Transcript.Failure
import BuildLog.Proofs.Transcript.Presence
import BuildLog.Proofs.CommandLine.Destination
import BuildLog.Proofs.Command.Unquoting
import BuildLog.Proofs.Command.SinglePass
import BuildLog.Proofs.Invocation.SourceFile
import BuildLog.Proofs.Command.Pattern
import BuildLog.Proofs.Transcript.DriverLines
import BuildLog.Proofs.Transcript.Resync
import BuildLog.Proofs.Transcript.Noise
import BuildLog.Proofs.Conversion.Noise
import BuildLog.Proofs.Invocation.BuildSource
import BuildLog.Proofs.Path.Reduction
import BuildLog.Proofs.Path.Normal
import BuildLog.Proofs.Path.Below
import BuildLog.Proofs.CommandLine.Filtering
import BuildLog.Proofs.Header.Names
import BuildLog.Proofs.Transcript.ForeignHeaders
import BuildLog.Proofs.Command.BothWays
import BuildLog.Proofs.Command.Rereading
import BuildLog.Proofs.Text.Matching
import BuildLog.Proofs.Command.EarliestPlaces
import BuildLog.Proofs.CommandLine.Faults
import BuildLog.Text.CodePoint
import BuildLog.Console
import BuildLog.Proofs.Machine
import BuildLog.Proofs.Text.Chunks
import BuildLog.Proofs.Text.Terminal
import BuildLog.Proofs.Json.Numerals
import BuildLog.Proofs.Json.Completeness
import BuildLog.Proofs.Json.Newlines
