import ProvideIndex.Cassette.Basic
import ProvideIndex.Cassette.Load
import ProvideIndex.Cassette.Replayer
import ProvideIndex.Cassette.Text
import ProvideIndex.Cassette.World
import ProvideIndex.CommandLine.Message
import ProvideIndex.CommandLine.Parse
import ProvideIndex.CommandLine.Similarity
import ProvideIndex.Disk.Basic
import ProvideIndex.Disk.Fault
import ProvideIndex.Disk.Files
import ProvideIndex.Disk.Resolve
import ProvideIndex.Event
import ProvideIndex.Failure
import ProvideIndex.Formatter
import ProvideIndex.InMemory.Machine
import ProvideIndex.InMemory.World
import ProvideIndex.Label
import ProvideIndex.Main
import ProvideIndex.Manifest
import ProvideIndex.ManifestText
import ProvideIndex.Path
import ProvideIndex.Programs.Basic
import ProvideIndex.Programs.Cat
import ProvideIndex.Programs.ChangeMode
import ProvideIndex.Programs.Conversion
import ProvideIndex.Programs.Echo
import ProvideIndex.Programs.MachineReal
import ProvideIndex.Programs.Printf
import ProvideIndex.Programs.Quoted
import ProvideIndex.Programs.Remove
import ProvideIndex.Programs.Start
import ProvideIndex.Proofs.Regenerate.Exchanges
import ProvideIndex.Proofs.Regenerate.Table
import ProvideIndex.Proofs.Regenerate.Script
import ProvideIndex.Proofs.Run.Course
import ProvideIndex.Proofs.Run.Script
import ProvideIndex.Proofs.Scan.FileTree
import ProvideIndex.Proofs.Scan.Script
import ProvideIndex.Proofs.SymbolTable.Owner
import ProvideIndex.Raw
import ProvideIndex.Regenerate
import ProvideIndex.Request
import ProvideIndex.Run
import ProvideIndex.Scan
import ProvideIndex.Session
import ProvideIndex.Shell.Arithmetic
import ProvideIndex.Shell.Builtins
import ProvideIndex.Shell.Channels
import ProvideIndex.Shell.Commands
import ProvideIndex.Shell.Condition
import ProvideIndex.Shell.Control
import ProvideIndex.Shell.Definitions
import ProvideIndex.Shell.Directory
import ProvideIndex.Shell.Expansion
import ProvideIndex.Shell.Fields
import ProvideIndex.Shell.Globbing
import ProvideIndex.Shell.Grammar
import ProvideIndex.Shell.Input
import ProvideIndex.Shell.Listing
import ProvideIndex.Shell.Options
import ProvideIndex.Shell.Parts
import ProvideIndex.Shell.Pattern
import ProvideIndex.Shell.Printing
import ProvideIndex.Shell.Reading
import ProvideIndex.Shell.Redirecting
import ProvideIndex.Shell.Run
import ProvideIndex.Shell.Signals
import ProvideIndex.Shell.Simple
import ProvideIndex.Shell.Start
import ProvideIndex.Shell.Starting
import ProvideIndex.Shell.State
import ProvideIndex.Shell.Tree
import ProvideIndex.Shell.Variables
import ProvideIndex.Shell.Words
import ProvideIndex.Source.Classify
import ProvideIndex.Source.Declaration
import ProvideIndex.Source.File
import ProvideIndex.StringMap
import ProvideIndex.SymbolTable
import ProvideIndex.TableText
import ProvideIndex.Text.Ascending
import ProvideIndex.Text.Blank
import ProvideIndex.Text.CharClass
import ProvideIndex.Text.Digits
import ProvideIndex.Text.Lossy
import ProvideIndex.Text.Match
import ProvideIndex.Text.Quoted
import ProvideIndex.Text.Split
import ProvideIndex.Text.Terminal
import ProvideIndex.Text.Word
import ProvideIndex.Timestamp
import ProvideIndex.Value.Basic
import ProvideIndex.Value.Binary64
import ProvideIndex.Value.Decimal
import ProvideIndex.Yaml.BlockScalar
import ProvideIndex.Yaml.Chars
import ProvideIndex.Yaml.Cursor
import ProvideIndex.Yaml.Directive
import ProvideIndex.Yaml.Document
import ProvideIndex.Yaml.Fold
import ProvideIndex.Yaml.Node
import ProvideIndex.Yaml.Parser
import ProvideIndex.Yaml.PlainScalar
import ProvideIndex.Yaml.QuotedScalar
import ProvideIndex.Yaml.Scalar
import ProvideIndex.Yaml.ScalarText
import ProvideIndex.Yaml.Scanner
import ProvideIndex.Yaml.Tag
import ProvideIndex.Yaml.Token
import ProvideIndex.Yaml.Write
import ProvideIndex.Proofs.Regenerate.Abort
import ProvideIndex.Proofs.Cassette.Fidelity
import ProvideIndex.Proofs.Regenerate.Replay
import ProvideIndex.Proofs.Path.Join
import ProvideIndex.Proofs.Regenerate.Independence
import ProvideIndex.Proofs.Cassette.Calls
import ProvideIndex.Proofs.Cassette.Ports
import ProvideIndex.Proofs.Regenerate.ListingOrder
import ProvideIndex.Proofs.Regenerate.Literals
import ProvideIndex.Proofs.Regenerate.ManifestFile
import ProvideIndex.Proofs.Regenerate.ManifestPath
import ProvideIndex.Proofs.SymbolTable.FromManifest
import ProvideIndex.Proofs.SymbolTable.Overlay
import ProvideIndex.Proofs.Regenerate.Tabulate
import ProvideIndex.Proofs.Regenerate.Counts
import ProvideIndex.Proofs.Cassette.Consumption
import ProvideIndex.Proofs.Regenerate.Drift
import ProvideIndex.Proofs.Cassette.RoundTrip
import ProvideIndex.Proofs.Manifest.RoundTrip
import ProvideIndex.Proofs.Source.Counted
import ProvideIndex.Proofs.Source.Declarations
import ProvideIndex.Proofs.Source.Lines
import ProvideIndex.Proofs.Source.Classification
import ProvideIndex.Proofs.Source.LineEnds
import ProvideIndex.Proofs.SymbolTable.Clashes
import ProvideIndex.Proofs.Scan.Reports
import ProvideIndex.Proofs.Regenerate.Clashes
import ProvideIndex.Proofs.Scan.Enumeration
import ProvideIndex.Proofs.Label.Collisions
import ProvideIndex.Proofs.Label.Components
import ProvideIndex.Proofs.Regenerate.Decoding
import ProvideIndex.Proofs.Regenerate.ExitStatus
import ProvideIndex.Proofs.Scan.Root
import ProvideIndex.Proofs.Disk.Listing
import ProvideIndex.Proofs.Disk.AtomicWrite
import ProvideIndex.Proofs.Formatter.Command
import ProvideIndex.Proofs.Manifest.WellFormed
