import SketchMerge.Command.Arguments
import SketchMerge.Command.Help
import SketchMerge.Command.Option
import SketchMerge.Command.Run
import SketchMerge.Config.Setting
import SketchMerge.Config.Settings
import SketchMerge.Config.Variant
import SketchMerge.Files.Disk
import SketchMerge.Files.Fault
import SketchMerge.Files.Path
import SketchMerge.Files.Tree
import SketchMerge.Files.Walk
import SketchMerge.Journal.Journal
import SketchMerge.Journal.Note
import SketchMerge.Journal.Voice
import SketchMerge.Main
import SketchMerge.Number.Binary64
import SketchMerge.Number.Numeral
import SketchMerge.Number.Shortest
import SketchMerge.Project.Output
import SketchMerge.Project.Project
import SketchMerge.Prototype.Parameters
import SketchMerge.Prototype.Synthesis
import SketchMerge.Run.Extraction
import SketchMerge.Run.Fault
import SketchMerge.Run.Pipeline
import SketchMerge.Run.Stage
import SketchMerge.Run.World
import SketchMerge.Sketch.Buffer
import SketchMerge.Sketch.Compose
import SketchMerge.Sketch.Source
import SketchMerge.Sketch.Trivia
import SketchMerge.Tag.Line
import SketchMerge.Tag.Record
import SketchMerge.Tag.Tool
import SketchMerge.Text.Blank
import SketchMerge.Text.Cased
import SketchMerge.Text.Digit
import SketchMerge.Text.Glyph
import SketchMerge.Text.Lines
import SketchMerge.Text.Lowercase
import SketchMerge.Text.Pattern
import SketchMerge.Text.Quoted
import SketchMerge.Text.Shown
import SketchMerge.Text.Sort
import SketchMerge.Text.Utf8
import SketchMerge.Yaml.Base64
import SketchMerge.Yaml.Cursor
import SketchMerge.Yaml.Document
import SketchMerge.Yaml.Fault
import SketchMerge.Yaml.Graph
import SketchMerge.Yaml.Load
import SketchMerge.Yaml.ScalarValue
import SketchMerge.Yaml.Scatter
import SketchMerge.Yaml.Time
import SketchMerge.Yaml.Token
import SketchMerge.Yaml.Token.Scalar
import SketchMerge.Yaml.Token.Scan
import SketchMerge.Yaml.TypeTag
import SketchMerge.Proofs.Sketch.Tiling
import SketchMerge.Proofs.Number.Decimal
import SketchMerge.Proofs.Sketch.Presumed
import SketchMerge.Proofs.Sketch.Unified
import SketchMerge.Proofs.Sketch.LineNumbers
import SketchMerge.Proofs.Tag.RoundTrip
import SketchMerge.Proofs.Files.Following
import SketchMerge.Proofs.Files.Resolving
import SketchMerge.Proofs.Files.Standing
import SketchMerge.Proofs.Files.Operations
import SketchMerge.Proofs.Project.Contents
import SketchMerge.Proofs.Project.Preparation
import SketchMerge.Proofs.Run.Agreement
import SketchMerge.Proofs.Prototype.SecondPass
import SketchMerge.Proofs.Prototype.Pieces
import SketchMerge.Proofs.Prototype.Defaults
import SketchMerge.Proofs.Prototype.Literals
import SketchMerge.Proofs.Prototype.OwnSignature
import SketchMerge.Proofs.Prototype.Selection
import SketchMerge.Proofs.Files.Writing
import SketchMerge.Proofs.Run.Course
import SketchMerge.Proofs.Run.Stages
import SketchMerge.Proofs.Run.Faithful
import SketchMerge.Proofs.Run.Failed
import SketchMerge.Proofs.Run.Reordered
import SketchMerge.Proofs.Sketch.SingleInsertion
import SketchMerge.Proofs.Sketch.Origins
import SketchMerge.Proofs.Sketch.InsertionPoint
import SketchMerge.Proofs.Sketch.SegmentLookup
import SketchMerge.Proofs.Journal.Sessions
import SketchMerge.Proofs.Text.Trimming
import SketchMerge.Proofs.Text.Repetition
import SketchMerge.Proofs.Sketch.ForwardScan
import SketchMerge.Proofs.Sketch.LongestTiles
import SketchMerge.Proofs.Cpp.Lexemes
import SketchMerge.Proofs.Cpp.Traps
import SketchMerge.Proofs.Cpp.Alignment
import SketchMerge.Proofs.Cpp.DirectiveEnd
import SketchMerge.Proofs.Sketch.InsertionSafety
import SketchMerge.Proofs.Prototype.LineOrder
import SketchMerge.Proofs.Prototype.Semicolon
import SketchMerge.Proofs.Tag.PrintedLines
import SketchMerge.Proofs.Tag.QuotedSource
import SketchMerge.Proofs.Prototype.TemplateSource
import SketchMerge.Proofs.Prototype.Scanning
import SketchMerge.Proofs.Config.Usable
import SketchMerge.Proofs.Project.MainSketch
import SketchMerge.Proofs.Files.Reaching
import SketchMerge.Proofs.Project.Clearing
