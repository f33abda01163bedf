import IoSource.Base64
import IoSource.Cleanup
import IoSource.Command.Arguments
import IoSource.Command.Help
import IoSource.Command.Run
import IoSource.Command.Setting
import IoSource.Command.Task
import IoSource.Comment
import IoSource.Configuration
import IoSource.Files.Path
import IoSource.Files.Portion
import IoSource.Files.Tree
import IoSource.Files.Utf8
import IoSource.Highlight.Category
import IoSource.Highlight.Span
import IoSource.Indent.Edit
import IoSource.Indent.Estimate
import IoSource.Indent.History
import IoSource.Indent.TabWidth
import IoSource.Interpreter.Bridge
import IoSource.Json.Basic
import IoSource.Json.Reader
import IoSource.Json.Writer
import IoSource.Log
import IoSource.Main
import IoSource.NormalForm
import IoSource.Number.Binary
import IoSource.Number.Digits
import IoSource.Number.Literal
import IoSource.Number.Mixed
import IoSource.Number.Shortest
import IoSource.Platform
import IoSource.Report
import IoSource.Text.Basic
import IoSource.Text.Line
import IoSource.Text.Lowercase
import IoSource.Text.Order
import IoSource.Text.Pattern
import IoSource.Text.Printable
import IoSource.Text.Quoted
import IoSource.Text.Run
import IoSource.Text.Spaces
import IoSource.Text.Wide
import IoSource.Time.Timestamp
import IoSource.Value
import IoSource.Yaml.Anchor
import IoSource.Yaml.Datum
import IoSource.Yaml.Error
import IoSource.Yaml.Node
import IoSource.Yaml.Reader
import IoSource.Yaml.Scalar
import IoSource.Yaml.SetOrder
import IoSource.Yaml.Source
import IoSource.Yaml.Spot
import IoSource.Yaml.Tag
import IoSource.Yaml.Token
import IoSource.Yaml.Token.Block
import IoSource.Yaml.Token.Name
import IoSource.Yaml.Token.Plain
import IoSource.Yaml.Token.Quoted
import IoSource.Yaml.Token.Stream
import IoSource.Yaml.Writer
import IoSource.Proofs.Text.Gap
import IoSource.Proofs.Text.Runs
import IoSource.Proofs.NormalForm.OnePass
import IoSource.Proofs.Text.Match
import IoSource.Proofs.Text.Pieces
import IoSource.Proofs.Comment.Scan
import IoSource.Proofs.Comment.Erase
import IoSource.Proofs.Comment.Invisible
import IoSource.Proofs.Comment.Grammar
import IoSource.Proofs.NormalForm.Seam
import IoSource.Proofs.NormalForm.Normal
import IoSource.Proofs.NormalForm.LineEnds
import IoSource.Proofs.Highlight.Precedence
import IoSource.Proofs.Highlight.Seam
import IoSource.Proofs.Files.Utf8
import IoSource.Proofs.Files.Stored
import IoSource.Proofs.Files.Write
import IoSource.Platform
import IoSource.Proofs.Run
import IoSource.Proofs.Interpreter.Run
import IoSource.Proofs.Interpreter.Framing
import IoSource.Proofs.Interpreter.Accounts
import IoSource.Proofs.Cleanup.Settled
import IoSource.Proofs.Cleanup.Lines
import IoSource.Proofs.Command.Writes
import IoSource.Proofs.Command.Recheck
import IoSource.Proofs.Indent.Edit
import IoSource.Proofs.Indent.Code
import IoSource.Proofs.Highlight.Comments
import IoSource.Proofs.Text.Order
import IoSource.Proofs.Number.Digits
import IoSource.Proofs.Json.Document
import IoSource.Proofs.Json.Grammar
import IoSource.Proofs.Json.Reading
import IoSource.Proofs.Json.Compact
import IoSource.Proofs.Json.Value
import IoSource.Proofs.Json.Canonical
import IoSource.Proofs.Highlight.Literals
import IoSource.Proofs.Highlight.Identifiers
import IoSource.Proofs.Highlight.Operators
import IoSource.Proofs.Highlight.Classify
import IoSource.Proofs.Highlight.WholeComment
import IoSource.Proofs.Indent.Above
import IoSource.Proofs.Indent.Columns
import IoSource.Proofs.Indent.Break
import IoSource.Proofs.Indent.Reindent
import IoSource.Proofs.Indent.Unchanged
import IoSource.Proofs.Indent.Cycle
import IoSource.Proofs.Command.Listing
import IoSource.Proofs.NormalForm.Bracket
import IoSource.Proofs.Indent.Payload
import IoSource.Proofs.NormalForm.Statements
import IoSource.Proofs.Highlight.Offsets
import IoSource.Proofs.Indent.Failure
import IoSource.Proofs.Indent.FromEnd
import IoSource.Proofs.Indent.Views
import IoSource.Proofs.Indent.TabStops
import IoSource.Proofs.Yaml.Entries
import IoSource.Proofs.Yaml.Alike
import IoSource.Proofs.Yaml.Nodes
import IoSource.Proofs.Yaml.Sources
import IoSource.Proofs.Yaml.Building
import IoSource.Proofs.Yaml.Stores
import IoSource.Proofs.Configuration.Merging
import IoSource.Proofs.Configuration.Defaults
import IoSource.Proofs.Configuration.Overriding
import IoSource.Proofs.Configuration.Loading
import IoSource.Proofs.Command.SetUp
import IoSource.Proofs.Command.Exit
