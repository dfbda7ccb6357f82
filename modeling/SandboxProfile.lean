import SandboxProfile.Command.Arguments
import SandboxProfile.Command.Basic
import SandboxProfile.Command.Note
import SandboxProfile.Command.Run
import SandboxProfile.Config.Basic
import SandboxProfile.Config.Load
import SandboxProfile.Config.Setting
import SandboxProfile.Decimal.Binary64
import SandboxProfile.Decimal.Shortest
import SandboxProfile.Fault
import SandboxProfile.FileTree.Access
import SandboxProfile.FileTree.Basic
import SandboxProfile.FileTree.Path
import SandboxProfile.Glob
import SandboxProfile.Highlight.Line
import SandboxProfile.Highlight.Pattern
import SandboxProfile.Highlight.Span
import SandboxProfile.Indent
import SandboxProfile.Json.Basic
import SandboxProfile.Json.Printer
import SandboxProfile.Json.Reader
import SandboxProfile.Json.Rendering
import SandboxProfile.Keyword.Builtin
import SandboxProfile.Keyword.Catalog
import SandboxProfile.Keyword.Category
import SandboxProfile.Keyword.Extra
import SandboxProfile.Main
import SandboxProfile.Profile.Basic
import SandboxProfile.Profile.Discovery
import SandboxProfile.Profile.Reading
import SandboxProfile.Report.Rendered
import SandboxProfile.Report.Semantic
import SandboxProfile.Report.Spans
import SandboxProfile.Runs
import SandboxProfile.Terminal.Drawing
import SandboxProfile.Terminal.Markup
import SandboxProfile.Terminal.Painted
import SandboxProfile.Terminal.Render
import SandboxProfile.Terminal.Sequence
import SandboxProfile.Terminal.Style
import SandboxProfile.Text.Base64
import SandboxProfile.Text.Basic
import SandboxProfile.Text.Blank
import SandboxProfile.Text.DecimalDigit
import SandboxProfile.Text.Integer
import SandboxProfile.Text.Line
import SandboxProfile.Text.Printable
import SandboxProfile.Text.Quoted
import SandboxProfile.Text.Utf8
import SandboxProfile.Token.Basic
import SandboxProfile.Token.Lexer
import SandboxProfile.Toml.Draft
import SandboxProfile.Toml.Reader
import SandboxProfile.Toml.Scalar
import SandboxProfile.Value.Basic
import SandboxProfile.Value.Calendar
import SandboxProfile.Value.Literal
import SandboxProfile.Yaml.Cursor
import SandboxProfile.Yaml.Node.Basic
import SandboxProfile.Yaml.Node.Grammar
import SandboxProfile.Yaml.Reader
import SandboxProfile.Yaml.Scalar
import SandboxProfile.Yaml.Tag
import SandboxProfile.Yaml.Token.Basic
import SandboxProfile.Yaml.Token.Property
import SandboxProfile.Yaml.Token.Scalar
import SandboxProfile.Yaml.Token.Stream
import SandboxProfile.Proofs.Except
import SandboxProfile.Proofs.Runs
import SandboxProfile.Proofs.Text.Ends
import SandboxProfile.Proofs.Text.Line
import SandboxProfile.Proofs.Text.Utf8
import SandboxProfile.Proofs.Value.Literal
import SandboxProfile.Proofs.Value.Plain
import SandboxProfile.Proofs.Token.Lexer
import SandboxProfile.Proofs.Highlight.Pattern
import SandboxProfile.Proofs.Highlight.Column
import SandboxProfile.Proofs.Highlight.Painting
import SandboxProfile.Proofs.Token.Lexeme
import SandboxProfile.Proofs.Token.Lexing
import SandboxProfile.Proofs.Highlight.Shift
import SandboxProfile.Proofs.Indent.Lines
import SandboxProfile.Proofs.Indent.Breaks
import SandboxProfile.Proofs.Indent.Limits
import SandboxProfile.Proofs.Indent.Meaning
import SandboxProfile.Proofs.Cutting
import SandboxProfile.Proofs.Json.Strings
import SandboxProfile.Proofs.Json.Values
import SandboxProfile.Proofs.Report.Reading
import SandboxProfile.Proofs.Report.Semantic
import SandboxProfile.Proofs.Terminal.Sequence
import SandboxProfile.Proofs.Terminal.Pieces
import SandboxProfile.Proofs.Terminal.Expansion
import SandboxProfile.Proofs.Terminal.Shown
import SandboxProfile.Proofs.Terminal.Colour
import SandboxProfile.Proofs.Terminal.Alignment
import SandboxProfile.Proofs.FileTree.Access
import SandboxProfile.Proofs.FileTree.Alike
import SandboxProfile.Proofs.FileTree.Listing
import SandboxProfile.Proofs.FileTree.Path
import SandboxProfile.Proofs.Config.Setting
import SandboxProfile.Proofs.Config.Load
import SandboxProfile.Proofs.Config.Origin
import SandboxProfile.Proofs.Keyword.Extra
import SandboxProfile.Proofs.Keyword.Order
import SandboxProfile.Proofs.Keyword.Resolution
import SandboxProfile.Proofs.Config.Usable
import SandboxProfile.Proofs.Config.Override
import SandboxProfile.Proofs.Keyword.Listed
import SandboxProfile.Proofs.Profile.Discovery
import SandboxProfile.Proofs.Profile.Reading
import SandboxProfile.Proofs.Command.Loading
import SandboxProfile.Proofs.Command.Writing
import SandboxProfile.Proofs.Command.Modes
import SandboxProfile.Proofs.Command.Input
import SandboxProfile.Proofs.Command.Session
import SandboxProfile.Proofs.Command.Unreadable
import SandboxProfile.Proofs.Command.Faults
import SandboxProfile.Proofs.Indent.Accepted
import SandboxProfile.Proofs.Command.Checking
import SandboxProfile.Proofs.Indent.Width
import SandboxProfile.Proofs.Endings
import SandboxProfile.Proofs.Highlight.Word
import SandboxProfile.Proofs.Highlight.Records
import SandboxProfile.Proofs.Highlight.Comment
import SandboxProfile.Proofs.Highlight.Extension
import SandboxProfile.Proofs.Report.Placing
import SandboxProfile.Proofs.Config.Accepted
import SandboxProfile.Proofs.Keyword.Files
import SandboxProfile.Proofs.Keyword.Views
import SandboxProfile.Proofs.Text.Sequence
import SandboxProfile.Proofs.Command.Exact
import SandboxProfile.Proofs.Terminal.Plain
import SandboxProfile.Proofs.Profile.Found
import SandboxProfile.Proofs.Command.Directories
