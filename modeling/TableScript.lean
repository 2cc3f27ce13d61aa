import TableScript.Catalog
import TableScript.Command.FileTree
import TableScript.Command.Options
import TableScript.Command.Run
import TableScript.Command.Search
import TableScript.Command.Storage
import TableScript.Command.Wildcard
import TableScript.Comment
import TableScript.Document.Basic
import TableScript.Document.Display
import TableScript.Document.Misuse
import TableScript.Document.Reader
import TableScript.Document.Writer
import TableScript.Edit
import TableScript.Identifier
import TableScript.Journal.Basic
import TableScript.Journal.Format
import TableScript.Keyword
import TableScript.Lexeme.Letter
import TableScript.Lexeme.Pattern
import TableScript.Lexeme.Rules
import TableScript.Lexeme.Scan
import TableScript.Link
import TableScript.Main
import TableScript.Number.Binary64
import TableScript.Number.Shortest
import TableScript.Parse
import TableScript.Resolution
import TableScript.RoundTrip
import TableScript.Schema.Basic
import TableScript.Schema.Document
import TableScript.Schema.Load
import TableScript.Schema.Write
import TableScript.Script
import TableScript.Statement.Basic
import TableScript.Statement.ColumnType
import TableScript.Statement.Group
import TableScript.Statement.Reader
import TableScript.Text.Blank
import TableScript.Text.CaseRun
import TableScript.Text.DollarTag
import TableScript.Text.Lower
import TableScript.Text.LowerTable
import TableScript.Text.Printable
import TableScript.Text.Surrogate
import TableScript.Text.UnprintableTable
import TableScript.Text.Upper
import TableScript.Text.UpperTable
import TableScript.Text.Utf8
import TableScript.Text.Word
import TableScript.Text.WordTable
import TableScript.Token
import TableScript.Proofs.Lexing.Reach
import TableScript.Proofs.Lexing.Words
import TableScript.Proofs.Lexing.Cut
import TableScript.Proofs.Lexing.Runs
import TableScript.Proofs.Lexing.RunTokens
import TableScript.Proofs.Lexing.Ink
import TableScript.Proofs.Lexing.Uncommented
import TableScript.Proofs.Lexing.Statements
import TableScript.Proofs.Lexing.Joined
import TableScript.Proofs.Lexing.Stripped
import TableScript.Proofs.Lexing.Inserted
import TableScript.Proofs.Lexing.Pieces
import TableScript.Proofs.Commands.Generated
import TableScript.Proofs.Editing.Tidy
import TableScript.Proofs.Editing.Made
import TableScript.Proofs.Editing.Confined
import TableScript.Proofs.Editing.Renaming
import TableScript.Proofs.Linking.Added
import TableScript.Proofs.Linking.Binding
import TableScript.Proofs.Linking.Declared
import TableScript.Proofs.Linking.Deferred
import TableScript.Proofs.Linking.Evolution
import TableScript.Proofs.Linking.Meaning
import TableScript.Proofs.Linking.Modes
import TableScript.Proofs.Linking.OpenReference
import TableScript.Proofs.Linking.Order
import TableScript.Proofs.RoundTrip.Groups
import TableScript.Proofs.RoundTrip.Name
import TableScript.Proofs.RoundTrip.LoneName
import TableScript.Proofs.RoundTrip.TypeShape
import TableScript.Proofs.RoundTrip.Definition
import TableScript.Proofs.RoundTrip.Statement
import TableScript.Proofs.RoundTrip.Script
import TableScript.Proofs.RoundTrip.Linked
import TableScript.Proofs.RoundTrip.Schema
import TableScript.Proofs.Linking.Ordered
import TableScript.Proofs.RoundTrip.Parsed
import TableScript.Proofs.RoundTrip.Rendered
import TableScript.Proofs.Documents.Described
import TableScript.Proofs.Documents.TextNames
import TableScript.Proofs.Reading.Forms
import TableScript.Proofs.Reading.IndexNames
import TableScript.Proofs.Reading.LetterCase
import TableScript.Proofs.Linking.KeyOrder
import TableScript.Proofs.Linking.Quiet
import TableScript.Proofs.Reading.Separated
import TableScript.Proofs.Reading.TypeTaken
import TableScript.Proofs.Documents.Edges
import TableScript.Proofs.Catalogs.Columns
import TableScript.Proofs.Catalogs.Shown
