import Roster.CommandLine.Help
import Roster.CommandLine.Invocation
import Roster.CommandLine.Parameter
import Roster.CommandLine.Run
import Roster.CommandLine.Word
import Roster.Configuration
import Roster.Configuration.Wide
import Roster.Datum
import Roster.Decimal
import Roster.Export
import Roster.Export.Wide
import Roster.Log
import Roster.Main
import Roster.Proofs.CommandLine.Claims
import Roster.Proofs.CommandLine.Ending
import Roster.Proofs.CommandLine.EqualSources
import Roster.Proofs.CommandLine.Exporting
import Roster.Proofs.CommandLine.NoTrace
import Roster.Proofs.CommandLine.OneSource
import Roster.Proofs.CommandLine.OutputFile
import Roster.Proofs.CommandLine.OutputOption
import Roster.Proofs.CommandLine.PlainWords
import Roster.Proofs.CommandLine.ShownTable
import Roster.Proofs.CommandLine.SourceSelection
import Roster.Proofs.CommandLine.TerminalExport
import Roster.Proofs.CommandLine.Unforeseen
import Roster.Proofs.CommandLine.Usage
import Roster.Proofs.CommandLine.WordReading
import Roster.Proofs.Configuration.Attempts
import Roster.Proofs.Configuration.Built
import Roster.Proofs.Configuration.Printed
import Roster.Proofs.Configuration.Refusal
import Roster.Proofs.Configuration.Wide
import Roster.Proofs.Export.AllOrNothing
import Roster.Proofs.Export.CroppedDocument
import Roster.Proofs.Export.DescriptorTypes
import Roster.Proofs.Export.LastWrite
import Roster.Proofs.Export.LegalTarget
import Roster.Proofs.Export.PlainText
import Roster.Proofs.Export.ReadBack
import Roster.Proofs.Export.TextFormat
import Roster.Proofs.Export.Wide
import Roster.Proofs.Export.YamlDocument
import Roster.Proofs.Outcome
import Roster.Proofs.Source.ArgumentList
import Roster.Proofs.Source.Built
import Roster.Proofs.Source.CommentBody
import Roster.Proofs.Source.DocumentShape
import Roster.Proofs.Source.EmptyDocument
import Roster.Proofs.Source.FileForm
import Roster.Proofs.Source.FileText
import Roster.Proofs.Source.IllFormedFile
import Roster.Proofs.Source.Listing
import Roster.Proofs.Source.Nodes
import Roster.Proofs.Source.OtherKeys
import Roster.Proofs.Source.PlainFile
import Roster.Proofs.Source.Rereading
import Roster.Proofs.Source.YamlFile
import Roster.Proofs.Storage.Replace
import Roster.Proofs.Storage.View
import Roster.Proofs.Terminal.Cells
import Roster.Proofs.Terminal.CroppedExport
import Roster.Proofs.Terminal.EmojiCodes
import Roster.Proofs.Terminal.EscapedText
import Roster.Proofs.Terminal.Legible
import Roster.Proofs.Terminal.MarkupPieces
import Roster.Proofs.Terminal.Screen
import Roster.Proofs.Terminal.ShownExport
import Roster.Proofs.Terminal.ShownLine
import Roster.Proofs.Terminal.ShownText
import Roster.Proofs.Terminal.TableLines
import Roster.Proofs.Terminal.UserText
import Roster.Proofs.Terminal.Wrapping
import Roster.Proofs.Text.Comment
import Roster.Proofs.Text.CommentStart
import Roster.Proofs.Text.Cropped
import Roster.Proofs.Text.Decomposition
import Roster.Proofs.Text.Spacing
import Roster.Proofs.Text.Unbroken
import Roster.Proofs.Text.Utf8
import Roster.Proofs.Text.WellFormed
import Roster.Proofs.Text.Wide
import Roster.Proofs.Text.Words
import Roster.Proofs.Yaml.Arrival
import Roster.Proofs.Yaml.BlockStream
import Roster.Proofs.Yaml.Character
import Roster.Proofs.Yaml.CoreSchema
import Roster.Proofs.Yaml.CroppedEntry
import Roster.Proofs.Yaml.CroppedQuoted
import Roster.Proofs.Yaml.Cursor
import Roster.Proofs.Yaml.EmptyDocument
import Roster.Proofs.Yaml.EntryLines
import Roster.Proofs.Yaml.Escape
import Roster.Proofs.Yaml.FlowStream
import Roster.Proofs.Yaml.Grammar
import Roster.Proofs.Yaml.Meaning
import Roster.Proofs.Yaml.Opening
import Roster.Proofs.Yaml.OpeningGrammar
import Roster.Proofs.Yaml.Plain
import Roster.Proofs.Yaml.PlainKey
import Roster.Proofs.Yaml.Portable
import Roster.Proofs.Yaml.Quoted
import Roster.Proofs.Yaml.QuotedLine
import Roster.Proofs.Yaml.Rendered
import Roster.Proofs.Yaml.SequenceDocument
import Roster.Proofs.Yaml.VersionInForce
import Roster.Source
import Roster.Source.Reader
import Roster.Storage.Path
import Roster.Storage.Store
import Roster.Terminal.CellWidth
import Roster.Terminal.Cluster
import Roster.Terminal.Display
import Roster.Terminal.Emoji
import Roster.Terminal.Markup
import Roster.Terminal.Table
import Roster.Terminal.Wrap
import Roster.Text.Blank
import Roster.Text.CharacterClass
import Roster.Text.Comment
import Roster.Text.Lines
import Roster.Text.Quoted
import Roster.Text.Utf8
import Roster.Text.Wide
import Roster.Yaml.Character
import Roster.Yaml.Document
import Roster.Yaml.Error
import Roster.Yaml.Implicit
import Roster.Yaml.Mark
import Roster.Yaml.Node
import Roster.Yaml.Presentation
import Roster.Yaml.Token
import Roster.Yaml.Token.BlockScalar
import Roster.Yaml.Token.LineBreak
import Roster.Yaml.Token.Plain
import Roster.Yaml.Token.Property
import Roster.Yaml.Token.Quoted
import Roster.Yaml.Token.Stream
