import Roster.Export
import Roster.Terminal.Markup
import Roster.Terminal.Table

/-!
# What the terminal shows

The views of the command line: the header, a configuration, an export, and the
lines about success and failure. Foreign text is escaped where it becomes part of a
markup; descriptors and exports show without markup.
-/

namespace Roster.Terminal

/-- Lines as one text. -/
def textOfLines (lines : List (List Char)) : String :=
  String.ofList (lines.flatMap fun line => line ++ ['\n'])

/-- What is visible of a markup. -/
def shownMarkup (pictures : Emoji.Pictures) (markup : List Char) : List Char :=
  visible (Markup.render pictures markup)

/-- A markup as wrapped lines. -/
def markupText (pictures : Emoji.Pictures) (markup : List Char) : String :=
  textOfLines (wrap screenWidth (shownMarkup pictures markup))

/-- The line about a failure, with pictures for emoji codes. -/
def errorTextWith (pictures : Emoji.Pictures) (message : String) : String :=
  markupText pictures ("[bold red]Error:[/bold red] ".toList ++ Markup.escape message.toList)

/-- The line about a failure. -/
def errorText (message : String) : String := errorTextWith Emoji.known message

/-- The line about a written file, with pictures for emoji codes. -/
def writtenTextWith (pictures : Emoji.Pictures) (count : Nat) (path : String) : String :=
  markupText pictures (s!"[bold green]✅ Wrote {count} entries to[/bold green] [white]".toList ++
    Markup.escape path.toList ++ "[/white]".toList)

/-- The line about a written file. -/
def writtenText (count : Nat) (path : String) : String := writtenTextWith Emoji.known count path

/-- The title of a configuration with a label, with pictures for emoji codes. -/
def configurationTitle (pictures : Emoji.Pictures) (label : String) : List Char :=
  shownMarkup pictures ("Node Configuration: ".toList ++ Markup.escape label.toList)

/-- The line below the table of a configuration. -/
def summary (configuration : Configuration) : String :=
  if configuration.entries.isEmpty then "⚠️  No node entries found.\n"
  else s!"Total entries: {configuration.size}\n"

/-- The table of a configuration and the line below it. -/
def tableText (configuration : Configuration) : String :=
  textOfLines (tableLines configuration.entries) ++ summary configuration

/-- A configuration with a label that tells where it comes from, with pictures for emoji
codes. -/
def configurationTextWith (pictures : Emoji.Pictures) (configuration : Configuration)
    (label : String) : String :=
  textOfLines (titleLines (configurationTitle pictures label) configuration.entries) ++
    tableText configuration

/-- A text without newlines at its end. -/
def trimNewlines (text : List Char) : List Char :=
  (text.reverse.dropWhile (· = '\n')).reverse

/-- A text without a byte order mark at its beginning. -/
def withoutByteOrderMark : List Char -> List Char
  | [] => []
  | c :: rest => if c = '\uFEFF' then rest else c :: rest

/-- An exported text: each line is cut at the edge of the screen. -/
def exportText (content : List Char) : String :=
  if content.isEmpty then "ℹ Nothing to export.\n"
  else
    let lines := Text.pieces '\n' (withoutByteOrderMark (trimNewlines content))
    textOfLines (lines.map fun line => clip screenWidth (visible line))

/-- The title in the border of the header. -/
def headerTitle : List Char := " Node Configuration Reader ".toList

/-- The number of cells between the borders of the header. -/
def headerWidth : Nat := 40

/-- A line between the borders of the header. -/
def headerLine (content : List Char) : List Char :=
  "│ ".toList ++ padEnd headerWidth content ++ " │".toList

/-- The header with the name and the version of the program. -/
def headerText (program : String) : String :=
  let missing := headerWidth + 2 - cells headerTitle
  textOfLines
    [ ['╭'] ++ List.replicate (missing / 2) '─' ++ headerTitle ++
        List.replicate (missing - missing / 2) '─' ++ ['╮'],
      headerLine program.toList,
      headerLine (List.replicate headerWidth '═'),
      ['╰'] ++ List.replicate (headerWidth + 2) '─' ++ ['╯'] ]

end Roster.Terminal
