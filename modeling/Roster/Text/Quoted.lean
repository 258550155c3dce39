import Roster.Text.CharacterClass

/-!
# Quoted display of text

Error messages show foreign text between quotation marks on one line: characters
that are not printable, backslashes and the quotation mark in use are escaped.
-/

namespace Roster.Text

/-- The lower-case hexadecimal digits of a number, at least `width` of them. -/
def hexDigits (width value : Nat) : List Char :=
  let digits := Nat.toDigits 16 value
  List.replicate (width - digits.length) '0' ++ digits

/-- The quotation mark for a text: double quotes if they spare an escape. -/
def quotationMark (text : List Char) : Char :=
  if text.contains '\'' && !text.contains '"' then '"' else '\''

/-- How a character shows between quotation marks. -/
def escaped (mark c : Char) : List Char :=
  if c = '\\' || c = mark then ['\\', c]
  else if c = '\n' then ['\\', 'n']
  else if c = '\r' then ['\\', 'r']
  else if c = '\t' then ['\\', 't']
  else if isPrintable c then [c]
  else if c.toNat < 0x100 then '\\' :: 'x' :: hexDigits 2 c.toNat
  else if c.toNat < 0x10000 then '\\' :: 'u' :: hexDigits 4 c.toNat
  else '\\' :: 'U' :: hexDigits 8 c.toNat

/-- A text between quotation marks. -/
def quoted (text : String) : String :=
  let mark := quotationMark text.toList
  String.ofList (mark :: text.toList.flatMap (escaped mark) ++ [mark])

/-- A single character between quotation marks. -/
def quotedChar (c : Char) : String :=
  quoted (String.singleton c)

end Roster.Text
