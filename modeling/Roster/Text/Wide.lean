import Roster.Text.Blank
import Roster.Text.Quoted
import Roster.Text.Utf8

/-!
# Wide texts

Strings are made of characters. An escape may give any code point, though, also one of
those that are no characters but halves of pairs that stand for one. A wide text is a
string, or else a list of code points with such a half among them. No encoding holds a
half, so no file does, and whether a terminal shows one is left open.

All other texts of this library are strings: those of files and of their paths, of
arguments, and of whatever is written or shown.
-/

namespace Roster.Text

/-- A code point that is no character: half of a pair. -/
structure Half where
  code : Nat
  isHalf : 0xD800 ≤ code ∧ code ≤ 0xDFFF
  deriving DecidableEq, Repr

/-- The four digits of a half. -/
def Half.digits (half : Half) : List Char := hexDigits 4 half.code

inductive CodePoint where
  | char (c : Char)
  | half (half : Half)
  deriving DecidableEq, Repr

namespace CodePoint

/-- The code point with a number. -/
def ofCode (code : Nat) : CodePoint :=
  if isHalf : 0xD800 ≤ code ∧ code ≤ 0xDFFF then .half { code, isHalf } else .char (.ofNat code)

/-- Whether a code point is a half. -/
def isHalf : CodePoint -> Bool
  | .char _ => false
  | .half _ => true

/-- Whether a code point is a blank character. -/
def isBlank : CodePoint -> Bool
  | .char c => Text.isBlank c
  | .half _ => false

/-- The character that a code point is, if it is one. -/
def char? : CodePoint -> Option Char
  | .char c => some c
  | .half _ => none

/-- How a code point shows where a half shows as an escape. -/
def shown : CodePoint -> List Char
  | .char c => [c]
  | .half found => '\\' :: 'u' :: found.digits

/-- How a code point shows between quotation marks. -/
def escaped (mark : Char) : CodePoint -> List Char
  | .char c => Text.escaped mark c
  | .half found => '\\' :: 'u' :: found.digits

end CodePoint

/-- A text of code points: a string, unless it holds a half. -/
inductive Wide where
  | plain (text : String)
  | halved (codes : List CodePoint) (holds : codes.any CodePoint.isHalf = true)
  deriving DecidableEq, Repr

instance : Coe String Wide := ⟨.plain⟩

namespace Wide

/-- The text of code points. -/
def ofCodes (codes : List CodePoint) : Wide :=
  if holds : codes.any CodePoint.isHalf = true then .halved codes holds
  else .plain (String.ofList (codes.filterMap CodePoint.char?))

/-- The code points of a text. -/
def codes : Wide -> List CodePoint
  | .plain text => text.toList.map .char
  | .halved codes _ => codes

/-- Whether a text holds a half. -/
def isHalved : Wide -> Bool
  | .plain _ => false
  | .halved _ _ => true

/-- The string that a text is, unless it holds a half. -/
def string? : Wide -> Option String
  | .plain text => some text
  | .halved _ _ => none

/-- How a text shows where halves show as escapes. -/
def shown : Wide -> String
  | .plain text => text
  | .halved codes _ => String.ofList (codes.flatMap CodePoint.shown)

/-- A text between quotation marks. -/
def quoted : Wide -> String
  | .plain text => Text.quoted text
  | .halved codes _ =>
    let mark := quotationMark (codes.filterMap CodePoint.char?)
    String.ofList (mark :: codes.flatMap (CodePoint.escaped mark) ++ [mark])

end Wide

namespace Utf8

/-- The halves in a row at which an encoding stops. -/
structure EncodingFault where
  start : Nat
  first : Half
  length : Nat
  deriving DecidableEq, Repr

/-- Encodes code points from a position on. -/
def encodeFrom (position : Nat) : List CodePoint -> Except EncodingFault (List UInt8)
  | [] => .ok []
  | .char c :: rest => do return String.utf8EncodeChar c ++ (<- encodeFrom (position + 1) rest)
  | .half first :: rest =>
    .error { start := position, first, length := 1 + (rest.takeWhile CodePoint.isHalf).length }

/-- The bytes of code points, or the first fault: a half has no bytes. -/
def encodeCodes (codes : List CodePoint) : Except EncodingFault (List UInt8) :=
  encodeFrom 0 codes

/-- The report of a fault: one half is shown, several are located. -/
def EncodingFault.message (fault : EncodingFault) : String :=
  let place :=
    if fault.length == 1 then
      s!"character '\\u" ++ String.ofList fault.first.digits ++ s!"' in position {fault.start}"
    else s!"characters in position {fault.start}-{fault.start + fault.length - 1}"
  s!"'utf-8' codec can't encode {place}: surrogates not allowed"

end Utf8

end Roster.Text
