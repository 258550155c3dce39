import Roster.Yaml.Character

/-!
# Plain texts that are no strings

A plain scalar reads as a null, a truth value, a number, a date or one of two
special marks if it has the form of one. The forms are those of version 1.2, each
tried only on texts that begin with a character from which it can start.
-/

namespace Roster.Yaml.Implicit

/-- A text without a sign in front. -/
def unsigned : List Char -> List Char
  | '+' :: rest => rest
  | '-' :: rest => rest
  | text => text

/-- Whether a text is not empty and lies in a class. -/
def isRun (inClass : Char -> Bool) (text : List Char) : Bool :=
  !text.isEmpty && text.all inClass

/-- A digit of a base up to ten, or an underscore. -/
def isSpacedDigit (base : Nat) (c : Char) : Bool :=
  (c.isDigit && hexDigitValue c < base) || c == '_'

/-- A hexadecimal digit or an underscore. -/
def isSpacedHexDigit (c : Char) : Bool :=
  isHexDigit c || c == '_'

/-- The words for truth values. -/
def boolWords : List String := ["true", "True", "TRUE", "false", "False", "FALSE"]

/-- The words for null. -/
def nullWords : List String := ["~", "null", "Null", "NULL"]

/-- The marks for merging and for the default value. -/
def specialMarks : List String := ["<<", "="]

/-- The words for infinity and for what is no number, behind the point. -/
def infinityWords : List String := [".inf", ".Inf", ".INF"]

/-- The words for what is no number. -/
def nanWords : List String := [".nan", ".NaN", ".NAN"]

/-- Whether a text is one of some words. -/
def isWordOf (words : List String) (text : List Char) : Bool :=
  words.any fun word => word.toList == text

/-- Whether a text is an integer: binary, octal, decimal or hexadecimal, with
underscores anywhere between the digits. -/
def isInteger (text : List Char) : Bool :=
  let body := unsigned text
  let octal := match body with
    | '0' :: 'o' :: digits => isRun (isSpacedDigit 8) digits
    | _ => false
  let binary := match body with
    | '0' :: 'b' :: digits => isRun (isSpacedDigit 2) digits
    | _ => false
  let hexadecimal := match body with
    | '0' :: 'x' :: digits => isRun isSpacedHexDigit digits
    | _ => false
  isRun (isSpacedDigit 10) body || octal || binary || hexadecimal

/-- Whether a text is an exponent: a letter, a sign and digits. -/
def isExponent (signRequired : Bool) : List Char -> Bool
  | [] => false
  | letter :: rest =>
    let signed := rest.head?.any fun c => c == '+' || c == '-'
    (letter == 'e' || letter == 'E') && (signed || !signRequired) &&
      isRun Char.isDigit (unsigned rest)

/-- Whether a text is a decimal number: digits with a point, an exponent or both,
or digits behind a point. -/
def isDecimal (text : List Char) : Bool :=
  let body := unsigned text
  let whole := body.takeWhile (isSpacedDigit 10)
  match body.head?, body.drop whole.length with
  | some '.', _ =>
    let fraction := body.tail.takeWhile (isSpacedDigit 10)
    let rest := body.tail.drop fraction.length
    !fraction.isEmpty && (rest.isEmpty || isExponent true rest)
  | some c, '.' :: fraction =>
    let rest := fraction.dropWhile (isSpacedDigit 10)
    c.isDigit && (rest.isEmpty || isExponent false rest)
  | some c, rest => c.isDigit && isExponent false rest
  | none, _ => false

/-- Whether a text is infinite or no number. -/
def isNonFinite (text : List Char) : Bool :=
  isWordOf infinityWords (unsigned text) || isWordOf nanWords text

/-- Reads between `least` and `most` digits from the front. -/
def digits? (least most : Nat) (text : List Char) : Option (List Char) :=
  let taken := (text.take most).takeWhile Char.isDigit
  if least <= taken.length then some (text.drop taken.length) else none

/-- Reads a character from the front. -/
def literal? (c : Char) : List Char -> Option (List Char)
  | d :: rest => if d = c then some rest else none
  | [] => none

/-- Whether a text is a date of four, two and two digits. -/
def isDate (text : List Char) : Bool :=
  let rest := do
    digits? 2 2 (<- literal? '-' (<- digits? 2 2 (<- literal? '-' (<- digits? 4 4 text))))
  rest == some []

/-- Whether a text is nothing, a `Z`, or an offset in hours and perhaps minutes. -/
def isZone : List Char -> Bool
  | [] => true
  | ['Z'] => true
  | sign :: rest =>
    (sign == '+' || sign == '-') &&
      match digits? 1 2 rest with
      | some [] => true
      | some (':' :: minutes) => digits? 2 2 minutes == some []
      | _ => false

/-- Whether a text is a date with a time behind a `T`. -/
def isTime (text : List Char) : Bool :=
  let rest := do
    let month <- literal? '-' (<- digits? 4 4 text)
    let day <- literal? '-' (<- digits? 1 2 month)
    let separator <- digits? 1 2 day
    let hour <- (literal? 'T' separator).or (literal? 't' separator)
    let minute <- literal? ':' (<- digits? 1 2 hour)
    let second <- literal? ':' (<- digits? 2 2 minute)
    digits? 2 2 second
  match rest with
  | none => false
  | some ('.' :: fraction) => isZone (fraction.dropWhile Char.isDigit)
  | some zone => isZone zone

/-- Whether a plain text would be read as something else than a string. -/
def isImplicit (text : List Char) : Bool :=
  let first := text.headD endOfText
  let startsNumber := first.isDigit || first == '-' || first == '+'
  isWordOf boolWords text || isWordOf nullWords text || isWordOf specialMarks text ||
    (startsNumber && isInteger text) ||
    ((startsNumber || first == '.') && (isDecimal text || isNonFinite text)) ||
    (first.isDigit && (isDate text || isTime text))

end Roster.Yaml.Implicit
