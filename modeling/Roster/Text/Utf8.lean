/-!
# UTF-8

Decoding of byte sequences. A fault names the place where the first ill-formed
sequence begins, how many of its bytes were acceptable, and what was wrong with
the next one. `read` adds the rule for a byte order mark in front of a file.
-/

namespace Roster.Text.Utf8

/-- What makes a byte sequence ill-formed. -/
inductive Reason where
  /-- A byte that begins no sequence. -/
  | invalidStart
  /-- A sequence that goes on with a byte that is not allowed there. -/
  | invalidContinuation
  /-- A sequence cut off by the end of the bytes. -/
  | unexpectedEnd
  deriving DecidableEq, Repr

/-- The first ill-formed sequence: its place, the bytes of it that were
acceptable so far (at least the first one), and the reason. -/
structure Fault where
  start : Nat
  length : Nat
  first : UInt8
  reason : Reason
  deriving DecidableEq, Repr

/-- A sequence whose end is not reached. `low` and `high` bound the next byte. -/
structure Unfinished where
  start : Nat
  first : UInt8
  taken : Nat
  missing : Nat
  low : UInt8
  high : UInt8
  value : Nat
  deriving DecidableEq, Repr

namespace Unfinished

/-- The fault of a sequence that cannot be continued. -/
def fault (sequence : Unfinished) (reason : Reason) : Fault :=
  { start := sequence.start, length := sequence.taken, first := sequence.first, reason }

/-- The sequence begun by a byte above U+007F, if the byte may begin one. The
bounds of the second byte exclude overlong forms, surrogates and values above
U+10FFFF. -/
def begin? (start : Nat) (first : UInt8) : Option Unfinished :=
  let sequence (missing : Nat) (low high : UInt8) (base : UInt8) : Option Unfinished :=
    some { start, first, taken := 1, missing, low, high, value := (first - base).toNat }
  if first < 0xC2 then none
  else if first < 0xE0 then sequence 1 0x80 0xBF 0xC0
  else if first == 0xE0 then sequence 2 0xA0 0xBF 0xE0
  else if first == 0xED then sequence 2 0x80 0x9F 0xE0
  else if first < 0xF0 then sequence 2 0x80 0xBF 0xE0
  else if first == 0xF0 then sequence 3 0x90 0xBF 0xF0
  else if first < 0xF4 then sequence 3 0x80 0xBF 0xF0
  else if first == 0xF4 then sequence 3 0x80 0x8F 0xF0
  else none

/-- Whether a byte may come next. -/
def admits (sequence : Unfinished) (byte : UInt8) : Bool :=
  sequence.low <= byte && byte <= sequence.high

/-- The value after one more byte, which contributes its low six bits. -/
def valueWith (sequence : Unfinished) (byte : UInt8) : Nat :=
  sequence.value * 64 + (byte - 0x80).toNat

/-- The sequence after one more byte that does not end it. -/
def extend (sequence : Unfinished) (byte : UInt8) : Unfinished :=
  { sequence with
    taken := sequence.taken + 1, missing := sequence.missing - 1
    low := 0x80, high := 0xBF, value := sequence.valueWith byte }

end Unfinished

/-- Decodes bytes from a position on, inside a sequence or between two. -/
def decodeFrom (position : Nat) : Option Unfinished -> List UInt8 -> Except Fault (List Char)
  | none, [] => .ok []
  | some sequence, [] => .error (sequence.fault .unexpectedEnd)
  | none, byte :: rest =>
    if byte < 0x80 then do
      let text <- decodeFrom (position + 1) none rest
      return Char.ofNat byte.toNat :: text
    else
      match Unfinished.begin? position byte with
      | none => .error { start := position, length := 1, first := byte, reason := .invalidStart }
      | some sequence => decodeFrom (position + 1) (some sequence) rest
  | some sequence, byte :: rest =>
    if sequence.admits byte then
      if sequence.missing <= 1 then do
        let text <- decodeFrom (position + 1) none rest
        return Char.ofNat (sequence.valueWith byte) :: text
      else decodeFrom (position + 1) (some (sequence.extend byte)) rest
    else .error (sequence.fault .invalidContinuation)

/-- The text of a byte sequence, or its first fault. -/
def decode (bytes : List UInt8) : Except Fault (List Char) :=
  decodeFrom 0 none bytes

/-- The bytes of a text. -/
def encode (text : List Char) : List UInt8 :=
  text.flatMap String.utf8EncodeChar

/-- The byte order mark in UTF-8. -/
def byteOrderMark : List UInt8 := [0xEF, 0xBB, 0xBF]

/-- The bytes of a file that hold text: one byte order mark in front is dropped,
and a file that stops inside the mark holds nothing. -/
def textBytes (bytes : List UInt8) : List UInt8 :=
  if bytes.isPrefixOf byteOrderMark then []
  else if byteOrderMark.isPrefixOf bytes then bytes.drop byteOrderMark.length
  else bytes

/-- The text of a file. Faults are placed after a byte order mark. -/
def read (bytes : List UInt8) : Except Fault (List Char) :=
  decode (textBytes bytes)

/-- Two digits of a byte. -/
def hexByte (byte : UInt8) : String :=
  let digits := Nat.toDigits 16 byte.toNat
  String.ofList (List.replicate (2 - digits.length) '0' ++ digits)

/-- The wording of a reason. -/
def Reason.message : Reason -> String
  | .invalidStart => "invalid start byte"
  | .invalidContinuation => "invalid continuation byte"
  | .unexpectedEnd => "unexpected end of data"

/-- The report of a fault: one bad byte is shown, several are located. -/
def Fault.message (fault : Fault) : String :=
  let place :=
    if fault.length == 1 then s!"byte 0x{hexByte fault.first} in position {fault.start}"
    else s!"bytes in position {fault.start}-{fault.start + fault.length - 1}"
  s!"'utf-8' codec can't decode {place}: {fault.reason.message}"

end Roster.Text.Utf8
