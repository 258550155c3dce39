/-!
# Decimal numbers

Numbers with a fraction or an exponent as they are written in arguments. Their
display has the form that is customary for floating-point numbers: positional for
moderate exponents, scientific beyond, and always with a mark that tells them from
integers.
-/

namespace Roster

/-- The number `digits * 10 ^ exponent`, with a sign that also zero may have. -/
structure Decimal where
  negative : Bool
  digits : Nat
  exponent : Int
  deriving DecidableEq, Repr

namespace Decimal

/-- The significant digits of a number other than zero, without zeros at the end. -/
def significant (number : Decimal) : List Char :=
  ((Nat.toDigits 10 number.digits).reverse.dropWhile (· == '0')).reverse

/-- The exponent of the leading digit. -/
def leadingExponent (number : Decimal) : Int :=
  number.exponent + (Nat.toDigits 10 number.digits).length - 1

/-- The exponents of the leading digit for which the display is positional. -/
def isPositional (exponent : Int) : Bool :=
  -4 <= exponent && exponent < 16

/-- Digits with a point behind the place of the exponent zero. -/
def positional (digits : List Char) (exponent : Int) : List Char :=
  if exponent < 0 then
    '0' :: '.' :: List.replicate (-exponent - 1).toNat '0' ++ digits
  else
    let whole := exponent.toNat + 1
    let padded := digits ++ List.replicate (whole - digits.length) '0'
    let fraction := padded.drop whole
    padded.take whole ++ '.' :: (if fraction.isEmpty then ['0'] else fraction)

/-- Digits with a point behind the first one, and an exponent of two digits at
least. -/
def scientific (digits : List Char) (exponent : Int) : List Char :=
  let power := Nat.toDigits 10 exponent.natAbs
  let mantissa := match digits with
    | [] => []
    | [digit] => [digit]
    | digit :: fraction => digit :: '.' :: fraction
  mantissa ++ 'e' :: (if exponent < 0 then '-' else '+') ::
    (List.replicate (2 - power.length) '0' ++ power)

/-- The display of a number. -/
def display (number : Decimal) : String :=
  let sign := if number.negative then ['-'] else []
  let magnitude :=
    if number.digits == 0 then ['0', '.', '0']
    else
      let exponent := number.leadingExponent
      if isPositional exponent then positional number.significant exponent
      else scientific number.significant exponent
  String.ofList (sign ++ magnitude)

end Decimal

end Roster
