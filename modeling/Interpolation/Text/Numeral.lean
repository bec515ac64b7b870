/-!
# Numerals

Whole numbers in decimal, as texts.  A numeral is a nonempty run of ASCII digits, with a sign in
front where the reader allows one; each reader also states the range it accepts.
-/

namespace Interpolation.Numeral

/-- The value of a nonempty run of digits. -/
def digits? (text : List Char) : Option Nat :=
  if !text.isEmpty && text.all Char.isDigit then some (Nat.ofDigitChars 10 text 0) else none

/-- A sign, if there is one, and what follows it: whether it is a minus comes first. -/
def splitSign : List Char → Bool × List Char
  | '-' :: text => (true, text)
  | '+' :: text => (false, text)
  | text => (false, text)

/-- A numeral below `2 ^ 64`, with an optional plus sign. -/
def natural? (text : List Char) : Option Nat :=
  let unsigned := match text with
    | '+' :: rest => rest
    | _ => text
  (digits? unsigned).filter (· < UInt64.size)

/-- The integers of 64 bits. -/
def inRange (n : Int) : Bool := Int64.minValue.toInt ≤ n && n ≤ Int64.maxValue.toInt

/-- A numeral with an optional sign whose value is an integer of 64 bits. -/
def integer? (text : List Char) : Option Int :=
  let (negative, unsigned) := splitSign text
  let signed (n : Nat) : Int := if negative then -n else n
  ((digits? unsigned).map signed).filter inRange

end Interpolation.Numeral
