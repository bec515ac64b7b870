import Interpolation.Number.Double
import Interpolation.Text.Numeral

/-!
# Decimal numbers and their texts

A decimal is a sign, a whole number of digits and a power of ten.  `Decimal.ofText?` reads the
usual notation, `Decimal.toDouble` gives the nearest double, and `Double.ofText?` adds the names of
the infinities and of NaN.
-/

namespace Interpolation

/-- The number `± coefficient * 10 ^ exponent`. -/
structure Decimal where
  negative : Bool
  coefficient : Nat
  exponent : Int
  deriving DecidableEq

namespace Decimal

/-! ## Reading -/

/-- An optional power of ten at the end of a number: `e` or `E`, an optional sign and digits. -/
def exponent? : List Char → Option Int
  | [] => some 0
  | mark :: text =>
    if mark = 'e' ∨ mark = 'E' then
      let (negative, digits) := Numeral.splitSign text
      (Numeral.digits? digits).map fun n => if negative then -n else n
    else
      none

/-- Digits with at most one point among or beside them, then an optional power of ten. -/
def unsigned? (negative : Bool) (text : List Char) : Option Decimal :=
  let whole := text.takeWhile Char.isDigit
  let rest := text.dropWhile Char.isDigit
  let (fraction, rest) := match rest with
    | '.' :: rest => (rest.takeWhile Char.isDigit, rest.dropWhile Char.isDigit)
    | _ => ([], rest)
  if whole.isEmpty && fraction.isEmpty then
    none
  else
    (exponent? rest).map fun power =>
      ⟨negative, Nat.ofDigitChars 10 (whole ++ fraction) 0, power - fraction.length⟩

/-- A decimal with an optional sign. -/
def ofText? (text : List Char) : Option Decimal :=
  let (negative, unsigned) := Numeral.splitSign text
  unsigned? negative unsigned

/-! ## The nearest double -/

/-- From this power of ten on, every nonzero decimal overflows. -/
def largePower : Int := 310

/-- Below this power of ten, every decimal of one binary digit vanishes. -/
def smallPower : Int := -330

/-- The double nearest to the decimal, ties to even. -/
def toDouble (d : Decimal) : Double :=
  if d.coefficient = 0 ∨ d.exponent + d.coefficient.log2 < smallPower then
    .ofRatio d.negative 0 1
  else if largePower ≤ d.exponent then
    .infinite d.negative
  else
    .ofRatio d.negative (d.coefficient * Nat.pow 10 d.exponent.toNat * Double.one)
      (Nat.pow 10 (-d.exponent).toNat)

end Decimal

/-- A decimal, or in any case of letters `inf`, `infinity` or `nan`, with an optional sign. -/
def Double.ofText? (text : List Char) : Option Double :=
  let (negative, unsigned) := Numeral.splitSign text
  let word := String.ofList (unsigned.map Char.toLower)
  if word = "inf" ∨ word = "infinity" then some (.infinite negative)
  else if word = "nan" then some .nan
  else (Decimal.unsigned? negative unsigned).map Decimal.toDouble

end Interpolation
