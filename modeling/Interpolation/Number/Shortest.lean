import Interpolation.Number.Decimal

/-!
# The shortest decimal of a double

Among the decimals that read back to a given double, `Double.shortest` has the fewest digits, and
of those it is the nearest.  It is found by trying one digit, two digits and so on: if a decimal
with a given number of digits reads back, so does one of the two that are next to the exact value.
`Double.toText` lays the digits out.
-/

namespace Interpolation.Double

/-! ## Digits -/

/-- The exact value of a number of least units is this many times `10 ^ (-1074)`. -/
def exactCoefficient (units : Nat) : Nat := units * Nat.pow 5 1074

/-- Whether a decimal reads back to a number of least units. -/
def ReadsBack (units coefficient : Nat) (exponent : Int) : Prop :=
  (Decimal.mk false coefficient exponent).toDouble.place? = some (units : Int)

instance (units coefficient : Nat) (exponent : Int) :
    Decidable (ReadsBack units coefficient exponent) :=
  inferInstanceAs (Decidable (_ = _))

/-- The nearer neighbour of the exact value that reads back when `dropped` of its last digits are
dropped; of two that are equally near the larger. -/
def neighbour? (units dropped : Nat) : Option Decimal :=
  let power := Nat.pow 10 dropped
  let exponent : Int := dropped - 1074
  let below := exactCoefficient units / power
  let remainder := exactCoefficient units % power
  let nearerFirst := if 2 * remainder < power then [below, below + 1] else [below + 1, below]
  (nearerFirst.find? (ReadsBack units · exponent)).map (Decimal.mk false · exponent)

/-- The shortest decimal that reads back to a number of least units, and of those the nearest. -/
def shortest (units : Nat) : Decimal :=
  let length := (Nat.toDigits 10 (exactCoefficient units)).length
  let exact : Decimal := ⟨false, exactCoefficient units, -1074⟩
  ((List.range length).reverse.findSome? (neighbour? units)).getD exact

/-! ## Layout -/

/-- Where positional notation begins and ends, as powers of ten of the leading digit. -/
structure Layout where
  least : Int
  greatest : Int

/-- Positional notation from `0.0001` up to, but not including, `10 ^ 16`. -/
def layout : Layout := ⟨-4, 15⟩

/-- The digits of a positive number with the point after the first `point` of them, zeros filling
what is missing on either side. -/
def positional (digits : List Char) (point : Int) : List Char :=
  if point ≤ 0 then
    ['0', '.'] ++ List.replicate (-point).toNat '0' ++ digits
  else
    let whole := digits.take point.toNat
    let fraction := digits.drop point.toNat
    whole ++ List.replicate (point.toNat - whole.length) '0' ++
      '.' :: (if fraction.isEmpty then ['0'] else fraction)

/-- One digit, the others after a point if there are any, and the power of ten. -/
def scientific (digits : List Char) (power : Int) : List Char :=
  let fraction := digits.drop 1
  digits.take 1 ++ (if fraction.isEmpty then [] else '.' :: fraction) ++
    'e' :: (toString power).toList

/-- A positive decimal in the notation that the layout gives it. -/
def layOut (style : Layout) (d : Decimal) : List Char :=
  let all := Nat.toDigits 10 d.coefficient
  let power := d.exponent + all.length - 1
  let digits := (all.reverse.dropWhile (· == '0')).reverse
  if style.least ≤ power ∧ power ≤ style.greatest then positional digits (power + 1)
  else scientific digits power

/-- The text of a number of least units without its sign. -/
def unsignedText (units : Nat) : List Char :=
  if units = 0 then ['0', '.', '0'] else layOut layout (shortest units)

/-- The text of a double: the fewest digits that read back, with at least one after the point in
positional notation. -/
def toText : Double → String
  | .nan => "NaN"
  | .infinite negative => if negative then "-inf" else "inf"
  | .finite negative units _ =>
    String.ofList ((if negative then ['-'] else []) ++ unsignedText units)

end Interpolation.Double
