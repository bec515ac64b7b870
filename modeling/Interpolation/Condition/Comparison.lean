import Interpolation.Value.Equality

/-!
# Comparisons

The seven comparisons of two values, with the symbols that stand for them.  Equality and membership
are defined for all values; the four orderings only for numbers, which they compare as doubles.
-/

namespace Interpolation

/-- A comparison of two values. -/
inductive Comparison
  | equal
  | notEqual
  | less
  | greater
  | lessOrEqual
  | greaterOrEqual
  | isIn
  deriving DecidableEq

namespace Comparison

/-- The token that stands for the comparison. -/
def symbol : Comparison → String
  | .equal => "=="
  | .notEqual => "!="
  | .less => "<"
  | .greater => ">"
  | .lessOrEqual => "<="
  | .greaterOrEqual => ">="
  | .isIn => "in"

/-- All comparisons. -/
def all : List Comparison := [equal, notEqual, less, greater, lessOrEqual, greaterOrEqual, isIn]

/-- The comparison that a token stands for. -/
def ofSymbol? (token : String) : Option Comparison := all.find? fun op => op.symbol = token

/-- A comparison of two values as doubles; none unless both are numbers. -/
def ordered (holds : Double → Double → Bool) (left right : Value) : Option Bool := do
  return holds (← left.number?) (← right.number?)

/-- Whether the comparison holds between two values; none for an ordering unless both are
numbers. -/
def holds? (op : Comparison) (left right : Value) : Option Bool :=
  match op with
  | .equal => some (left == right)
  | .notEqual => some (left != right)
  | .isIn => some (right.holds left)
  | .less => ordered (fun x y => x.lt y) left right
  | .greater => ordered (fun x y => y.lt x) left right
  | .lessOrEqual => ordered (fun x y => x.le y) left right
  | .greaterOrEqual => ordered (fun x y => y.le x) left right

end Comparison

end Interpolation
