import Interpolation.Number.Double
import Interpolation.Value.Entries
import Interpolation.Value.Handle

/-!
# Values

What a variable can stand for: the kinds of data that JSON has, with integers and doubles told
apart, and two kinds of host value.  A described value is known by its text alone, and a handle by
its identity.
-/

namespace Interpolation

/-- What a variable can stand for. -/
inductive Value
  | null
  | bool (b : Bool)
  | int (n : Int)
  | float (x : Double)
  | text (s : String)
  | list (items : List Value)
  | map (entries : List (String × Value))
  | described (description : String)
  | handle (h : Handle)

namespace Value

instance : Inhabited Value := ⟨.null⟩

/-- Whether the value is null. -/
def isNull : Value → Bool
  | .null => true
  | _ => false

/-- Whether the value counts as true in a condition: all do but null, false, the zeros, and the
empty text, list and map. -/
def isTruthy : Value → Bool
  | .null => false
  | .bool b => b
  | .int n => n != 0
  | .float x => !x.isZero
  | .text s => !s.isEmpty
  | .list items => !items.isEmpty
  | .map entries => !entries.isEmpty
  | .described _ | .handle _ => true

/-- The value as a double, if it is a number. -/
def number? : Value → Option Double
  | .int n => some (.ofInt n)
  | .float x => some x
  | _ => none

/-- Null for an absent value. -/
def ofOption : Option Value → Value
  | some value => value
  | none => .null

end Value

end Interpolation
