import Interpolation.Text.Search
import Interpolation.Value.Basic

/-!
# Equality of values

Values of one kind are compared by what they hold, lists and maps item by item.  An integer and a
double are equal if the double nearest to the integer equals the other.  A described value is
compared by its text and a handle by its identity.  NaN differs from itself.
-/

namespace Interpolation.Value

mutual

/-- Whether two values count as equal in a condition. -/
def equal : Value → Value → Bool
  | .null, .null => true
  | .bool a, .bool b => a == b
  | .int a, .int b => a == b
  | .float x, .float y => x.eq y
  | .int n, .float x => (Double.ofInt n).eq x
  | .float x, .int n => (Double.ofInt n).eq x
  | .text s, .text t => s == t
  | .list xs, .list ys => equalItems xs ys
  | .map xs, .map ys => equalEntries xs ys
  | .described s, .described t => s == t
  | .handle a, .handle b => a.identity == b.identity
  | _, _ => false

/-- Whether two lists have equal items at every place. -/
def equalItems : List Value → List Value → Bool
  | [], [] => true
  | x :: xs, y :: ys => equal x y && equalItems xs ys
  | _, _ => false

/-- Whether two lists of entries have the same keys and equal values at every place. -/
def equalEntries : List (String × Value) → List (String × Value) → Bool
  | [], [] => true
  | (k, x) :: xs, (l, y) :: ys => k == l && equal x y && equalEntries xs ys
  | _, _ => false

end

instance : BEq Value := ⟨equal⟩

/-- Whether a value holds another: a list as an item, a text as a part, a map as a key. -/
def holds (container item : Value) : Bool :=
  match container, item with
  | .list items, _ => items.any (· == item)
  | .text s, .text part => occursIn part.toList s.toList
  | .map entries, .text key => entries.any fun (k, _) => k == key
  | _, _ => false

end Interpolation.Value
