import Interpolation.Text.Numeral
import Interpolation.Text.Path
import Interpolation.Value.Basic

/-!
# Members of values

A map has its keys for members; a list has its indices, its `first` and `last` item and its
`count`; a text has a `count`, of characters.  A path of names is followed one member at a time.
-/

namespace Interpolation.Value

/-- The member of a value with the given name. -/
def member? (value : Value) (name : String) : Option Value :=
  match value with
  | .map entries => entries.lookup name
  | .list items =>
    if name = "first" then items.head?
    else if name = "last" then items.getLast?
    else if name = "count" then some (.int items.length)
    else (Numeral.natural? name.toList).bind fun index => items[index]?
  | .text s => if name = "count" then some (.int s.length) else none
  | _ => none

/-- The value reached by following names from a value, each a member of the one before. -/
def follow? (value : Value) : List String → Option Value
  | [] => some value
  | name :: names => (value.member? name).bind (follow? · names)

@[simp] theorem follow?_nil (value : Value) : value.follow? [] = some value := rfl

@[simp] theorem follow?_cons (value : Value) (name : String) (names : List String) :
    value.follow? (name :: names) = (value.member? name).bind (follow? · names) := rfl

theorem follow?_append (value : Value) (names others : List String) :
    value.follow? (names ++ others) = (value.follow? names).bind (follow? · others) := by
  induction names generalizing value with
  | nil => rfl
  | cons name names ih =>
    rw [List.cons_append, follow?_cons, follow?_cons]
    cases value.member? name with
    | none => rfl
    | some member => exact ih member

end Interpolation.Value
