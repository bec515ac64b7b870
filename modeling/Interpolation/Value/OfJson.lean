import Interpolation.Json
import Interpolation.Value.Basic

/-!
# Values from JSON

Every JSON value stands for a value: a number for an integer if its reader has it as one of 64 bits,
else for the double that the reader gives, and an object for the map of its members.
-/

namespace Interpolation.Value

variable {ν : Type} [JsonNumber ν]

/-- The value of a number: null if its reader gives neither an integer nor a double. -/
def ofNumber (n : ν) : Value :=
  match JsonNumber.int? n with
  | some i => .int i.toInt
  | none => (JsonNumber.double? n).elim .null .float

mutual

/-- The value that a JSON value stands for. -/
def ofJson : Json ν → Value
  | .null => .null
  | .bool b => .bool b
  | .number n => ofNumber n
  | .text s => .text s
  | .array items => .list (ofItems items)
  | .object members => .map (Entries.ofList (ofMembers members))

/-- The values of the items of an array. -/
def ofItems : List (Json ν) → List Value
  | [] => []
  | item :: items => ofJson item :: ofItems items

/-- The values of the members of an object, under their names. -/
def ofMembers : List (String × Json ν) → List (String × Value)
  | [] => []
  | (name, member) :: members => (name, ofJson member) :: ofMembers members

end

theorem ofItems_eq_map (items : List (Json ν)) : ofItems items = items.map ofJson := by
  induction items with
  | nil => rfl
  | cons item items ih => simp [ofItems, ih]

theorem ofMembers_eq_map (members : List (String × Json ν)) :
    ofMembers members = members.map fun (name, member) => (name, ofJson member) := by
  induction members with
  | nil => rfl
  | cons member members ih => simp [ofMembers, ih]

end Interpolation.Value
