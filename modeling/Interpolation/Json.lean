import Interpolation.Number.Double

/-!
# JSON data

JSON as data for a template: bindings, configuration and source positions all arrive in it.  How
numbers are kept is a matter of the reader of JSON texts, which says what each of them is as an
integer and as a double (`JsonNumber`).  Where an object repeats a name, the last member counts.
-/

namespace Interpolation

/-! ## Numbers -/

/-- What a reader of JSON texts says of its numbers: each may be an integer of 64 bits, without and
with a sign, and a double. -/
class JsonNumber (ν : Type) where
  natural? : ν → Option UInt64
  int? : ν → Option Int64
  double? : ν → Option Double

/-- A number as readers usually keep it: an integer of 64 bits if it is written whole and is one,
with a sign only if it is negative, and a finite double otherwise. -/
inductive StoredNumber
  | natural (n : UInt64)
  | negative (n : Int64) (neg : n < 0)
  | double (x : Double) (finite : x.isFinite = true)

namespace StoredNumber

/-- The number as an integer of 64 bits without a sign. -/
def natural? : StoredNumber → Option UInt64
  | .natural n => some n
  | _ => none

/-- The number as an integer of 64 bits with a sign. -/
def int? : StoredNumber → Option Int64
  | .natural n => if n.toNat ≤ Int64.maxValue.toInt then some n.toInt64 else none
  | .negative n _ => some n
  | .double _ _ => none

/-- The double nearest to the number. -/
def double? : StoredNumber → Option Double
  | .natural n => some (.ofInt n.toNat)
  | .negative n _ => some (.ofInt n.toInt)
  | .double x _ => some x

instance : JsonNumber StoredNumber := ⟨natural?, int?, double?⟩

theorem exists_double? (n : StoredNumber) : ∃ x, JsonNumber.double? n = some x := by
  cases n <;> exact ⟨_, rfl⟩

end StoredNumber

/-! ## Values -/

/-- A JSON value over the numbers of a reader. -/
inductive Json (ν : Type)
  | null
  | bool (b : Bool)
  | number (n : ν)
  | text (s : String)
  | array (items : List (Json ν))
  | object (members : List (String × Json ν))

namespace Json

variable {ν : Type}

instance : Inhabited (Json ν) := ⟨.null⟩

/-- The member of an object with the given name. -/
def member? (json : Json ν) (name : String) : Option (Json ν) :=
  match json with
  | .object members => members.reverse.lookup name
  | _ => none

/-- A whole number from zero to `2 ^ 64 - 1`. -/
def natural? [JsonNumber ν] : Json ν → Option Nat
  | .number n => (JsonNumber.natural? n).map UInt64.toNat
  | _ => none

/-- The fields of a record, given either by name in an object or by place in an array of just as
many items. -/
def fields? (names : List String) (json : Json ν) : Option (List (Json ν)) :=
  match json with
  | .object _ => names.mapM json.member?
  | .array items => if items.length = names.length then some items else none
  | _ => none

end Json

end Interpolation
