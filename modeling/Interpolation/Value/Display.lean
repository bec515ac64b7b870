import Interpolation.Number.Shortest
import Interpolation.Text.Quoted
import Interpolation.Value.Basic

/-!
# The text of a value

`display` is what a value adds to the output: nothing for null, a text as it is, and a bracketed
description of a list or a map.  Inside such a description null is written `nil` and texts and keys
are quoted (`describe`).
-/

namespace Interpolation

/-- The text of a handle: its type in angle brackets. -/
def Handle.description (h : Handle) : String := "<" ++ h.typeName ++ ">"

/-- The text of a handle for developers. -/
def Handle.inspect (h : Handle) : String := "OpaqueValue(" ++ Quoted.quote h.typeName ++ ")"

namespace Value

/-- Parts with a comma and a space between them, in square brackets. -/
def bracketed (parts : List String) : String := "[" ++ ", ".intercalate parts ++ "]"

/-- The text of a map's entries; one without entries is told from an empty list. -/
def bracketedEntries (parts : List String) : String :=
  if parts.isEmpty then "[:]" else bracketed parts

mutual

/-- The text of a value inside a list or a map. -/
def describe : Value → String
  | .null => "nil"
  | .bool b => if b then "true" else "false"
  | .int n => toString n
  | .float x => x.toText
  | .text s => Quoted.quote s
  | .list items => bracketed (describeItems items)
  | .map entries => bracketedEntries (describeEntries entries)
  | .described description => description
  | .handle h => h.description

/-- The texts of the items of a list. -/
def describeItems : List Value → List String
  | [] => []
  | item :: items => describe item :: describeItems items

/-- The texts of the entries of a map. -/
def describeEntries : List (String × Value) → List String
  | [] => []
  | (key, value) :: entries =>
    (Quoted.quote key ++ ": " ++ describe value) :: describeEntries entries

end

/-- The text of a value in the output. -/
def display : Value → String
  | .null => ""
  | .text s => s
  | value => describe value

/-- The text of a value that may be absent. -/
def displayOption : Option Value → String
  | none => ""
  | some value => value.display

end Value

end Interpolation
