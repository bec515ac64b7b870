import Interpolation.Json
import Interpolation.Text.Ends

/-!
# What literal text loses at its ends

Each end of a literal text may lose one class of characters: blanks, all white space, or the rest
of a line that holds only blanks, together with its line break.  The last class takes nothing at
all unless it reaches the line break.
-/

namespace Interpolation

/-- What may be removed from one end of a text. -/
inductive Trim
  | nothing
  | blanks
  | space
  | blankLine
  deriving DecidableEq

namespace Trim

/-- The text after what the class takes from its start. -/
def dropStart (trim : Trim) (text : List Char) : List Char :=
  match trim with
  | .nothing => text
  | .blanks => text.dropWhile isBlank
  | .space => text.dropWhile isSpace
  | .blankLine =>
    match text.dropWhile isBlank with
    | '\n' :: rest => rest
    | _ => text

/-- The text before what the class takes from its end. -/
def dropEnd (trim : Trim) (text : List Char) : List Char :=
  match trim with
  | .nothing => text
  | .blanks => dropEndWhile isBlank text
  | .space => dropEndWhile isSpace text
  | .blankLine =>
    let rest := dropEndWhile isBlank text
    if rest.getLast? = some '\n' then rest.dropLast else text

/-- The name of the class in a configuration. -/
def name : Trim → String
  | .nothing => "nothing"
  | .blanks => "whitespace"
  | .space => "whitespace_and_new_lines"
  | .blankLine => "whitespace_and_one_new_line"

/-- The class with the given name; `none` is a second name for nothing. -/
def ofName? (name : String) : Option Trim :=
  if name = "none" then some .nothing
  else [nothing, blanks, space, blankLine].find? fun trim => trim.name = name

/-- A class from its name, alone or as the only member of an object, with null for its value. -/
def ofJson? {ν : Type} : Json ν → Option Trim
  | .text name => ofName? name
  | .object [(name, .null)] => ofName? name
  | _ => none

end Trim

/-- What a literal text loses at its two ends. -/
structure Trimming where
  leading : Trim := .nothing
  trailing : Trim := .nothing
  deriving DecidableEq

namespace Trimming

/-- The text as it stands. -/
def nothing : Trimming := ⟨.nothing, .nothing⟩

/-- The text without a blank first and a blank last line. -/
def smart : Trimming := ⟨.blankLine, .blankLine⟩

/-- The text without what the two classes take, first from its start and then from its end. -/
def apply (trimming : Trimming) (text : List Char) : List Char :=
  trimming.trailing.dropEnd (trimming.leading.dropStart text)

/-- A class that a configuration may leave out. -/
def optional? {ν : Type} : Option (Json ν) → Option Trim
  | none => some .nothing
  | some json => Trim.ofJson? json

/-- The two classes from an object that names them or an array that lists them; one that is not
given takes nothing. -/
def ofJson? {ν : Type} : Json ν → Option Trimming
  | .array items =>
    if items.length ≤ 2 then return ⟨← optional? items[0]?, ← optional? items[1]?⟩ else none
  | .object members =>
    let json : Json ν := .object members
    return ⟨← optional? (json.member? "leading"), ← optional? (json.member? "trailing")⟩
  | _ => none

end Trimming

end Interpolation
