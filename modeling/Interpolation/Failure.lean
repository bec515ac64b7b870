import Interpolation.Condition.Comparison
import Interpolation.Source.Origin

/-!
# What can go wrong

A tag can be malformed (`ParseFault`) and a node can fail to render (`RenderFault`).  A failure is
a fault with the origin of the piece at fault, if it is known.  An origin is attached once and
never replaced.
-/

namespace Interpolation

/-- Why a tag cannot be read. -/
inductive ParseFault
  | noName
  | noOperand
  | invalidPath (path : String)
  | noCondition
  | unexpectedToken (token : String)
  | missingOperand (after : String)
  | misplacedKeyword (keyword : String)
  | other (reason : String)
  deriving DecidableEq

/-- Why a node cannot be rendered. -/
inductive RenderFault
  | notNumeric (op : Comparison)
  | other (reason : String)
  deriving DecidableEq

/-- A text between single quotes, as messages show it. -/
def inQuotes (s : String) : String := "'" ++ s ++ "'"

/-- The fault in words. -/
def ParseFault.reason : ParseFault → String
  | .noName => "Missing variable name"
  | .noOperand => "Expected a variable"
  | .invalidPath path => "Invalid variable path " ++ inQuotes path
  | .noCondition => "Expected an expression"
  | .unexpectedToken token => "Unexpected " ++ inQuotes token ++ " in expression"
  | .missingOperand after => "Expected an operand after " ++ inQuotes after
  | .misplacedKeyword keyword => "Expected an operand, found " ++ inQuotes keyword
  | .other reason => reason

/-- The fault in words. -/
def RenderFault.reason : RenderFault → String
  | .notNumeric op => inQuotes op.symbol ++ " requires numeric operands"
  | .other reason => reason

/-- Faults that can be put into words. -/
class Explained (φ : Type) where
  reason : φ → String

instance : Explained ParseFault := ⟨ParseFault.reason⟩

instance : Explained RenderFault := ⟨RenderFault.reason⟩

/-- A fault, and where it arose if that is known. -/
structure Failure (φ : Type) where
  fault : φ
  origin : Option Origin := none
  deriving DecidableEq

namespace Failure

variable {φ : Type}

/-- A result whose fault, if there is one, arose at an origin. -/
def place {α : Type} (origin : Option Origin) (result : Except φ α) : Except (Failure φ) α :=
  result.mapError fun fault => ⟨fault, origin⟩

/-- The failure, placed at an origin unless it has a place already. -/
def orAt (failure : Failure φ) (origin : Option Origin) : Failure φ :=
  { failure with origin := failure.origin.or origin }

/-- Whether the failure has a place. -/
def isLocated (failure : Failure φ) : Bool := failure.origin.isSome

/-- The fault in words. -/
def reason [Explained φ] (failure : Failure φ) : String := Explained.reason failure.fault

/-- The fault in words, with its place after it. -/
def message [Explained φ] (failure : Failure φ) : String :=
  failure.reason ++
    match failure.origin with
    | some origin => " (at " ++ origin.display ++ ")"
    | none => ""

end Failure

/-- A malformed tag. -/
abbrev ParseError := Failure ParseFault

/-- A node that could not be rendered. -/
abbrev RenderError := Failure RenderFault

/-- A template that could not be read or rendered. -/
inductive TemplateError
  | parse (error : ParseError)
  | render (error : RenderError)
  deriving DecidableEq

/-- The message of the failure within. -/
def TemplateError.message : TemplateError → String
  | .parse error => error.message
  | .render error => error.message

end Interpolation
