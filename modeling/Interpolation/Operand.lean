import Interpolation.Context
import Interpolation.Failure
import Interpolation.Number.Decimal
import Interpolation.Text.Ends

/-!
# Operands

An operand is a literal value or a path into the context.  Its text is, after trimming, a text
between two quotes of one kind, an integer of 64 bits, a decimal without a power of ten, or else a
path, whose segments must not be empty.
-/

namespace Interpolation

/-- A literal or a path. -/
inductive Operand
  | literal (value : Value)
  | path (path : String)

namespace Operand

/-- The characters that open and close a quoted text. -/
def isQuote (c : Char) : Bool := c == '"' || c == '\''

/-- The text between a quote and the same quote at the end. -/
def unquote? : List Char → Option (List Char)
  | [] => none
  | c :: text => if isQuote c ∧ text.getLast? = some c then some text.dropLast else none

/-- Whether a text has only the characters of a decimal without a power of ten, and a digit. -/
def looksNumeric (text : List Char) : Bool :=
  text.all (fun c => c.isDigit || c == '-' || c == '+' || c == '.') && text.any Char.isDigit

/-- The double that a text stands for as an operand. -/
def double? (text : List Char) : Option Double :=
  if looksNumeric text then Double.ofText? text else none

/-- The literal that a text stands for. -/
def literal? (text : List Char) : Option Value :=
  match unquote? text with
  | some quoted => some (.text (String.ofList quoted))
  | none =>
    match Numeral.integer? text with
    | some n => some (.int n)
    | none => (double? text).map Value.float

/-- The operand that a text at an origin stands for. -/
def read (raw : String) (origin : Option Origin) : Except ParseError Operand :=
  let text := trimSpace raw.toList
  if text.isEmpty then
    .error ⟨.noOperand, origin⟩
  else
    match literal? text with
    | some value => .ok (.literal value)
    | none =>
      let trimmed := String.ofList text
      if Path.hasGap trimmed then .error ⟨.invalidPath trimmed, origin⟩ else .ok (.path trimmed)

/-- The value of the operand, if there is one. -/
def resolve (operand : Operand) (context : Context) : Option Value :=
  match operand with
  | .literal value => some value
  | .path p => context.lookup? p

end Operand

end Interpolation
