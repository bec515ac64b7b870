import Interpolation.Failure

/-!
# The words of a fault

Each fault says what it is about between single quotes.
-/

namespace Interpolation

theorem append_inQuotes {words opened : String} (h : words ++ "'" = opened) (s : String) :
    words ++ inQuotes s = opened ++ s ++ "'" := by
  rw [← h, inQuotes, String.append_assoc, String.append_assoc, String.append_assoc]

namespace ParseFault

theorem reason_invalidPath (path : String) :
    (invalidPath path).reason = "Invalid variable path '" ++ path ++ "'" :=
  append_inQuotes rfl path

theorem reason_missingOperand (after : String) :
    (missingOperand after).reason = "Expected an operand after '" ++ after ++ "'" :=
  append_inQuotes rfl after

theorem reason_misplacedKeyword (keyword : String) :
    (misplacedKeyword keyword).reason = "Expected an operand, found '" ++ keyword ++ "'" :=
  append_inQuotes rfl keyword

theorem reason_unexpectedToken (token : String) :
    (unexpectedToken token).reason = "Unexpected '" ++ token ++ "' in expression" := by
  have hopening : "Unexpected " ++ "'" = "Unexpected '" := rfl
  have hclosing : "'" ++ " in expression" = "' in expression" := rfl
  calc "Unexpected " ++ inQuotes token ++ " in expression"
      = "Unexpected '" ++ token ++ "'" ++ " in expression" := by rw [append_inQuotes hopening]
    _ = "Unexpected '" ++ token ++ "' in expression" := by rw [String.append_assoc, hclosing]

end ParseFault

theorem Failure.reason_parse (error : ParseError) : error.reason = error.fault.reason := rfl

theorem RenderFault.reason_notNumeric (op : Comparison) :
    (notNumeric op).reason = "'" ++ op.symbol ++ "' requires numeric operands" := by
  cases op <;> rfl

end Interpolation
