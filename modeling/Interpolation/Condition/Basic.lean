import Interpolation.Operand

/-!
# Conditions

A condition tests an operand, compares two operands, or joins conditions by `not`, `and` and `or`.
Evaluation goes from left to right and stops as soon as the result is known.  An operand without a
value is false when tested, and null when compared.
-/

namespace Interpolation

/-- What decides which part of a tag is shown. -/
inductive Condition
  | truthy (operand : Operand)
  | not (condition : Condition)
  | and (left right : Condition)
  | or (left right : Condition)
  | compare (op : Comparison) (left right : Operand)

namespace Condition

/-- Whether the condition holds; an ordering of values that are not numbers is a fault. -/
def eval (condition : Condition) (context : Context) : Except RenderFault Bool :=
  match condition with
  | .truthy operand => .ok ((operand.resolve context).any Value.isTruthy)
  | .not condition => do return !(← condition.eval context)
  | .and left right => do if ← left.eval context then right.eval context else return false
  | .or left right => do if ← left.eval context then return true else right.eval context
  | .compare op left right =>
    match op.holds? (.ofOption (left.resolve context)) (.ofOption (right.resolve context)) with
    | some holds => .ok holds
    | none => .error (.notNumeric op)

end Condition

end Interpolation
