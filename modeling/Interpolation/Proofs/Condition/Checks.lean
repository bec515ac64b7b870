import Interpolation.Condition.Basic

/-!
# The comparisons that a condition makes

The evaluation of a condition makes some of its comparisons, from left to right: those on the right
side of an `and` or `or` only if the left side leaves it open.  It fails at the first of them that
orders values which are not both numbers, and for no other reason.
-/

namespace Interpolation

/-- Whether the value is an integer or a double. -/
def Value.isNumber : Value → Bool
  | .int _ | .float _ => true
  | _ => false

/-- Whether the comparison orders its sides. -/
def Comparison.isOrdering : Comparison → Bool
  | .less | .greater | .lessOrEqual | .greaterOrEqual => true
  | .equal | .notEqual | .isIn => false

/-- A comparison of two values. -/
structure Check where
  op : Comparison
  left : Value
  right : Value

namespace Check

/-- Whether the check orders values that are not both numbers. -/
def isFaulty (check : Check) : Bool :=
  check.op.isOrdering && !(check.left.isNumber && check.right.isNumber)

/-- Whether the check holds; a faulty one does not. -/
def holds (check : Check) : Bool := (check.op.holds? check.left check.right).getD false

theorem ordered_eq_none_iff (holds : Double → Double → Bool) (left right : Value) :
    Comparison.ordered holds left right = none ↔ (left.isNumber && right.isNumber) = false := by
  cases left <;> cases right <;> simp [Comparison.ordered, Value.number?, Value.isNumber]

theorem holds?_eq_none_iff (check : Check) :
    check.op.holds? check.left check.right = none ↔ check.isFaulty = true := by
  obtain ⟨op, left, right⟩ := check
  cases op with
  | equal | notEqual | isIn => simp [Comparison.holds?, isFaulty, Comparison.isOrdering]
  | less | greater | lessOrEqual | greaterOrEqual =>
    rw [Comparison.holds?, ordered_eq_none_iff, isFaulty, Comparison.isOrdering, Bool.true_and,
      Bool.not_eq_true']

theorem holds?_eq (check : Check) :
    check.op.holds? check.left check.right = if check.isFaulty then none else some check.holds := by
  by_cases hfaulty : check.isFaulty
  · rw [if_pos hfaulty, holds?_eq_none_iff, hfaulty]
  · obtain ⟨b, hb⟩ := Option.ne_none_iff_exists'.1 (mt check.holds?_eq_none_iff.1 hfaulty)
    rw [if_neg hfaulty, holds, hb, Option.getD_some]

end Check

namespace Condition

/-- The comparison of two operands, an absent value standing for null. -/
def check (op : Comparison) (left right : Operand) (context : Context) : Check :=
  ⟨op, .ofOption (left.resolve context), .ofOption (right.resolve context)⟩

/-- Whether the condition is met, if a faulty comparison counts as false. -/
def isMet (condition : Condition) (context : Context) : Bool :=
  match condition with
  | .truthy operand => (operand.resolve context).any Value.isTruthy
  | .not condition => !condition.isMet context
  | .and left right => left.isMet context && right.isMet context
  | .or left right => left.isMet context || right.isMet context
  | .compare op left right => (check op left right context).holds

/-- The comparisons that evaluation makes, in order, as long as none of them is faulty. -/
def checks (condition : Condition) (context : Context) : List Check :=
  match condition with
  | .truthy _ => []
  | .not condition => condition.checks context
  | .and left right =>
    left.checks context ++ if left.isMet context then right.checks context else []
  | .or left right =>
    left.checks context ++ if left.isMet context then [] else right.checks context
  | .compare op left right => [check op left right context]

/-- The comparisons of a condition, whether they are made or not. -/
def comparisons : Condition → List Comparison
  | .truthy _ => []
  | .not condition => condition.comparisons
  | .and left right | .or left right => left.comparisons ++ right.comparisons
  | .compare op _ _ => [op]

/-- A condition fails at the first faulty comparison that it makes, and is met or not otherwise. -/
theorem eval_eq (condition : Condition) (context : Context) :
    condition.eval context =
      match (condition.checks context).find? Check.isFaulty with
      | some check => .error (.notNumeric check.op)
      | none => .ok (condition.isMet context) := by
  induction condition with
  | truthy operand => rfl
  | not condition ih =>
    rw [eval, ih, checks]
    cases (condition.checks context).find? Check.isFaulty <;> rfl
  | and left right ihl ihr =>
    rw [eval, ihl, ihr, checks, List.find?_append]
    cases (left.checks context).find? Check.isFaulty with
    | some check => rfl
    | none => cases hleft : left.isMet context <;> simp [isMet, hleft] <;> rfl
  | or left right ihl ihr =>
    rw [eval, ihl, ihr, checks, List.find?_append]
    cases (left.checks context).find? Check.isFaulty with
    | some check => rfl
    | none => cases hleft : left.isMet context <;> simp [isMet, hleft] <;> rfl
  | compare op left right =>
    have hholds : op.holds? (.ofOption (left.resolve context)) (.ofOption (right.resolve context)) =
        if (check op left right context).isFaulty then none
        else some (check op left right context).holds := (check op left right context).holds?_eq
    rw [eval, checks, List.find?_singleton, hholds]
    cases (check op left right context).isFaulty <;> rfl

theorem op_mem_comparisons {condition : Condition} {context : Context} {check : Check}
    (h : check ∈ condition.checks context) : check.op ∈ condition.comparisons := by
  induction condition with
  | truthy operand => cases h
  | not condition ih => exact ih h
  | and left right ihl ihr =>
    rcases List.mem_append.1 h with h | h
    · exact List.mem_append_left _ (ihl h)
    · split at h
      · exact List.mem_append_right _ (ihr h)
      · cases h
  | or left right ihl ihr =>
    rcases List.mem_append.1 h with h | h
    · exact List.mem_append_left _ (ihl h)
    · split at h
      · cases h
      · exact List.mem_append_right _ (ihr h)
  | compare op left right =>
    rw [List.mem_singleton.1 h]
    exact List.mem_cons_self

end Condition

end Interpolation
