import Interpolation.Condition.Basic

/-!
# Reading conditions

A condition is written as tokens: operands with a comparison between two of them, `not` in front,
and `and` and `or` in between.  `not` binds tighter than `and` and `and` tighter than `or`; chains
of either lean to the left, and comparisons do not chain.  The reader takes one token at a time, so
a fault is found at the first token that cannot follow what stands before it.  Each fault is placed
at the origin of the tokens where it is found.
-/

namespace Interpolation.Condition

/-- Tokens that are never operands. -/
def isKeyword (token : String) : Bool :=
  token == "or" || token == "and" || token == "not" || (Comparison.ofSymbol? token).isSome

/-- What the condition that is due will be joined to: the left sides of an `or` and of an `and`
that wait for it, and the number of times that `not` stands before it. -/
structure Pending where
  disjunct : Option Condition := none
  conjunct : Option Condition := none
  negations : Nat := 0

namespace Pending

/-- The condition behind its negations. -/
def negate : Nat → Condition → Condition
  | 0, condition => condition
  | n + 1, condition => .not (negate n condition)

/-- The chain of conjunctions that the condition ends. -/
def conjunction (pending : Pending) (condition : Condition) : Condition :=
  let negated := negate pending.negations condition
  match pending.conjunct with
  | some left => .and left negated
  | none => negated

/-- The chain of disjunctions that the condition ends. -/
def disjunction (pending : Pending) (condition : Condition) : Condition :=
  let right := pending.conjunction condition
  match pending.disjunct with
  | some left => .or left right
  | none => right

end Pending

/-- How far the reader has come. -/
inductive Progress
  /-- A condition is due, after the given token if there was one. -/
  | due (pending : Pending) (last : Option String)
  /-- An operand has been read that a comparison may follow. -/
  | operand (pending : Pending) (left : Operand)
  /-- A comparison has been read, and its right side is due. -/
  | compared (pending : Pending) (left : Operand) (op : Comparison)
  /-- A comparison with both its sides has been read. -/
  | complete (pending : Pending) (condition : Condition)

namespace Progress

/-- Nothing has been read. -/
def start : Progress := .due {} none

variable (origin : Option Origin)

/-- The operand that a token stands for. -/
def operandOf (token : String) : Except ParseError Operand :=
  if isKeyword token then .error ⟨.misplacedKeyword token, origin⟩ else Operand.read token origin

/-- A token after a whole condition: it joins the condition to one that is due. -/
def join (pending : Pending) (condition : Condition) (token : String) :
    Except ParseError Progress :=
  if token = "or" then
    .ok (.due { disjunct := some (pending.disjunction condition) } token)
  else if token = "and" then
    .ok (.due { disjunct := pending.disjunct, conjunct := some (pending.conjunction condition) }
      token)
  else
    .error ⟨.unexpectedToken token, origin⟩

/-- One more token. -/
def step (progress : Progress) (token : String) : Except ParseError Progress :=
  match progress with
  | .due pending _ =>
    if token = "not" then
      .ok (.due { pending with negations := pending.negations + 1 } token)
    else
      (operandOf origin token).map (.operand pending)
  | .operand pending left =>
    match Comparison.ofSymbol? token with
    | some op => .ok (.compared pending left op)
    | none => join origin pending (.truthy left) token
  | .compared pending left op =>
    (operandOf origin token).map fun right => .complete pending (.compare op left right)
  | .complete pending condition => join origin pending condition token

/-- The condition that has been read when the tokens end. -/
def finish : Progress → Except ParseError Condition
  | .due _ none => .error ⟨.noCondition, origin⟩
  | .due _ (some last) => .error ⟨.missingOperand last, origin⟩
  | .operand pending left => .ok (pending.disjunction (.truthy left))
  | .compared _ _ op => .error ⟨.missingOperand op.symbol, origin⟩
  | .complete pending condition => .ok (pending.disjunction condition)

end Progress

/-- The condition that tokens at an origin stand for. -/
def read (tokens : List String) (origin : Option Origin) : Except ParseError Condition := do
  (← tokens.foldlM (Progress.step origin) Progress.start).finish origin

end Interpolation.Condition
