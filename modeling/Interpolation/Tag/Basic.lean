import Interpolation.Event
import Interpolation.Tag.Compiler

/-!
# Tags

A tag shows a value, or shows it only under a condition: `value`, `value if condition` or
`value if condition else other`.  Without an `if` in second place the components after the value
are ignored.  A tag is first cut into its parts (`Outline`), which a compiler then reads: the
condition, what stands in place of the value, and the value.
-/

namespace Interpolation

/-- A condition, and what is shown where it does not hold. -/
structure Branch (ρ κ : Type) where
  condition : κ
  otherwise : Option ρ

/-- A value to show, perhaps under a condition. -/
structure Tag (ρ κ : Type) where
  value : ρ
  branch : Option (Branch ρ κ) := none
  origin : Option Origin := none

namespace Tag

/-! ## The parts of a tag -/

/-- The texts of the parts of a tag. -/
structure Outline where
  value : String
  branch : Option (Branch String (List String))
  ignored : Nat
  deriving Inhabited

namespace Outline

/-- The condition up to the first `else`, and all that follows it. -/
def branchOf (tokens : List String) : Branch String (List String) where
  condition := tokens.takeWhile (· ≠ "else")
  otherwise :=
    match tokens.dropWhile (· ≠ "else") with
    | [] => none
    | _ :: rest => some (" ".intercalate rest)

/-- The parts of a tag with the given components; it must have one. -/
def ofComponents? : List String → Option Outline
  | [] => none
  | value :: rest =>
    match rest with
    | "if" :: tokens => some ⟨value, some (branchOf tokens), 0⟩
    | _ => some ⟨value, none, rest.length⟩

/-- What is reported about the parts of a tag. -/
def events (outline : Outline) : List Event :=
  match outline.branch with
  | some branch => [.conditional outline.value branch.otherwise.isSome]
  | none => if outline.ignored = 0 then [] else [.ignoredComponents outline.value outline.ignored]

/-- The tag with its parts read: the condition, what stands in place of the value, and the value. -/
def compile {m : Type → Type} [Monad m] {ρ κ : Type} (compiler : Compiler m ρ κ)
    (origin : Option Origin) (outline : Outline) : m (Tag ρ κ) := do
  let branch ← outline.branch.mapM fun branch => do
    let condition ← compiler.condition branch.condition origin
    let otherwise ← branch.otherwise.mapM fun raw => compiler.operand raw origin
    return ({ condition, otherwise } : Branch ρ κ)
  let value ← compiler.operand outline.value origin
  return { value, branch, origin }

end Outline

/-! ## Reading a tag -/

/-- The tag with the given components. -/
def ofComponents {m : Type → Type} [Monad m] [MonadExceptOf ParseError m] {ρ κ : Type}
    (compiler : Compiler m ρ κ) (components : List String) (origin : Option Origin) :
    m (Tag ρ κ) :=
  match Outline.ofComponents? components with
  | none => throw ⟨.noName, origin⟩
  | some outline => outline.compile compiler origin

/-- What is reported while a tag with the given components is read. -/
def eventsOf (components : List String) : List Event :=
  (Outline.ofComponents? components).elim [] Outline.events

/-- The tag with the given components as the standard compiler reads it, with what is reported. -/
def read (components : List String) (origin : Option Origin) :
    Logged (Except ParseError (Tag Operand Condition)) :=
  ⟨eventsOf components, ofComponents .standard components origin⟩

end Tag

end Interpolation
