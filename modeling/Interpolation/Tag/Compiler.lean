import Interpolation.Condition.Reader
import Interpolation.Tag.Components

/-!
# Compilers

A tag hands the texts of its parts to a compiler, with its origin.  The compiler gives back operands
of type `ρ` and conditions of type `κ`, or fails, with whatever effects its monad has.  The standard
compiler reads operands and conditions.  Any compiler that may fail and keep a state can be made to
note how it is called and what it answers.
-/

namespace Interpolation

/-- How the parts of a tag are understood. -/
structure Compiler (m : Type → Type) (ρ κ : Type) where
  operand : String → Option Origin → m ρ
  condition : List String → Option Origin → m κ

namespace Compiler

/-- The compiler for `Operand` and `Condition`. -/
def standard : Compiler (Except ParseError) Operand Condition where
  operand := Operand.read
  condition := Condition.read

/-- A call of a compiler. -/
inductive Call
  | operand (raw : String)
  | condition (tokens : List String)
  deriving DecidableEq

/-- A call that was made at an origin, and its answer. -/
inductive Note (ρ κ : Type)
  | operand (raw : String) (origin : Option Origin) (answer : Except ParseError ρ)
  | condition (tokens : List String) (origin : Option Origin) (answer : Except ParseError κ)

/-- The call of the note. -/
def Note.call {ρ κ : Type} : Note ρ κ → Call
  | operand raw _ _ => .operand raw
  | condition tokens _ _ => .condition tokens

variable {σ ρ κ α : Type}

/-- What a compiler does when it is called, with a note of the answer. -/
def noted (note : Except ParseError α → Note ρ κ) (action : ExceptT ParseError (StateM σ) α) :
    ExceptT ParseError (StateM (σ × List (Note ρ κ))) α :=
  .mk fun before =>
    let answered := action.run.run before.1
    (answered.1, answered.2, before.2 ++ [note answered.1])

/-- The compiler that does what another one does, and notes each call. -/
def noting (compiler : Compiler (ExceptT ParseError (StateM σ)) ρ κ) :
    Compiler (ExceptT ParseError (StateM (σ × List (Note ρ κ)))) ρ κ where
  operand raw origin := noted (.operand raw origin) (compiler.operand raw origin)
  condition tokens origin := noted (.condition tokens origin) (compiler.condition tokens origin)

end Compiler

end Interpolation
