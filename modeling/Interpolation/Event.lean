import Interpolation.Failure

/-!
# Events

What reading and rendering a template reports while it works, besides its result: how a tag was
understood, and how each node of a list came out.
-/

namespace Interpolation

/-- How much a reader of the log wants to know before an event is shown. -/
inductive Level
  | trace
  | debug
  deriving DecidableEq

/-- One entry of the log. -/
inductive Event
  /-- A tag has a condition, with or without something to show in its place. -/
  | conditional (value : String) (hasElse : Bool)
  /-- A tag without a condition has components after its value. -/
  | ignoredComponents (value : String) (count : Nat)
  /-- The node at an index of its list gave a text of so many bytes. -/
  | rendered (index : Nat) (bytes : Nat)
  /-- The node at an index of its list failed, at a known place or not. -/
  | failed (index : Nat) (reason : String) (located : Bool)
  deriving DecidableEq

namespace Event

/-- The level of an event. -/
def level : Event → Level
  | .failed .. => .debug
  | _ => .trace

/-- What the log says of an event. -/
def message : Event → String
  | .conditional _ true => "Parsed variable with inline if/else"
  | .conditional _ false => "Parsed variable with inline if"
  | .ignoredComponents .. => "Ignoring trailing components of variable tag"
  | .rendered .. => "Rendered node"
  | .failed .. => "Node failed to render"

end Event

/-- A result and the events on the way to it, in order. -/
structure Logged (α : Type) where
  events : List Event
  result : α

end Interpolation
