import Interpolation.Node

/-!
# Parts

What the source of a template can express, as against what a host can add: literal texts and tags
as the standard compiler reads them.  Every part is a node.
-/

namespace Interpolation

/-- A literal text or a tag. -/
inductive Part
  | text (source : String) (trimming : Trimming) (origin : Option Origin)
  | tag (tag : Tag Operand Condition)

namespace Part

/-- The part as a node. -/
def toNode : Part → Node
  | .text source trimming origin => .text source trimming origin
  | .tag t => .ofTag t

/-- Where the part comes from. -/
def origin : Part → Option Origin
  | .text _ _ origin => origin
  | .tag t => t.origin

@[simp] theorem origin_toNode (part : Part) : part.toNode.origin = part.origin := by
  cases part <;> rfl

end Part

end Interpolation
