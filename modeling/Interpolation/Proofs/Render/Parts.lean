import Interpolation.Proofs.Render.Outcome
import Interpolation.Template.Part

/-!
# Rendering parts

A part has no children, so that a list of parts is rendered as one outcome after another.  A tag
fails only through its condition.
-/

namespace Interpolation

/-- What a tag shows: one of its two values, which the condition chooses if there is one. -/
theorem Tag.render_resolved (tag : Tag Operand Condition) (context : Context) :
    tag.resolved.render context =
      match tag.branch with
      | none => .ok (Value.displayOption (tag.value.resolve context))
      | some branch => (branch.condition.test context).map fun holds =>
          Value.displayOption (if holds then tag.value.resolve context
            else branch.otherwise.bind (Operand.resolve · context)) := by
  obtain ⟨value, branch, origin⟩ := tag
  cases branch with
  | none => rfl
  | some branch =>
    obtain ⟨condition, otherwise⟩ := branch
    change (condition.test context >>= _) = (condition.test context).map _
    cases condition.test context with
    | error error => rfl
    | ok holds =>
      cases holds with
      | true => rfl
      | false => cases otherwise <;> rfl

namespace Part

/-- What a part gives, before a failure is placed at it. -/
def result (part : Part) (context : Context) : Outcome :=
  match part with
  | .text source trimming _ => .ok (String.ofList (trimming.apply source.toList))
  | .tag t => t.resolved.render context

theorem render_toNode (part : Part) (context : Context) :
    part.toNode.render context = .silent (part.result context) := by
  cases part with
  | text source trimming origin => rw [toNode, Node.render, result]
  | tag t => rw [toNode, Node.ofTag, Node.render, result]

theorem result_renderFrom (parts : List Part) (index : Nat) (context : Context) :
    (Node.renderFrom index (parts.map toNode) context).result =
      Outcome.joinAll (parts.map fun part => Outcome.orAt part.origin (part.result context)) := by
  induction parts generalizing index with
  | nil => rfl
  | cons part parts ih =>
    rw [List.map_cons, Node.renderFrom, Rendering.result_append, Rendering.result_report, ih,
      render_toNode, origin_toNode]
    rfl

end Part

end Interpolation
