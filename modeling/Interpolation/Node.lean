import Interpolation.Tag.Basic
import Interpolation.Trimming
import Interpolation.Value.Display

/-!
# Nodes

A template is a list of nodes: literal text, tags, and nodes of the host.  A host node gives its
text by itself, or has other nodes rendered on the way, as often as it likes and in contexts of its
choice, and goes on with what they give.  What a tag shows and tests may also come from the host
(`Resolver`, `Test`).
-/

namespace Interpolation

/-- A way to get a value, which may be absent. -/
abbrev Resolver := Context → Except RenderError (Option Value)

/-- A way to decide a condition. -/
abbrev Test := Context → Except RenderError Bool

/-- The value of the operand; there is no fault. -/
def Operand.resolver (operand : Operand) : Resolver := fun context => .ok (operand.resolve context)

/-- The outcome of the condition; a fault has no place of its own. -/
def Condition.test (condition : Condition) : Test := fun context =>
  Failure.place none (condition.eval context)

namespace Tag

/-- The tag with other values and conditions. -/
def map {ρ κ ρ' κ' : Type} (f : ρ → ρ') (g : κ → κ') (tag : Tag ρ κ) : Tag ρ' κ' where
  value := f tag.value
  branch := tag.branch.map fun branch => ⟨g branch.condition, branch.otherwise.map f⟩
  origin := tag.origin

/-- The tag as a node shows it. -/
def resolved (tag : Tag Operand Condition) : Tag Resolver Test :=
  tag.map Operand.resolver Condition.test

/-- The text that the tag shows. -/
def render (tag : Tag Resolver Test) (context : Context) : Except RenderError String := do
  match tag.branch with
  | none => return Value.displayOption (← tag.value context)
  | some branch =>
    if ← branch.condition context then
      return Value.displayOption (← tag.value context)
    else
      match branch.otherwise with
      | none => return ""
      | some otherwise => return Value.displayOption (← otherwise context)

end Tag

mutual

/-- A piece of a template. -/
inductive Node
  | text (source : String) (trimming : Trimming) (origin : Option Origin)
  | tag (tag : Tag Resolver Test)
  | host (handler : Context → Handler) (origin : Option Origin)

/-- What a host node does: it is done, or it has nodes rendered in a context and goes on with the
text that they give, or with their failure. -/
inductive Handler
  | done (result : Except RenderError String)
  | call (nodes : List Node) (context : Context) (next : Except RenderError String → Handler)

end

/-- Have nodes rendered in one context after another.  The given text, theirs, and a last one are
the text of the whole; a failure is passed on. -/
def Handler.each (nodes : List Node) (after : String) : List Context → String → Handler
  | [], text => .done (.ok (text ++ after))
  | context :: contexts, text => .call nodes context fun
    | .error error => .done (.error error)
    | .ok more => each nodes after contexts (text ++ more)

namespace Node

/-- Where the node comes from. -/
def origin : Node → Option Origin
  | .text _ _ origin => origin
  | .tag t => t.origin
  | .host _ origin => origin

/-- The node for a tag that the standard compiler has read. -/
def ofTag (tag : Tag Operand Condition) : Node := .tag tag.resolved

/-- A host node that gives its text by itself. -/
def leaf (render : Context → Except RenderError String) (origin : Option Origin) : Node :=
  .host (fun context => .done (render context)) origin

/-- A host node that surrounds what its children give, once for each context that it chooses. -/
def around (before after : String) (contexts : Context → Except RenderError (List Context))
    (children : List Node) (origin : Option Origin) : Node :=
  .host (fun context =>
    match contexts context with
    | .error error => .done (.error error)
    | .ok contexts => .each children after contexts before) origin

end Node

end Interpolation
