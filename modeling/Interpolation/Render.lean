import Interpolation.Node

/-!
# Rendering

Nodes are rendered in order and their texts joined.  The first failure ends the rendering; it is
placed at the node that failed unless it has a place already.  Each node of a list reports one
event when it is done, after the events of its children.
-/

namespace Interpolation

/-- The outcome of rendering, with the events on the way. -/
abbrev Rendering := Logged (Except RenderError String)

namespace Rendering

/-- A rendering without events. -/
def silent (result : Except RenderError String) : Rendering := ⟨[], result⟩

/-- The first rendering and, if it succeeds, the second: the texts joined, the events in order. -/
def append (first second : Rendering) : Rendering :=
  match first.result with
  | .error error => ⟨first.events, .error error⟩
  | .ok text => ⟨first.events ++ second.events, second.result.map (text ++ ·)⟩

/-- The rendering with events before its own. -/
def after (events : List Event) (rendering : Rendering) : Rendering :=
  { rendering with events := events ++ rendering.events }

/-- The rendering of the node at an index of its list: it reports how the node came out, and a
failure is placed at the node. -/
def report (index : Nat) (origin : Option Origin) (rendering : Rendering) : Rendering :=
  match rendering.result with
  | .ok text => ⟨rendering.events ++ [.rendered index text.utf8ByteSize], .ok text⟩
  | .error error =>
    ⟨rendering.events ++ [.failed index error.reason error.isLocated], .error (error.orAt origin)⟩

end Rendering

mutual

/-- What the node shows in a context. -/
def Node.render : Node → Context → Rendering
  | .text source trimming _, _ =>
    .silent (.ok (String.ofList (trimming.apply source.toList)))
  | .tag t, context => .silent (t.render context)
  | .host handler _, context => (handler context).run

/-- What the handler gives, with the events of the nodes that it has rendered. -/
def Handler.run : Handler → Rendering
  | .done result => .silent result
  | .call nodes context next =>
    let children := Node.renderFrom 0 nodes context
    (next children.result).run.after children.events

/-- What a list of nodes shows in a context, the first of them standing at an index. -/
def Node.renderFrom (index : Nat) : List Node → Context → Rendering
  | [], _ => .silent (.ok "")
  | node :: nodes, context =>
    ((node.render context).report index node.origin).append
      (Node.renderFrom (index + 1) nodes context)

end

/-- What a list of nodes shows in a context. -/
def Node.renderAll (nodes : List Node) (context : Context) : Rendering := renderFrom 0 nodes context

end Interpolation
