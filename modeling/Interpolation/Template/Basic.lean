import Interpolation.Render
import Interpolation.Template.Part
import Interpolation.Template.Piece

/-!
# Templates

A template is a list of nodes that is rendered as a whole.  It can be made from a source text with
tags between double braces: its texts and tags become parts that know where they come from, but for
the text after the last tag.
-/

namespace Interpolation

/-- A list of nodes to be rendered. -/
structure Template where
  nodes : List Node

/-- Why a source text is no template. -/
inductive SourceError
  | unclosedTag
  | tag (error : ParseError)
  deriving DecidableEq

namespace Template

/-- The text of the template in a context. -/
def render (template : Template) (context : Context) : Logged (Except TemplateError String) :=
  let rendering := Node.renderAll template.nodes context
  ⟨rendering.events, rendering.result.mapError .render⟩

/-- The parts for pieces of a source, the first of them standing at a byte offset. -/
def partsFrom (file : Nat) (source : String) (offset : Nat) :
    List Piece → Logged (Except SourceError (List Part))
  | [] => ⟨[], .ok []⟩
  | piece :: pieces =>
    let stop := offset + piece.width
    let origin := Origin.ofOffsets file source offset stop
    let rest := partsFrom file source stop pieces
    match piece with
    | .text s => { rest with result := rest.result.map (.text s .nothing (some origin) :: ·) }
    | .last s => { rest with result := rest.result.map (.text s .nothing none :: ·) }
    | .tag contents =>
      let reading := Tag.read (Tag.components contents) (some origin)
      match reading.result with
      | .error error => ⟨reading.events, .error (.tag error)⟩
      | .ok tag => ⟨reading.events ++ rest.events, rest.result.map (.tag tag :: ·)⟩
    | .unclosed => ⟨[], .error .unclosedTag⟩

/-- The parts of a source text, with what is reported while its tags are read. -/
def partsOf (file : Nat) (source : String) : Logged (Except SourceError (List Part)) :=
  partsFrom file source 0 (Piece.cut source.toList)

/-- The template made of parts. -/
def ofParts (parts : List Part) : Template := ⟨parts.map Part.toNode⟩

/-- The template that a source text stands for, with what is reported while its tags are read. -/
def ofSource (file : Nat) (source : String) : Logged (Except SourceError Template) :=
  let parts := partsOf file source
  ⟨parts.events, parts.result.map ofParts⟩

end Template

end Interpolation
