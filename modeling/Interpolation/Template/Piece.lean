import Interpolation.Text.Search

/-!
# The pieces of a template source

A source is cut into literal text and tags: a tag begins at two opening braces and ends at the first
two closing braces after them.  What follows the last tag is one last text.  A source whose last
tag has no end is cut up to that tag.
-/

namespace Interpolation

/-- A piece of a template source. -/
inductive Piece
  /-- A nonempty text before a tag. -/
  | text (s : String)
  /-- A tag with what is between its braces. -/
  | tag (contents : String)
  /-- A nonempty text after the last tag. -/
  | last (s : String)
  /-- A tag that is not closed. -/
  | unclosed
  deriving DecidableEq

namespace Piece

/-- A piece of text, unless it is empty. -/
def ofText (piece : String → Piece) (text : List Char) : List Piece :=
  if text.isEmpty then [] else [piece (String.ofList text)]

/-- The pieces of a source. -/
def cut (source : List Char) : List Piece :=
  match _ : splitAtPair '{' source with
  | none => ofText .last source
  | some (before, inside) =>
    ofText .text before ++
      match _ : splitAtPair '}' inside with
      | none => [.unclosed]
      | some (contents, after) => .tag (String.ofList contents) :: cut after
  termination_by source.length
  decreasing_by
    exact Nat.lt_trans (length_lt_of_splitAtPair ‹_›) (length_lt_of_splitAtPair ‹_›)

/-- How many bytes of the source a piece takes. -/
def width : Piece → Nat
  | .text s | .last s => s.utf8ByteSize
  | .tag contents => contents.utf8ByteSize + 4
  | .unclosed => 0

end Piece

end Interpolation
