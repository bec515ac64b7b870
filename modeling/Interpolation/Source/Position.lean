/-!
# Positions in a source text

A position is a byte offset together with the row and the column that it falls in, all counted from
zero; a column counts characters.  `Position.at?` finds the row and column of an offset.
-/

namespace Interpolation

/-- A place in a source text. -/
structure Position where
  offset : Nat
  row : Nat
  column : Nat
  deriving DecidableEq

namespace Position

/-- Positions are ordered by offset, then row, then column. -/
instance : Ord Position where
  compare p q :=
    ((compare p.offset q.offset).then (compare p.row q.row)).then (compare p.column q.column)

/-- The characters of a text that start before a byte offset. -/
def startingBefore : Nat → List Char → List Char
  | _, [] => []
  | offset, c :: text =>
    if offset = 0 then [] else c :: startingBefore (offset - c.utf8Size) text

/-- The row and column after one more character. -/
def advance (place : Nat × Nat) (c : Char) : Nat × Nat :=
  if c = '\n' then (place.1 + 1, 0) else (place.1, place.2 + 1)

/-- The position of a byte offset, which may be at most the length of the text. -/
def at? (source : String) (offset : Nat) : Option Position :=
  if offset ≤ source.utf8ByteSize then
    let (row, column) := (startingBefore offset source.toList).foldl advance (0, 0)
    some ⟨offset, row, column⟩
  else
    none

/-- A position of which only the offset is known. -/
def ofOffset (offset : Nat) : Position := ⟨offset, 0, 0⟩

end Position

end Interpolation
