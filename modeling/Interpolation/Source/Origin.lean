import Interpolation.Json
import Interpolation.Source.Position

/-!
# Where a piece of a template comes from

A span runs from one position to another, and an origin is a span in a numbered file.  An origin is
shown to people as its first row and column, counted from one.
-/

namespace Interpolation

/-- The part of a source text between two positions. -/
structure Span where
  start : Position
  stop : Position
  deriving DecidableEq

namespace Span

/-- A span of which only the offsets are known. -/
def ofOffsets (start stop : Nat) : Span := ⟨.ofOffset start, .ofOffset stop⟩

/-- How many bytes the span covers; none if it ends before it starts. -/
def length (span : Span) : Nat := span.stop.offset - span.start.offset

/-- Whether the span covers nothing. -/
def isEmpty (span : Span) : Bool := span.length == 0

end Span

/-- A span in one of several source files. -/
structure Origin where
  file : Nat
  span : Span
  deriving DecidableEq

namespace Origin

/-- The start of the first file, with nothing in it. -/
def start : Origin := ⟨0, .ofOffsets 0 0⟩

/-- The origin of the text between two byte offsets.  Unless both are in range, rows and columns
are left at zero. -/
def ofOffsets (file : Nat) (source : String) (start stop : Nat) : Origin :=
  match Position.at? source start, Position.at? source stop with
  | some first, some last => ⟨file, first, last⟩
  | _, _ => ⟨file, .ofOffsets start stop⟩

/-- The row and column of the start, counted from one. -/
def display (origin : Origin) : String :=
  toString (origin.span.start.row + 1) ++ ":" ++ toString (origin.span.start.column + 1)

end Origin

/-! ## As JSON -/

section Json

variable {ν : Type} [JsonNumber ν]

/-- A position from its offset, row and column. -/
def Position.ofJson? (json : Json ν) : Option Position :=
  match json.fields? ["offset", "row", "column"] with
  | some [offset, row, column] =>
    return ⟨← offset.natural?, ← row.natural?, ← column.natural?⟩
  | _ => none

/-- A span from its two positions. -/
def Span.ofJson? (json : Json ν) : Option Span :=
  match json.fields? ["start", "end"] with
  | some [start, stop] => return ⟨← Position.ofJson? start, ← Position.ofJson? stop⟩
  | _ => none

/-- An origin from the number of its file and its span. -/
def Origin.ofJson? (json : Json ν) : Option Origin :=
  match json.fields? ["file_id", "range"] with
  | some [file, range] => return ⟨← file.natural?, ← Span.ofJson? range⟩
  | _ => none

end Json

end Interpolation
