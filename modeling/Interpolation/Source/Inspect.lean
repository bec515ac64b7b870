import Interpolation.Source.Origin

/-!
# Origins in full

The text of an origin for developers, with the names of all its parts, and that of a host node.
-/

namespace Interpolation

/-- A named record with its fields. -/
def inspectRecord (name : String) (fields : List (String × String)) : String :=
  let shown := fields.map fun (field, value) => field ++ ": " ++ value
  name ++ " \x7b " ++ ", ".intercalate shown ++ " \x7d"

/-- The position with all its parts. -/
def Position.inspect (position : Position) : String :=
  inspectRecord "Location"
    [("offset", toString position.offset), ("row", toString position.row),
      ("column", toString position.column)]

/-- The span with all its parts. -/
def Span.inspect (span : Span) : String :=
  inspectRecord "Range" [("start", span.start.inspect), ("end", span.stop.inspect)]

/-- The origin with all its parts. -/
def Origin.inspect (origin : Origin) : String :=
  inspectRecord "SourceInfo"
    [("file_id", "FileId(" ++ toString origin.file ++ ")"), ("range", origin.span.inspect)]

/-- A host node, of which only the origin can be shown. -/
def inspectHost (origin : Option Origin) : String :=
  let shown := match origin with
    | none => "None"
    | some origin => "Some(" ++ origin.inspect ++ ")"
  "SimpleNode \x7b source_info: " ++ shown ++ ", .. \x7d"

end Interpolation
