/-!
# Dotted paths

A path is a text cut at its dots: a first segment and the segments after it.  Every text is a
path; a segment may be empty.
-/

namespace Interpolation.Path

/-- The text before the first dot, and the segments after it. -/
def cut : List Char → List Char × List (List Char)
  | [] => ([], [])
  | c :: text =>
    let (first, rest) := cut text
    if c = '.' then ([], first :: rest) else (c :: first, rest)

/-- The segments of a path. -/
def segments (path : String) : String × List String :=
  let (first, rest) := cut path.toList
  (String.ofList first, rest.map String.ofList)

/-- The name that a path begins with. -/
def root (path : String) : String := (segments path).1

/-- Whether a segment of the path is empty. -/
def hasGap (path : String) : Bool :=
  let (first, rest) := segments path
  first.isEmpty || rest.any String.isEmpty

end Interpolation.Path
