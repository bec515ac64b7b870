import Interpolation.Operand

/-!
# The components of a tag

The contents of a tag are cut at white space, except between quotes: a quote opens a segment that
runs to the next quote of the same kind, or to the end.  Quotes stay in their component.
-/

namespace Interpolation.Tag

/-- The quote that is open after a character, if one was open before it. -/
def quoteAfter (quote : Option Char) (c : Char) : Option Char :=
  match quote with
  | some q => if c = q then none else some q
  | none => if Operand.isQuote c then some c else none

/-- One more component in front, unless it is empty. -/
def consComponent (component : List Char) (components : List (List Char)) : List (List Char) :=
  if component.isEmpty then components else component :: components

/-- The rest of the component that the text begins in, and the components after it, where a quote
may be open at the start. -/
def scan (quote : Option Char) : List Char → List Char × List (List Char)
  | [] => ([], [])
  | c :: text =>
    let (component, components) := scan (quoteAfter quote c) text
    if quote.isNone && isSpace c then ([], consComponent component components)
    else (c :: component, components)

/-- The components of the contents of a tag. -/
def components (contents : String) : List String :=
  let (first, rest) := scan none contents.toList
  (consComponent first rest).map String.ofList

end Interpolation.Tag
