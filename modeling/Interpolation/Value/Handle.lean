/-!
# Handles

A handle is a host object that a template can pass around but not look into: it has a type and an
identity, and may carry a content that its owner can ask for.
-/

namespace Interpolation

/-- What a handle carries for its owner. -/
inductive Content
  | hidden
  | word (n : UInt32)
  | integer (n : Int64)
  | text (s : String)
  deriving DecidableEq

/-- A host object without a text of its own. -/
structure Handle where
  typeName : String
  identity : Nat
  content : Content := .hidden
  deriving DecidableEq

namespace Handle

/-- The word that the handle carries. -/
def word? (h : Handle) : Option UInt32 :=
  match h.content with
  | .word n => some n
  | _ => none

/-- The integer that the handle carries. -/
def integer? (h : Handle) : Option Int64 :=
  match h.content with
  | .integer n => some n
  | _ => none

/-- The text that the handle carries. -/
def text? (h : Handle) : Option String :=
  match h.content with
  | .text s => some s
  | _ => none

end Handle

end Interpolation
