import Interpolation.Value.Member
import Interpolation.Value.OfJson

/-!
# Contexts

A context is a stack of scopes, never empty, that bind names to values.  A name means what the
innermost scope that binds it says.  A dotted path starts from a name and follows members.
-/

namespace Interpolation

/-- Bindings of names, the latest first. -/
abbrev Scope := List (String × Value)

/-- Bindings in the order in which they are made, so that of several for one name the last
counts. -/
def Scope.ofBindings (bindings : List (String × Value)) : Scope := bindings.reverse

/-- A stack of scopes. -/
structure Context where
  innermost : Scope := []
  enclosing : List Scope := []

namespace Context

/-- A single scope without bindings. -/
def empty : Context := {}

/-- The scopes from the innermost outwards. -/
def scopes (context : Context) : List Scope := context.innermost :: context.enclosing

/-- The context whose only scope holds the members of a JSON object. -/
def ofJson? {ν : Type} [JsonNumber ν] (json : Json ν) : Option Context :=
  match Value.ofJson json with
  | .map entries => some { innermost := entries }
  | _ => none

/-- Bind a name in the innermost scope. -/
def insert (context : Context) (name : String) (value : Value) : Context :=
  { context with innermost := (name, value) :: context.innermost }

/-- Open a scope. -/
def push (context : Context) : Context := { innermost := [], enclosing := context.scopes }

/-- Close the innermost scope, unless it is the only one. -/
def pop (context : Context) : Context :=
  match context.enclosing with
  | [] => context
  | scope :: scopes => { innermost := scope, enclosing := scopes }

/-- The context with one more scope, which holds the given bindings. -/
def within (context : Context) (bindings : List (String × Value)) : Context :=
  { innermost := Scope.ofBindings bindings, enclosing := context.scopes }

/-- The context with the given scopes, the innermost first; if there are none, the empty one. -/
def ofScopes : List Scope → Context
  | [] => .empty
  | innermost :: enclosing => { innermost, enclosing }

/-- What the function gives for the context with one more scope, which holds the given bindings, and
the context when that scope is closed again, be it the last or not. -/
def withScope {α : Type} (context : Context) (bindings : List (String × Value))
    (f : Context → α) : α × Context :=
  let inner := context.within bindings
  (f inner, ofScopes inner.scopes.tail)

/-- How many scopes are open. -/
def depth (context : Context) : Nat := context.scopes.length

/-- The value of a name. -/
def get? (context : Context) (name : String) : Option Value :=
  context.scopes.findSome? fun scope => scope.lookup name

/-- The value that a dotted path leads to. -/
def lookup? (context : Context) (path : String) : Option Value :=
  let (name, members) := Path.segments path
  (context.get? name).bind fun value => value.follow? members

@[simp] theorem pop_push (context : Context) : context.push.pop = context := rfl

@[simp] theorem pop_within (context : Context) (bindings : List (String × Value)) :
    (context.within bindings).pop = context := rfl

/-- The scope of the bindings is never the last one, so that it is closed as any other. -/
theorem withScope_eq {α : Type} (context : Context) (bindings : List (String × Value))
    (f : Context → α) :
    context.withScope bindings f =
      (f (context.within bindings), (context.within bindings).pop) := rfl

theorem get?_eq (context : Context) (name : String) :
    context.get? name =
      (context.innermost.lookup name).or (context.enclosing.findSome? (·.lookup name)) := by
  rw [get?, scopes, List.findSome?_cons]
  cases context.innermost.lookup name <;> rfl

theorem get?_insert (context : Context) (name : String) (value : Value) (other : String) :
    (context.insert name value).get? other =
      if other = name then some value else context.get? other := by
  rw [get?_eq, get?_eq, insert, Entries.lookup_cons]
  by_cases h : other = name <;> simp [h]

theorem get?_within (context : Context) (bindings : List (String × Value)) (name : String) :
    (context.within bindings).get? name =
      (bindings.reverse.lookup name).or (context.get? name) := by
  rw [get?_eq]
  rfl

theorem lookup?_eq (context : Context) (path : String) :
    context.lookup? path =
      (context.get? (Path.root path)).bind (Value.follow? · (Path.segments path).2) := rfl

theorem depth_pos (context : Context) : 0 < context.depth := Nat.succ_pos _

end Context

end Interpolation
