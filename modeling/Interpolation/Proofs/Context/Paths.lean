import Interpolation.Context
import Interpolation.Proofs.Text.Path

/-!
# Paths that start from a bound value

A path that is cut at one of its dots is followed in two parts: the first leads to a value, and the
second is followed from there.  So the value may be bound to a name in between.  Only the innermost
scope that binds the first segment has a say, also if a later segment leads nowhere.
-/

namespace Interpolation.Context

variable (context : Context)

theorem lookup?_append_dot (p q : String) :
    context.lookup? (p ++ "." ++ q) =
      (context.lookup? p).bind fun value => value.follow? (Path.names q) := by
  have hmembers : (Path.segments (p ++ "." ++ q)).2 = (Path.segments p).2 ++ Path.names q :=
    (List.cons.inj (Path.names_append_dot p q)).2
  rw [lookup?_eq, lookup?_eq, Path.root_append_dot, hmembers, Option.bind_assoc]
  simp only [Value.follow?_append]

theorem lookup?_of_not_mem {name : String} (h : '.' ∉ name.toList) :
    context.lookup? name = context.get? name := by
  obtain ⟨hroot, hmembers⟩ := List.cons.inj (Path.names_of_not_mem h)
  rw [lookup?_eq, Path.root, hroot, hmembers]
  simp

theorem lookup?_append_name (p : String) {name : String} (h : '.' ∉ name.toList) :
    context.lookup? (p ++ "." ++ name) =
      (context.lookup? p).bind fun value => value.member? name := by
  rw [lookup?_append_dot, Path.names_of_not_mem h]
  simp only [Value.follow?_cons, Value.follow?_nil, Option.bind_fun_some]

theorem get?_within_singleton (x name : String) (value : Value) :
    (context.within [(x, value)]).get? name =
      if name = x then some value else context.get? name := by
  rw [get?_within, List.reverse_singleton, Entries.lookup_cons]
  by_cases h : name = x <;> simp [h]

theorem lookup?_within_of_root_ne {x r : String} (h : Path.root r ≠ x) (value : Value) :
    (context.within [(x, value)]).lookup? r = context.lookup? r := by
  rw [lookup?_eq, lookup?_eq, get?_within_singleton, if_neg h]

variable {context}

/-- The innermost scope that binds a name decides what it means. -/
theorem get?_of_scopes {inner outer : List Scope} {scope : Scope} {name : String} {value : Value}
    (hscopes : context.scopes = inner ++ scope :: outer)
    (hinner : ∀ s ∈ inner, s.lookup name = none) (hscope : scope.lookup name = some value) :
    context.get? name = some value := by
  have hnone : inner.findSome? (fun s => s.lookup name) = none :=
    List.findSome?_eq_none_iff.2 hinner
  rw [get?, hscopes, List.findSome?_append, hnone, Option.none_or, List.findSome?_cons, hscope]

/-- A path that leads nowhere leads nowhere with more segments.  A value that a path leads to can be
bound to a name without a dot: the name and what follows it then lead where the path and what
follows it do, and paths that begin otherwise lead where they did.  What the innermost scope with
the first segment of a path binds it to decides where the path leads, whatever the scopes around it
bind. -/
theorem lookup?_through_binding (context : Context) (p q x : String) (hx : '.' ∉ x.toList) :
    (context.lookup? p = none → context.lookup? (p ++ "." ++ q) = none) ∧
    (∀ value, context.lookup? p = some value →
      (context.within [(x, value)]).lookup? x = some value ∧
      (context.within [(x, value)]).lookup? (x ++ "." ++ q) = context.lookup? (p ++ "." ++ q) ∧
      ∀ r, Path.root r ≠ x → (context.within [(x, value)]).lookup? r = context.lookup? r) ∧
    ∀ r inner scope outer value, context.scopes = inner ++ scope :: outer →
      (∀ s ∈ inner, s.lookup (Path.root r) = none) → scope.lookup (Path.root r) = some value →
      context.lookup? r = value.follow? (Path.names r).tail := by
  refine ⟨fun hp => ?_, fun value hp => ?_,
    fun r inner scope outer value hscopes hinner hscope => ?_⟩
  · rw [lookup?_append_dot, hp, Option.bind_none]
  · have hname : (context.within [(x, value)]).lookup? x = some value := by
      rw [lookup?_of_not_mem _ hx, get?_within_singleton, if_pos rfl]
    refine ⟨hname, ?_, fun r hr => lookup?_within_of_root_ne context hr value⟩
    rw [lookup?_append_dot, lookup?_append_dot, hname, hp]
  · rw [lookup?_eq, get?_of_scopes hscopes hinner hscope]
    rfl

theorem lookup?_through_binding_hidden_member :
    let inside : Value := .map [("age", .int 3), ("", .list [.null, .text "é"])]
    let context : Context :=
      { innermost := [("y", .null)], enclosing := [[("u", inside)], [("u", .map [("b", .int 1)])]] }
    context.lookup? "u.b" = none ∧ context.lookup? "u.b.c" = none ∧
      context.lookup? "u." = some (.list [.null, .text "é"]) ∧
      (context.within [("y", .list [.null, .text "é"])]).lookup? "y" =
        some (.list [.null, .text "é"]) ∧
      (context.within [("y", .list [.null, .text "é"])]).lookup? "y.1.count" =
        context.lookup? "u..1.count" ∧
      Path.root "u.age" ≠ "y" ∧
      (context.within [("y", .list [.null, .text "é"])]).lookup? "u.age" =
        context.lookup? "u.age" := by
  intro inside context
  have hy : '.' ∉ "y".toList := by decide
  have hmissing : context.lookup? "u.b" = none := by
    obtain ⟨-, -, hinner⟩ := lookup?_through_binding context "u" "b" "y" hy
    rw [hinner "u.b" [[("y", .null)]] [("u", inside)] [[("u", .map [("b", .int 1)])]] inside rfl
      (List.forall_mem_singleton.2 rfl) rfl]
    rfl
  have hfound : context.lookup? "u." = some (.list [.null, .text "é"]) := rfl
  obtain ⟨hnone, -, -⟩ := lookup?_through_binding context "u.b" "c" "y" hy
  obtain ⟨-, hsome, -⟩ := lookup?_through_binding context "u." "1.count" "y" hy
  obtain ⟨hname, hpath, hother⟩ := hsome _ hfound
  have hroot : Path.root "u.age" ≠ "y" := by decide
  exact ⟨hmissing, hnone hmissing, hfound, hname, hpath, hroot, hother "u.age" hroot⟩

end Interpolation.Context
