import Interpolation.Proofs.Condition.Numbers
import Interpolation.Proofs.Context.Paths
import Interpolation.Proofs.Number.Text
import Interpolation.Proofs.Value.Members

/-!
# Membership and members

Whether a container holds a value can also be found out by following its members: a list by its
indices, which run up to its `count`, and a map by its keys.
-/

namespace Interpolation

open Value

variable {context : Context} {p : String}

/-! ## Members of a list on a path -/

namespace Context

variable {items : List Value} (hlist : context.lookup? p = some (.list items))

include hlist

theorem lookup?_list_append_name {name : String} (h : '.' ∉ name.toList) :
    context.lookup? (p ++ "." ++ name) = (Value.list items).member? name := by
  rw [lookup?_append_name context p h, hlist, Option.bind_some]

theorem lookup?_list_append_digits (hsize : items.length ≤ UInt64.size) {name : String} {i : ℕ}
    (h : Numeral.IsDigits name.toList i) : context.lookup? (p ++ "." ++ name) = items[i]? := by
  rw [lookup?_list_append_name hlist h.not_mem_dot, member?_list_of_isDigits h hsize]

theorem lookup?_list_append_index (hsize : items.length ≤ UInt64.size) (i : ℕ) :
    context.lookup? (p ++ "." ++ toString i) = items[i]? :=
  lookup?_list_append_digits hlist hsize (Numeral.isDigits_toString i)

end Context

/-! ## Conditions -/

namespace Comparison

variable {x y : Operand}

theorem isTrue_isIn_iff :
    IsTrue .isIn x y context ↔
      (ofOption (y.resolve context)).holds (ofOption (x.resolve context)) = true := by
  rw [IsTrue, Condition.eval, holds?, Except.ok.injEq]

theorem isTrue_equal_iff_beq :
    IsTrue .equal x y context ↔
      (ofOption (x.resolve context) == ofOption (y.resolve context)) = true := by
  rw [IsTrue, Condition.eval, holds?, Except.ok.injEq]

/-- A missing operand is compared as null. -/
theorem eval_of_resolve_eq_none (hx : x.resolve context = none) (op : Comparison) (y : Operand) :
    (Condition.compare op x y).eval context =
      (Condition.compare op (.literal .null) y).eval context := by
  rw [Condition.eval, Condition.eval, hx]
  rfl

theorem isTrue_greater_zero_iff {n : ℕ} (hx : x.resolve context = some (.int n)) :
    IsTrue .greater x (.literal (.int 0)) context ↔ 0 < n := by
  have hzero : (Operand.literal (.int 0)).resolve context = some (.int 0) := rfl
  rw [isTrue_iff (eval_greater hx hzero (.int n) (.int 0)), Double.intPlace_zero,
    Double.intPlace_pos_iff, Nat.cast_pos]

/-- Item by item, the condition `x in p` is one of the conditions `x == p.i`. -/
theorem isTrue_isIn_list_iff {items : List Value} (hlist : context.lookup? p = some (.list items))
    (hsize : items.length ≤ UInt64.size) :
    IsTrue .isIn x (.path p) context ↔
      ∃ i < items.length, IsTrue .equal x (.path (p ++ "." ++ toString i)) context := by
  rw [isTrue_isIn_iff, Operand.resolve, hlist, ofOption, holds_list_iff]
  refine exists_congr fun i => and_congr_right fun hi => ?_
  have hitem : items[i]? = some items[i] := List.getElem?_eq_getElem hi
  -- `in` compares the item with the value, and `==` the value with the item.
  rw [isTrue_equal_iff_beq, Value.beq_comm, Operand.resolve,
    Context.lookup?_list_append_index hlist hsize i, hitem, ofOption]
  simp

theorem isTrue_isIn_map_iff {entries : List (String × Value)} {s : String}
    (hmap : context.lookup? p = some (.map entries)) (hx : x.resolve context = some (.text s))
    (hs : '.' ∉ s.toList) :
    IsTrue .isIn x (.path p) context ↔ (context.lookup? (p ++ "." ++ s)).isSome = true := by
  rw [isTrue_isIn_iff, Operand.resolve, hmap, hx, ofOption, ofOption, holds_map_text,
    Context.lookup?_append_name context p hs, hmap, Option.bind_some]

theorem eval_isIn_of_not_isContainer {value : Value} (hp : context.lookup? p = some value)
    (hvalue : ¬ value.IsContainer) (x : Operand) :
    (Condition.compare .isIn x (.path p)).eval context = .ok false := by
  rw [Condition.eval, Operand.resolve, hp, ofOption, holds?, holds_of_not_isContainer hvalue]

/-- Where a path leads to a list, `p.count` is the number of its items, `p.i` leads somewhere just
if `i` is less than that, and `p.first` and `p.last` are the items with the first and the last
index.  The list is true as a condition if `p.count > 0` is, and `x in p` is true if one of the
conditions `x == p.i` is.  Where the path leads to a map, `x in p` is true of a text without a dot if
`p.x` leads somewhere, and it is false of everything where the path leads to a value that cannot hold
others.  An operand without a value stands for null.  A list has at most as many items as there are
indices. -/
theorem isIn_agrees_with_members (context : Context) (p : String) (x : Operand) :
    (∀ items, context.lookup? p = some (.list items) → items.length ≤ UInt64.size →
      context.lookup? (p ++ "." ++ "count") = some (.int items.length) ∧
      (∀ digits i, Numeral.IsDigits digits.toList i →
        ((context.lookup? (p ++ "." ++ digits)).isSome = true ↔ i < items.length)) ∧
      (context.lookup? (p ++ "." ++ "first") = context.lookup? (p ++ "." ++ toString 0) ∧
        context.lookup? (p ++ "." ++ "last") =
          context.lookup? (p ++ "." ++ toString (items.length - 1)) ∧
        (items.length = 0 → context.lookup? (p ++ "." ++ "first") = none ∧
          context.lookup? (p ++ "." ++ "last") = none)) ∧
      ((Condition.truthy (.path p)).eval context = .ok true ↔
        IsTrue .greater (.path (p ++ "." ++ "count")) (.literal (.int 0)) context) ∧
      (IsTrue .isIn x (.path p) context ↔
        ∃ i < items.length, IsTrue .equal x (.path (p ++ "." ++ toString i)) context)) ∧
    (∀ entries s, context.lookup? p = some (.map entries) → x.resolve context = some (.text s) →
      '.' ∉ s.toList →
      (IsTrue .isIn x (.path p) context ↔ (context.lookup? (p ++ "." ++ s)).isSome = true)) ∧
    (∀ value, context.lookup? p = some value → ¬ value.IsContainer →
      (Condition.compare .isIn x (.path p)).eval context = .ok false) ∧
    (x.resolve context = none → ∀ op y,
      (Condition.compare op x y).eval context =
        (Condition.compare op (.literal .null) y).eval context) := by
  refine ⟨fun items hlist hsize => ?_, fun entries s => isTrue_isIn_map_iff,
    fun value hp hvalue => eval_isIn_of_not_isContainer hp hvalue x, eval_of_resolve_eq_none⟩
  have hname {name : String} (h : '.' ∉ name.toList) := Context.lookup?_list_append_name hlist h
  have hindex := Context.lookup?_list_append_index hlist hsize
  have hcount : context.lookup? (p ++ "." ++ "count") = some (.int items.length) := by
    rw [hname (by decide), member?_list_count]
  have hfirst : context.lookup? (p ++ "." ++ "first") = items[0]? := by
    rw [hname (by decide), member?_list_first]
  have hlast : context.lookup? (p ++ "." ++ "last") = items[items.length - 1]? := by
    rw [hname (by decide), member?_list_last]
  refine ⟨hcount, fun digits i hdigits => ?_, ⟨?_, ?_, fun hempty => ?_⟩, ?_,
    isTrue_isIn_list_iff hlist hsize⟩
  · rw [Context.lookup?_list_append_digits hlist hsize hdigits,
      Option.isSome_iff_ne_none, ne_eq, List.getElem?_eq_none_iff, not_le]
  · rw [hfirst, hindex]
  · rw [hlast, hindex]
  · rw [hfirst, hlast, List.length_eq_zero_iff.1 hempty]
    exact ⟨rfl, rfl⟩
  · rw [@isTrue_greater_zero_iff _ (.path _) _ hcount, Condition.eval, Operand.resolve, hlist,
      List.length_pos_iff]
    simp [isTruthy]

theorem isIn_agrees_with_members_mixed_numbers :
    let items : List Value := [.null, .float (.ofInt 2), .list []]
    let context : Context :=
      { innermost := [("n", .int 2), ("k", .text "é")],
        enclosing := [[("l", .list items), ("m", .map [("é", .null)])]] }
    (context.lookup? "l" = some (.list items) ∧ items.length ≤ UInt64.size ∧
      IsTrue .isIn (.path "n") (.path "l") context) ∧
    (context.lookup? "m" = some (.map [("é", .null)]) ∧
      (Operand.path "k").resolve context = some (.text "é") ∧
      IsTrue .isIn (.path "k") (.path "m") context) ∧
    (context.lookup? "n" = some (.int 2) ∧
      (Condition.compare .isIn (.path "k") (.path "n")).eval context = .ok false) ∧
    (Operand.path "l.3").resolve context = none ∧
    (Condition.compare .isIn (.path "l.3") (.path "l")).eval context =
      (Condition.compare .isIn (.literal .null) (.path "l")).eval context := by
  intro items context
  have hlist : context.lookup? "l" = some (.list items) := rfl
  have hmap : context.lookup? "m" = some (.map [("é", .null)]) := rfl
  have hsize : items.length ≤ UInt64.size := by decide
  have hkey : (Operand.path "k").resolve context = some (.text "é") := rfl
  have hint : context.lookup? "n" = some (.int 2) := rfl
  have hnone : (Operand.path "l.3").resolve context = none := rfl
  have hequal : IsTrue .equal (.path "n") (.path ("l" ++ "." ++ toString 1)) context := by
    have hnumber : (Operand.path "n").resolve context = some (.int 2) := rfl
    have hitem : (Operand.path ("l" ++ "." ++ toString 1)).resolve context =
        some (.float (.ofInt 2)) := rfl
    rw [isTrue_equal_iff hnumber hitem]
    decide +kernel
  obtain ⟨-, -, -, -, hin⟩ := (isIn_agrees_with_members context "l" (.path "n")).1 items hlist hsize
  obtain ⟨-, hmember, -, -⟩ := isIn_agrees_with_members context "m" (.path "k")
  obtain ⟨-, -, hother, -⟩ := isIn_agrees_with_members context "n" (.path "k")
  obtain ⟨-, -, -, hmissing⟩ := isIn_agrees_with_members context "l" (.path "l.3")
  have hcontainer : ¬ (Value.int 2).IsContainer := by
    intro h
    cases h
  exact ⟨⟨hlist, hsize, hin.2 ⟨1, by decide, hequal⟩⟩,
    ⟨hmap, hkey, (hmember _ "é" hmap hkey (by decide)).2 rfl⟩,
    ⟨hint, hother _ hint hcontainer⟩, hnone, hmissing hnone .isIn (.path "l")⟩

end Comparison

end Interpolation
