import Interpolation.Proofs.Condition.Checks
import Interpolation.Proofs.Value.Equality

/-!
# Comparisons of numbers

The four orderings compare numbers as doubles, and so does equality, except that it tells any two
integers apart.  The comparisons therefore agree with each other unless the numbers are integers that
are rounded to one double (`Merged`), and an ordering of integers goes wrong only by taking the lesser
of them for as great as the other.
-/

namespace Interpolation

/-- The comparison of two operands evaluates to true. -/
def Comparison.IsTrue (op : Comparison) (left right : Operand) (context : Context) : Prop :=
  (Condition.compare op left right).eval context = .ok true

namespace Value

/-- Two integers that differ, but are rounded to the same double. -/
inductive Merged : Value → Value → Prop
  | mk {m n : ℤ} : m ≠ n → Double.ofInt m = Double.ofInt n → Merged (.int m) (.int n)

/-- The value is a number that stands at a place among the doubles. -/
inductive IsPlaced : Value → ℤ → Prop
  | int (n : ℤ) : IsPlaced (.int n) (Double.intPlace n)
  | float {x : Double} {p : ℤ} : x.place? = some p → IsPlaced (.float x) p

variable {a b : Value} {p q : ℤ}

theorem merged_int_iff {m n : ℤ} :
    Merged (.int m) (.int n) ↔ m ≠ n ∧ Double.ofInt m = Double.ofInt n := by
  constructor
  · intro h
    cases h with
    | mk hne hdouble => exact ⟨hne, hdouble⟩
  · rintro ⟨hne, hdouble⟩
    exact .mk hne hdouble

theorem not_float_merged {x : Double} : ¬ Merged (.float x) b := by
  intro h
  cases h

theorem not_merged_float {x : Double} : ¬ Merged a (.float x) := by
  intro h
  cases h

theorem exists_isPlaced (hnumber : a.isNumber = true) (hnan : a ≠ .float .nan) :
    ∃ p, a.IsPlaced p := by
  cases a with
  | int n => exact ⟨_, .int n⟩
  | float x =>
    obtain ⟨p, hp⟩ := Double.exists_place? fun hx : x = .nan => hnan (by rw [hx])
    exact ⟨p, .float hp⟩
  | null | bool | text | list | map | described | handle => cases hnumber

theorem IsPlaced.exists_number? (h : a.IsPlaced p) :
    ∃ x, a.number? = some x ∧ x.place? = some p := by
  cases h with
  | int n => exact ⟨_, rfl, Double.place?_ofInt n⟩
  | float hx => exact ⟨_, rfl, hx⟩

theorem int_beq_int_iff {m n : ℤ} : (Value.int m == .int n) = true ↔ m = n := by
  change equal _ _ = true ↔ _
  rw [equal, beq_iff_eq]

theorem int_beq_float {n : ℤ} {x : Double} : (Value.int n == .float x) = (Double.ofInt n).eq x := by
  change equal _ _ = _
  rw [equal]

theorem float_beq_float {x y : Double} : (Value.float x == .float y) = x.eq y := by
  change equal _ _ = _
  rw [equal]

/-- Numbers are equal if they stand at one place, unless they are integers that are merged. -/
theorem IsPlaced.beq_iff (ha : a.IsPlaced p) (hb : b.IsPlaced q) :
    (a == b) = true ↔ p = q ∧ ¬ Merged a b := by
  have hplaces {x y : Double} {p q : ℤ} (hx : x.place? = some p) (hy : y.place? = some q) :
      x.eq y = true ↔ p = q := by
    rw [Double.eq, Double.comparePlaces_eq _ hx hy, beq_iff_eq]
  cases ha with
  | int m =>
    cases hb with
    | int n =>
      rw [int_beq_int_iff, merged_int_iff, ← Double.ofInt_eq_iff]
      constructor
      · rintro rfl
        exact ⟨rfl, fun hmerged => hmerged.1 rfl⟩
      · rintro ⟨hdouble, hmerged⟩
        by_contra hne
        exact hmerged ⟨hne, hdouble⟩
    | float hy =>
      rw [int_beq_float, hplaces (Double.place?_ofInt m) hy, and_iff_left not_merged_float]
  | float hx =>
    cases hb with
    | int n =>
      rw [Value.beq_comm, int_beq_float, hplaces (Double.place?_ofInt n) hx, eq_comm,
        and_iff_left not_float_merged]
    | float hy => rw [float_beq_float, hplaces hx hy, and_iff_left not_float_merged]

theorem Merged.place_eq (h : Merged a b) (ha : a.IsPlaced p) (hb : b.IsPlaced q) : p = q := by
  obtain ⟨-, hdouble⟩ := h
  cases ha with
  | int m =>
    cases hb with
    | int n => exact Double.ofInt_eq_iff.1 hdouble

theorem IsPlaced.ordered {compare : Double → Double → Bool} {holds : Bool} (ha : a.IsPlaced p)
    (hb : b.IsPlaced q)
    (h : ∀ x y : Double, x.place? = some p → y.place? = some q → compare x y = holds) :
    Comparison.ordered compare a b = some holds := by
  obtain ⟨x, hx, hp⟩ := ha.exists_number?
  obtain ⟨y, hy, hq⟩ := hb.exists_number?
  rw [Comparison.ordered, hx, hy, ← h x y hp hq]
  rfl

end Value

/-! ## Conditions -/

namespace Comparison

open Value

variable {left right : Operand} {context : Context} {a b : Value} {p q : ℤ}

theorem eval_of_holds? {op : Comparison} {holds : Bool} (hleft : left.resolve context = some a)
    (hright : right.resolve context = some b) (h : op.holds? a b = some holds) :
    (Condition.compare op left right).eval context = .ok holds := by
  rw [Condition.eval, hleft, hright, Value.ofOption, Value.ofOption, h]

section Placed

variable (hleft : left.resolve context = some a) (hright : right.resolve context = some b)
  (ha : a.IsPlaced p) (hb : b.IsPlaced q)

include hleft hright

theorem isTrue_equal_iff : IsTrue .equal left right context ↔ (a == b) = true := by
  have hholds : Comparison.equal.holds? a b = some (a == b) := rfl
  rw [IsTrue, eval_of_holds? hleft hright hholds, Except.ok.injEq]

include ha hb

theorem eval_less : (Condition.compare .less left right).eval context = .ok (decide (p < q)) :=
  eval_of_holds? hleft hright (ha.ordered hb fun _ _ hx hy => Double.comparePlaces_eq _ hx hy)

theorem eval_greater : (Condition.compare .greater left right).eval context = .ok (decide (q < p)) :=
  eval_of_holds? hleft hright (ha.ordered hb fun _ _ hx hy => Double.comparePlaces_eq _ hy hx)

theorem eval_lessOrEqual :
    (Condition.compare .lessOrEqual left right).eval context = .ok (decide (p ≤ q)) :=
  eval_of_holds? hleft hright (ha.ordered hb fun _ _ hx hy => Double.comparePlaces_eq _ hx hy)

theorem eval_greaterOrEqual :
    (Condition.compare .greaterOrEqual left right).eval context = .ok (decide (q ≤ p)) :=
  eval_of_holds? hleft hright (ha.ordered hb fun _ _ hx hy => Double.comparePlaces_eq _ hy hx)

end Placed

theorem isTrue_iff {op : Comparison} {P : Prop} [Decidable P]
    (h : (Condition.compare op left right).eval context = .ok (decide P)) :
    op.IsTrue left right context ↔ P := by
  rw [IsTrue, h, Except.ok.injEq, decide_eq_true_iff]

/-- One of three comparisons decides where two places stand to each other. -/
theorem existsUnique_of_places {holds : Comparison → Prop} (hless : holds .less ↔ p < q)
    (hequal : holds .equal ↔ p = q) (hgreater : holds .greater ↔ q < p) :
    ∃! op, op ∈ [less, equal, greater] ∧ holds op := by
  have hcases (op : Comparison) (hop : op ∈ [less, equal, greater] ∧ holds op) :
      op = .less ∧ p < q ∨ op = .equal ∧ p = q ∨ op = .greater ∧ q < p := by
    obtain ⟨hmem, hholds⟩ := hop
    simp only [List.mem_cons, List.not_mem_nil, or_false] at hmem
    rcases hmem with rfl | rfl | rfl
    · exact .inl ⟨rfl, hless.1 hholds⟩
    · exact .inr (.inl ⟨rfl, hequal.1 hholds⟩)
    · exact .inr (.inr ⟨rfl, hgreater.1 hholds⟩)
  rcases lt_trichotomy p q with h | h | h
  · refine ⟨.less, ⟨by decide, hless.2 h⟩, fun op hop => ?_⟩
    rcases hcases op hop with ⟨rfl, -⟩ | ⟨-, h'⟩ | ⟨-, h'⟩
    · rfl
    all_goals omega
  · refine ⟨.equal, ⟨by decide, hequal.2 h⟩, fun op hop => ?_⟩
    rcases hcases op hop with ⟨-, h'⟩ | ⟨rfl, -⟩ | ⟨-, h'⟩
    · omega
    · rfl
    · omega
  · refine ⟨.greater, ⟨by decide, hgreater.2 h⟩, fun op hop => ?_⟩
    rcases hcases op hop with ⟨-, h'⟩ | ⟨-, h'⟩ | ⟨rfl, -⟩
    · omega
    · omega
    · rfl

/-- Of two numbers other than NaN, just one of `<`, `==` and `>` is true, `<=` is true if `<` or `==`
is, and `>=` if `>` or `==` is.  The exception is two integers that differ but are rounded to one
double: none of the three is true of them, while `<=` and `>=` both are.  An integer is rounded to the
nearest double, ties to even. -/
theorem numbers_agree_unless_merged (hleft : left.resolve context = some a)
    (hright : right.resolve context = some b) (ha : a.isNumber = true) (hanan : a ≠ .float .nan)
    (hb : b.isNumber = true) (hbnan : b ≠ .float .nan) :
    (¬ Merged a b →
      (∃! op, op ∈ [less, equal, greater] ∧ op.IsTrue left right context) ∧
      (IsTrue .lessOrEqual left right context ↔
        IsTrue .less left right context ∨ IsTrue .equal left right context) ∧
      (IsTrue .greaterOrEqual left right context ↔
        IsTrue .greater left right context ∨ IsTrue .equal left right context)) ∧
    (Merged a b →
      (∀ op ∈ [less, equal, greater], ¬ op.IsTrue left right context) ∧
      IsTrue .lessOrEqual left right context ∧ IsTrue .greaterOrEqual left right context) ∧
    ∀ (n : ℤ) (x : Double), x.IsNearest (n < 0) n.natAbs ↔ x = .ofInt n := by
  obtain ⟨p, hp⟩ := exists_isPlaced ha hanan
  obtain ⟨q, hq⟩ := exists_isPlaced hb hbnan
  have hless := isTrue_iff (eval_less hleft hright hp hq)
  have hgreater := isTrue_iff (eval_greater hleft hright hp hq)
  have hle := isTrue_iff (eval_lessOrEqual hleft hright hp hq)
  have hge := isTrue_iff (eval_greaterOrEqual hleft hright hp hq)
  have hequal := (isTrue_equal_iff hleft hright).trans (hp.beq_iff hq)
  refine ⟨fun hmerged => ?_, fun hmerged => ?_, fun _ _ => Double.isNearest_ofInt_iff⟩
  · rw [and_iff_left hmerged] at hequal
    refine ⟨existsUnique_of_places hless hequal hgreater, ?_, ?_⟩
    · rw [hle, hless, hequal, le_iff_lt_or_eq]
    · rw [hge, hgreater, hequal, le_iff_lt_or_eq, eq_comm]
  · -- The integers stand at one place, so only equality tells them apart.
    have heq := hmerged.place_eq hp hq
    refine ⟨?_, hle.2 heq.le, hge.2 heq.ge⟩
    simp only [List.forall_mem_cons, List.not_mem_nil, false_implies, implies_true, and_true]
    rw [hless, hequal, hgreater]
    exact ⟨heq.not_lt, fun h => h.2 hmerged, heq.not_gt⟩

theorem numbers_agree_unless_merged_at_two_pow_53 :
    let context : Context := { innermost := [("n", .int 9007199254740993)] }
    let left := Operand.path "n"
    let double := Operand.literal (.float (.ofInt 9007199254740992))
    let integer := Operand.literal (.int 9007199254740992)
    left.resolve context = some (.int 9007199254740993) ∧
      (∃! op, op ∈ [less, equal, greater] ∧ op.IsTrue left double context) ∧
      ∀ op ∈ [less, equal, greater], ¬ op.IsTrue left integer context := by
  intro context left double integer
  have hleft : left.resolve context = some (.int 9007199254740993) := rfl
  have hdouble : double.resolve context = some (.float (.ofInt 9007199254740992)) := rfl
  have hinteger : integer.resolve context = some (.int 9007199254740992) := rfl
  have hnan : Value.float (.ofInt 9007199254740992) ≠ .float .nan := by
    rw [ne_eq, Value.float.injEq]
    decide +kernel
  have hmixed := numbers_agree_unless_merged hleft hdouble rfl nofun rfl hnan
  have hmerged := numbers_agree_unless_merged hleft hinteger rfl nofun rfl nofun
  exact ⟨hleft, (hmixed.1 nofun).1, (hmerged.2.1 ⟨by decide, by decide +kernel⟩).1⟩

/-- The last of the integers up to which all are doubles, and the next one, which is rounded to
it. -/
theorem no_order_at_two_pow_53 :
    let left := Operand.literal (.int 9007199254740992)
    let right := Operand.literal (.int 9007199254740993)
    (∀ op ∈ [less, equal, greater], ¬ op.IsTrue left right .empty) ∧
      IsTrue .lessOrEqual left right .empty ∧ IsTrue .greaterOrEqual left right .empty := by
  intro left right
  have heval {op : Comparison} {holds : Bool}
      (h : op.holds? (.int 9007199254740992) (.int 9007199254740993) = some holds) :
      (Condition.compare op left right).eval .empty = .ok holds := eval_of_holds? rfl rfl h
  have hfalse : ∀ op ∈ [less, equal, greater],
      op.holds? (.int 9007199254740992) (.int 9007199254740993) = some false := by decide +kernel
  refine ⟨fun op hop => ?_, heval (by decide +kernel), heval (by decide +kernel)⟩
  rw [IsTrue, heval (hfalse op hop)]
  nofun

/-- Where `<` or `>` is true of two integers, they are in this order, and where they are in the order
of `<=` or `>=`, the comparison is true.  Up to `2 ^ 53` on either side of zero, all four orderings say
just how the integers stand.  An integer is rounded to the nearest double, ties to even. -/
theorem integers_ordered_as_rounded {m n : ℤ} (hleft : left.resolve context = some (.int m))
    (hright : right.resolve context = some (.int n)) :
    ((IsTrue .less left right context → m < n) ∧ (IsTrue .greater left right context → n < m)) ∧
    ((m ≤ n → IsTrue .lessOrEqual left right context) ∧
      (n ≤ m → IsTrue .greaterOrEqual left right context)) ∧
    (|m| ≤ 2 ^ 53 → |n| ≤ 2 ^ 53 →
      (Condition.compare .less left right).eval context = .ok (decide (m < n)) ∧
      (Condition.compare .greater left right).eval context = .ok (decide (n < m)) ∧
      (Condition.compare .lessOrEqual left right).eval context = .ok (decide (m ≤ n)) ∧
      (Condition.compare .greaterOrEqual left right).eval context = .ok (decide (n ≤ m))) ∧
    ∀ (k : ℤ) (x : Double), x.IsNearest (k < 0) k.natAbs ↔ x = .ofInt k := by
  have hless := eval_less hleft hright (.int m) (.int n)
  have hgreater := eval_greater hleft hright (.int m) (.int n)
  have hle := eval_lessOrEqual hleft hright (.int m) (.int n)
  have hge := eval_greaterOrEqual hleft hright (.int m) (.int n)
  refine ⟨⟨fun h => ?_, fun h => ?_⟩, ⟨fun h => ?_, fun h => ?_⟩, fun hm hn => ?_,
    fun _ _ => Double.isNearest_ofInt_iff⟩
  · exact Double.lt_of_intPlace_lt ((isTrue_iff hless).1 h)
  · exact Double.lt_of_intPlace_lt ((isTrue_iff hgreater).1 h)
  · exact (isTrue_iff hle).2 (Double.intPlace_mono h)
  · exact (isTrue_iff hge).2 (Double.intPlace_mono h)
  · rw [hless, hgreater, hle, hge]
    simp only [Double.intPlace_lt_iff hm hn, Double.intPlace_lt_iff hn hm,
      Double.intPlace_le_iff hm hn, Double.intPlace_le_iff hn hm, and_self]

theorem integers_ordered_as_rounded_at_two_pow_53 :
    let context : Context := { innermost := [("n", .int 9007199254740992)] }
    let left := Operand.path "n"
    let right := Operand.literal (.int (-9007199254740991))
    left.resolve context = some (.int 9007199254740992) ∧
      right.resolve context = some (.int (-9007199254740991)) ∧
      (Condition.compare .greater left right).eval context = .ok true ∧
      IsTrue .greaterOrEqual left right context := by
  intro context left right
  have hleft : left.resolve context = some (.int 9007199254740992) := rfl
  have hright : right.resolve context = some (.int (-9007199254740991)) := rfl
  obtain ⟨-, ⟨-, hge⟩, hexact, -⟩ := integers_ordered_as_rounded hleft hright
  exact ⟨hleft, hright, (hexact (by decide) (by decide)).2.1, hge (by decide)⟩

end Comparison

end Interpolation
