import Interpolation.Proofs.Number.Order
import Interpolation.Proofs.Value.Entries
import Interpolation.Value.Equality

/-!
# Equality place by place

Two values are equal if they have the same places inside them and what stands at each place looks
the same at its top (`beq_iff_at?`).  So equality is as good as it is between the tops: it is
symmetric; it is reflexive but for NaN; and it is transitive unless a double stands between two
integers that are both rounded to it.
-/

namespace Interpolation.Value

/-! ## Places -/

/-- The items of a list and the values in a map, in their order. -/
def items : Value → List Value
  | .list items => items
  | .map entries => entries.map Prod.snd
  | _ => []

/-- What stands at a place: the item with the first number, in it the item with the next, and so
on. -/
def at? (value : Value) : List ℕ → Option Value
  | [] => some value
  | i :: place => value.items[i]?.bind fun item => item.at? place

@[simp] theorem at?_nil (value : Value) : value.at? [] = some value := rfl

theorem at?_cons (value : Value) (i : ℕ) (place : List ℕ) :
    value.at? (i :: place) = value.items[i]?.bind fun item => item.at? place := rfl

theorem sizeOf_lt_of_mem_items {value item : Value} (h : item ∈ value.items) :
    sizeOf item < sizeOf value := by
  cases value with
  | list items =>
    have hlt : sizeOf item < sizeOf items := List.sizeOf_lt_of_mem h
    rw [list.sizeOf_spec]
    omega
  | map entries =>
    obtain ⟨⟨key, item⟩, hentry, rfl⟩ := List.mem_map.1 h
    have hlt := List.sizeOf_lt_of_mem hentry
    rw [Prod.mk.sizeOf_spec] at hlt
    rw [map.sizeOf_spec]
    dsimp only
    omega
  | null | bool | int | float | text | described | handle => cases h

/-- What holds of a value if it holds of its items holds of every value. -/
theorem induction_on_items {motive : Value → Prop}
    (step : ∀ value, (∀ item ∈ value.items, motive item) → motive value) (value : Value) :
    motive value :=
  step value fun item _ => induction_on_items step item
termination_by sizeOf value
decreasing_by exact sizeOf_lt_of_mem_items ‹_›

/-! ## Tops -/

/-- Two values look the same from outside, whatever the items of lists and the values in maps. -/
inductive Same : Value → Value → Prop
  | null : Same .null .null
  | bool (b : Bool) : Same (.bool b) (.bool b)
  | int (n : ℤ) : Same (.int n) (.int n)
  | float {x y : Double} : x.eq y = true → Same (.float x) (.float y)
  | intFloat {n : ℤ} {x : Double} : (Double.ofInt n).eq x = true → Same (.int n) (.float x)
  | floatInt {n : ℤ} {x : Double} : (Double.ofInt n).eq x = true → Same (.float x) (.int n)
  | text (s : String) : Same (.text s) (.text s)
  | list (xs ys : List Value) : Same (.list xs) (.list ys)
  | map {xs ys : List (String × Value)} : Entries.keys xs = Entries.keys ys →
      Same (.map xs) (.map ys)
  | described (s : String) : Same (.described s) (.described s)
  | handle {g h : Handle} : g.identity = h.identity → Same (.handle g) (.handle h)

variable {a b c : Value}

theorem Same.symm (h : Same a b) : Same b a := by
  cases h with
  | float h => exact .float (Double.eq_comm_of_eq h)
  | intFloat h => exact .floatInt h
  | floatInt h => exact .intFloat h
  | list xs ys => exact .list ys xs
  | map h => exact .map h.symm
  | handle h => exact .handle h.symm
  | null | bool | int | text | described => constructor

theorem same_self_iff : Same a a ↔ a ≠ .float .nan := by
  constructor
  · rintro h rfl
    cases h with
    | float h => exact Double.eq_self_iff.1 h rfl
  · intro h
    cases a with
    | float x => exact .float (Double.eq_self_iff.2 fun hx => h (by rw [hx]))
    | list xs => exact .list xs xs
    | map xs => exact .map rfl
    | handle g => exact .handle rfl
    | null | bool | int | text | described => constructor

/-- A double between two integers that are both rounded to it but differ. -/
inductive Blurs : Value → Value → Value → Prop
  | mk {m n : ℤ} {x : Double} : m ≠ n → (Double.ofInt m).eq x = true →
      (Double.ofInt n).eq x = true → Blurs (.int m) (.float x) (.int n)

theorem Same.trans_or (hab : Same a b) (hbc : Same b c) : Same a c ∨ Blurs a b c := by
  cases hab with
  | null | bool | int | text | described => exact .inl hbc
  | float hxy =>
    cases hbc with
    | float hyz => exact .inl (.float (Double.eq_trans_of_eq hxy hyz))
    | floatInt hny =>
      exact .inl (.floatInt (Double.eq_trans_of_eq hny (Double.eq_comm_of_eq hxy)))
  | @intFloat m x hmx =>
    cases hbc with
    | float hxy => exact .inl (.intFloat (Double.eq_trans_of_eq hmx hxy))
    | @floatInt n _ hnx =>
      -- The double does not tell which of the integers around it was meant.
      by_cases hmn : m = n
      · exact .inl (hmn ▸ .int m)
      · exact .inr ⟨hmn, hmx, hnx⟩
  | floatInt hnx =>
    cases hbc with
    | int n => exact .inl (.floatInt hnx)
    | intFloat hny =>
      exact .inl (.float (Double.eq_trans_of_eq (Double.eq_comm_of_eq hnx) hny))
  | list xs ys =>
    cases hbc with
    | list _ zs => exact .inl (.list xs zs)
  | map hxy =>
    cases hbc with
    | map hyz => exact .inl (.map (hxy.trans hyz))
  | handle hgh =>
    cases hbc with
    | handle hhk => exact .inl (.handle (hgh.trans hhk))

theorem Same.eq_of_int {m n : ℤ} (h : Same (.int m) (.int n)) : m = n := by
  cases h
  rfl

/-! ## Equality -/

section Rel

variable {α β : Type} {R : α → β → Prop}

theorem rel_some_iff {x : α} {y : β} : Option.Rel R (some x) (some y) ↔ R x y := by
  constructor
  · rintro (h | _)
    exact h
  · exact .some

theorem rel_bind {γ δ : Type} {S : γ → δ → Prop} {x : Option α} {y : Option β} {f : α → Option γ}
    {g : β → Option δ} (h : Option.Rel R x y) (hfg : ∀ a b, R a b → Option.Rel S (f a) (g b)) :
    Option.Rel S (x.bind f) (y.bind g) := by
  cases h with
  | none => exact .none
  | some h => exact hfg _ _ h

end Rel

/-- Equal items at every place, and as many of them. -/
def ItemsEqual (xs ys : List Value) : Prop :=
  ∀ i : ℕ, Option.Rel (fun x y => (x == y) = true) xs[i]? ys[i]?

theorem itemsEqual_nil : ItemsEqual [] [] := fun _ => .none

theorem itemsEqual_cons_iff {x y : Value} {xs ys : List Value} :
    ItemsEqual (x :: xs) (y :: ys) ↔ (x == y) = true ∧ ItemsEqual xs ys := by
  constructor
  · intro h
    refine ⟨?_, fun i => h (i + 1)⟩
    cases h 0 with
    | some hxy => exact hxy
  · rintro ⟨hxy, h⟩ (_ | i)
    · exact .some hxy
    · exact h i

theorem equalItems_iff {xs ys : List Value} : equalItems xs ys = true ↔ ItemsEqual xs ys := by
  induction xs generalizing ys with
  | nil =>
    cases ys with
    | nil => exact iff_of_true rfl itemsEqual_nil
    | cons y ys => exact iff_of_false Bool.false_ne_true fun h => nomatch h 0
  | cons x xs ih =>
    cases ys with
    | nil => exact iff_of_false Bool.false_ne_true fun h => nomatch h 0
    | cons y ys =>
      rw [equalItems, Bool.and_eq_true, ih, itemsEqual_cons_iff]
      rfl

theorem equalEntries_eq (xs ys : List (String × Value)) :
    equalEntries xs ys =
      (Entries.keys xs == Entries.keys ys && equalItems (xs.map Prod.snd) (ys.map Prod.snd)) := by
  induction xs generalizing ys with
  | nil => cases ys <;> rfl
  | cons x xs ih =>
    cases ys with
    | nil => rfl
    | cons y ys =>
      obtain ⟨k, x⟩ := x
      obtain ⟨l, y⟩ := y
      rw [equalEntries, ih, List.map_cons, List.map_cons, equalItems, Entries.keys_cons,
        Entries.keys_cons, List.cons_beq_cons]
      ac_rfl

/-- Two values are equal if they look the same from outside and have equal items. -/
theorem beq_iff : (a == b) = true ↔ Same a b ∧ ItemsEqual a.items b.items := by
  change equal a b = true ↔ _
  constructor
  · intro h
    unfold equal at h
    split at h
    · exact ⟨.null, itemsEqual_nil⟩
    · next b c =>
      obtain rfl := beq_iff_eq.1 h
      exact ⟨.bool b, itemsEqual_nil⟩
    · next m n =>
      obtain rfl := beq_iff_eq.1 h
      exact ⟨.int m, itemsEqual_nil⟩
    · exact ⟨.float h, itemsEqual_nil⟩
    · exact ⟨.intFloat h, itemsEqual_nil⟩
    · exact ⟨.floatInt h, itemsEqual_nil⟩
    · next s t =>
      obtain rfl := beq_iff_eq.1 h
      exact ⟨.text s, itemsEqual_nil⟩
    · next xs ys => exact ⟨.list xs ys, equalItems_iff.1 h⟩
    · next xs ys =>
      rw [equalEntries_eq, Bool.and_eq_true, beq_iff_eq] at h
      exact ⟨.map h.1, equalItems_iff.1 h.2⟩
    · next s t =>
      obtain rfl := beq_iff_eq.1 h
      exact ⟨.described s, itemsEqual_nil⟩
    · exact ⟨.handle (beq_iff_eq.1 h), itemsEqual_nil⟩
    · cases h
  · rintro ⟨hsame, hitems⟩
    cases hsame with
    | null => rfl
    | bool | int | text | described => rw [equal, beq_self_eq_true]
    | float h | intFloat h | floatInt h => rw [equal, h]
    | list xs ys => exact equalItems_iff.2 hitems
    | map hkeys =>
      rw [equal, equalEntries_eq, hkeys, beq_self_eq_true, Bool.true_and]
      exact equalItems_iff.2 hitems
    | handle h => rw [equal, h, beq_self_eq_true]

/-- Related items, from what stands at the places inside both. -/
theorem rel_of_rel_bind {R : Value → Value → Prop} {u v : Option Value}
    (h : ∀ place, Option.Rel Same (u.bind (at? · place)) (v.bind (at? · place)))
    (hstep : ∀ a ∈ u, ∀ b, (∀ place, Option.Rel Same (a.at? place) (b.at? place)) → R a b) :
    Option.Rel R u v := by
  -- The place `[]` tells whether there is anything at all.
  rcases u with _ | a <;> rcases v with _ | b
  · exact .none
  · exact nomatch h []
  · exact nomatch h []
  · exact .some (hstep a rfl b h)

/-- Two values are equal if what stands at any place of one looks the same as what stands there in
the other, and nothing stands at a place of only one of them. -/
theorem beq_iff_at? :
    (a == b) = true ↔ ∀ place, Option.Rel Same (a.at? place) (b.at? place) := by
  constructor
  · -- Down along one place.
    intro h place
    induction place generalizing a b with
    | nil => exact .some (beq_iff.1 h).1
    | cons i place ih => exact rel_bind ((beq_iff.1 h).2 i) fun x y hxy => ih hxy
  · -- Up from the items, with all the places that begin with their numbers.
    intro h
    induction a using induction_on_items generalizing b with
    | step a ih =>
      refine beq_iff.2 ⟨rel_some_iff.1 (h []), fun i => ?_⟩
      refine rel_of_rel_bind (fun place => h (i :: place)) fun x hx y hplaces => ?_
      exact ih x (List.mem_of_getElem? hx) hplaces

/-! ## The laws of equality -/

section Places

variable {u v w : Option Value}

theorem rel_symm (h : Option.Rel Same u v) : Option.Rel Same v u := by
  cases h with
  | none => exact .none
  | some hsame => exact .some hsame.symm

theorem rel_self_iff : Option.Rel Same u u ↔ u ≠ some (.float .nan) := by
  cases u with
  | none => exact iff_of_true .none nofun
  | some a => rw [rel_some_iff, same_self_iff, ne_eq, ne_eq, Option.some_inj]

theorem rel_trans_or (huv : Option.Rel Same u v) (hvw : Option.Rel Same v w) :
    Option.Rel Same u w ∨ ∃ a b c, u = some a ∧ v = some b ∧ w = some c ∧ Blurs a b c := by
  cases huv with
  | none =>
    cases hvw with
    | none => exact .inl .none
  | some hab =>
    cases hvw with
    | some hbc =>
      exact (hab.trans_or hbc).imp .some fun hblurs => ⟨_, _, _, rfl, rfl, rfl, hblurs⟩

end Places

theorem beq_symm (h : (a == b) = true) : (b == a) = true :=
  beq_iff_at?.2 fun place => rel_symm (beq_iff_at?.1 h place)

theorem beq_comm (a b : Value) : (a == b) = (b == a) := Bool.eq_iff_iff.2 ⟨beq_symm, beq_symm⟩

/-- A value equals itself if NaN is nowhere in it. -/
theorem beq_self_iff : (a == a) = true ↔ ∀ place, a.at? place ≠ some (.float .nan) := by
  rw [beq_iff_at?]
  exact forall_congr' fun place => rel_self_iff

theorem beq_self_of_items_eq_nil (hitems : a.items = []) (h : a ≠ .float .nan) :
    (a == a) = true := by
  refine beq_iff.2 ⟨same_self_iff.2 h, ?_⟩
  rw [hitems]
  exact itemsEqual_nil

/-- If the first of three values equals the second, and the second the third, then the first equals
the third, unless there is a place at which the first and the third have integers that differ, and
the second a double that both are rounded to. -/
theorem not_beq_iff_blurs (hab : (a == b) = true) (hbc : (b == c) = true) :
    (a == c) = false ↔ ∃ place x y z, a.at? place = some x ∧ b.at? place = some y ∧
      c.at? place = some z ∧ Blurs x y z := by
  constructor
  · intro hac
    by_contra hnone
    refine Bool.eq_false_iff.1 hac (beq_iff_at?.2 fun place => ?_)
    rcases rel_trans_or (beq_iff_at?.1 hab place) (beq_iff_at?.1 hbc place) with hsame | hblurs
    · exact hsame
    · exact absurd ⟨place, hblurs⟩ hnone
  · rintro ⟨place, _, _, _, ha, -, hc, ⟨hne, -, -⟩⟩
    refine Bool.eq_false_iff.2 fun hac => hne ?_
    have hsame := beq_iff_at?.1 hac place
    rw [ha, hc, rel_some_iff] at hsame
    exact hsame.eq_of_int

theorem not_beq_iff_blurs_inside_map :
    let x := Double.ofInt 9007199254740992
    let inside (item : Value) : Value := .list [.null, .map [("a", .int 1), ("b", item)]]
    (inside (.int 9007199254740992) == inside (.float x)) = true ∧
      (inside (.float x) == inside (.int 9007199254740993)) = true ∧
      (inside (.int 9007199254740992) == inside (.int 9007199254740993)) = false := by
  intro x inside
  have hab : (inside (.int 9007199254740992) == inside (.float x)) = true := by decide +kernel
  have hbc : (inside (.float x) == inside (.int 9007199254740993)) = true := by decide +kernel
  refine ⟨hab, hbc, (not_beq_iff_blurs hab hbc).2 ⟨[1, 1], _, _, _, rfl, rfl, rfl, ?_⟩⟩
  exact ⟨by decide, by decide +kernel, by decide +kernel⟩

/-- An integer of 54 bits is rounded to a double that another integer equals. -/
theorem beq_not_trans_at_two_pow_53 :
    ¬ ∀ a b c : Value, (a == b) = true → (b == c) = true → (a == c) = true := by
  intro htrans
  have hequal := htrans (.int 9007199254740992) (.float (.ofInt 9007199254740992))
    (.int 9007199254740993) (by decide +kernel) (by decide +kernel)
  exact absurd hequal (by decide)

end Interpolation.Value
