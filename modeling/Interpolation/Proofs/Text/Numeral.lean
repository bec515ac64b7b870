import Interpolation.Text.Numeral

/-!
# Which texts are numerals

A numeral is a run of digits with something in it; where a sign may stand in front, there is one at
most.  The integers of 64 bits are those that `Int64` has.
-/

namespace Interpolation.Numeral

/-- A run of digits, not empty, with its value. -/
structure IsDigits (text : List Char) (n : Nat) : Prop where
  ne_nil : text ≠ []
  isDigit : ∀ c ∈ text, c.isDigit
  value : Nat.ofDigitChars 10 text 0 = n

theorem digits?_eq_some_iff {text : List Char} {n : Nat} :
    digits? text = some n ↔ IsDigits text n := by
  rw [digits?, Option.ite_none_right_eq_some, Bool.and_eq_true, Bool.not_eq_true',
    List.isEmpty_eq_false_iff, List.all_eq_true, Option.some_inj]
  constructor
  · rintro ⟨⟨hne, hdigits⟩, hvalue⟩
    exact ⟨hne, hdigits, hvalue⟩
  · rintro ⟨hne, hdigits, hvalue⟩
    exact ⟨⟨hne, hdigits⟩, hvalue⟩

theorem IsDigits.ne_plus_cons {text rest : List Char} {n : Nat} (h : IsDigits text n) :
    text ≠ '+' :: rest := by
  rintro rfl
  exact absurd (h.isDigit '+' List.mem_cons_self) (by decide)

/-- A numeral below `2 ^ 64` is a run of digits, or one with a plus sign in front. -/
theorem natural?_eq_some_iff {text : List Char} {n : Nat} :
    natural? text = some n ↔
      n < UInt64.size ∧ ∃ digits, IsDigits digits n ∧ (text = digits ∨ text = '+' :: digits) := by
  unfold natural?
  rw [Option.filter_eq_some_iff, decide_eq_true_iff, and_comm, digits?_eq_some_iff]
  refine and_congr_right fun _ => ?_
  split
  · next rest =>
    constructor
    · intro h
      exact ⟨rest, h, .inr rfl⟩
    · rintro ⟨digits, h, heq | heq⟩
      · exact absurd heq.symm h.ne_plus_cons
      · exact (List.cons.inj heq).2 ▸ h
  · next hplus =>
    constructor
    · intro h
      exact ⟨text, h, .inl rfl⟩
    · rintro ⟨digits, h, rfl | heq⟩
      · exact h
      · exact absurd heq (hplus digits)

theorem IsDigits.not_mem_dot {text : List Char} {n : Nat} (h : IsDigits text n) : '.' ∉ text :=
  fun hdot => absurd (h.isDigit '.' hdot) (by decide)

theorem IsDigits.natural?_eq {text : List Char} {n : Nat} (h : IsDigits text n) :
    natural? text = if n < UInt64.size then some n else none := by
  split
  · next hlt => exact natural?_eq_some_iff.2 ⟨hlt, text, h, .inl rfl⟩
  · next hge =>
    rw [Option.eq_none_iff_forall_ne_some]
    intro m hm
    obtain ⟨hlt, digits, hdigits, rfl | rfl⟩ := natural?_eq_some_iff.1 hm
    · exact hge (h.value ▸ hdigits.value ▸ hlt)
    · exact h.ne_plus_cons rfl

/-! ## Signs -/

/-- A text with a sign in front of it, which is a minus or not, or without one. -/
inductive IsSigned (unsigned : List Char) : Bool → List Char → Prop
  | none : IsSigned unsigned false unsigned
  | plus : IsSigned unsigned false ('+' :: unsigned)
  | minus : IsSigned unsigned true ('-' :: unsigned)

theorem isSigned_splitSign (text : List Char) :
    IsSigned (splitSign text).2 (splitSign text).1 text := by
  unfold splitSign
  split
  · exact .minus
  · exact .plus
  · exact .none

theorem IsSigned.splitSign_eq {unsigned text : List Char} {negative : Bool}
    (h : IsSigned unsigned negative text) (hhead : ∀ c ∈ unsigned.head?, c ≠ '-' ∧ c ≠ '+') :
    splitSign text = (negative, unsigned) := by
  cases h with
  | none =>
    unfold splitSign
    split
    · exact absurd rfl (hhead '-' rfl).1
    · exact absurd rfl (hhead '+' rfl).2
    · rfl
  | plus => rfl
  | minus => rfl

theorem IsSigned.subset {unsigned text : List Char} {negative : Bool}
    (h : IsSigned unsigned negative text) : unsigned ⊆ text := by
  cases h with
  | none => exact List.Subset.refl _
  | plus | minus => exact List.subset_cons_self _ _

theorem IsSigned.mem_or_sign {unsigned text : List Char} {negative : Bool}
    (h : IsSigned unsigned negative text) {c : Char} (hc : c ∈ text) :
    c ∈ unsigned ∨ c = '-' ∨ c = '+' := by
  cases h with
  | none => exact .inl hc
  | plus => exact (List.mem_cons.1 hc).symm.imp_right .inr
  | minus => exact (List.mem_cons.1 hc).symm.imp_right .inl

theorem ne_sign_of_isDigit {c : Char} (h : c.isDigit = true) : c ≠ '-' ∧ c ≠ '+' := by
  constructor
  · rintro rfl
    exact absurd h (by decide)
  · rintro rfl
    exact absurd h (by decide)

/-! ## Integers of 64 bits -/

theorem inRange_iff {n : Int} :
    inRange n = true ↔ Int64.minValue.toInt ≤ n ∧ n ≤ Int64.maxValue.toInt := by
  rw [inRange, Bool.and_eq_true, decide_eq_true_iff, decide_eq_true_iff]

theorem inRange_iff_exists {n : Int} : inRange n = true ↔ ∃ m : Int64, m.toInt = n := by
  rw [inRange_iff]
  constructor
  · intro h
    exact ⟨.ofInt n, Int64.toInt_ofInt_of_le h.1 (Int.lt_add_one_of_le h.2)⟩
  · rintro ⟨m, rfl⟩
    exact ⟨m.minValue_le_toInt, m.toInt_le⟩

/-- A run of digits, perhaps with a sign in front, with its value. -/
inductive IsInteger (text : List Char) : Int → Prop
  | mk {negative : Bool} {digits : List Char} {n : Nat} :
      IsSigned digits negative text → IsDigits digits n →
        IsInteger text (if negative then -(n : Int) else n)

theorem IsDigits.head_ne_sign {text : List Char} {n : Nat} (h : IsDigits text n) :
    ∀ c ∈ text.head?, c ≠ '-' ∧ c ≠ '+' := fun c hc =>
  ne_sign_of_isDigit (h.isDigit c (List.mem_of_mem_head? hc))

theorem integer?_eq_some_iff {text : List Char} {n : Int} :
    integer? text = some n ↔ inRange n = true ∧ IsInteger text n := by
  rw [integer?, Option.filter_eq_some_iff, and_comm]
  refine and_congr_right fun _ => ?_
  rw [Option.map_eq_some_iff]
  constructor
  · rintro ⟨magnitude, hdigits, rfl⟩
    exact .mk (isSigned_splitSign text) (digits?_eq_some_iff.1 hdigits)
  · intro h
    cases h with
    | @mk negative digits magnitude hsign hdigits =>
      rw [hsign.splitSign_eq hdigits.head_ne_sign]
      exact ⟨magnitude, digits?_eq_some_iff.2 hdigits, rfl⟩

end Interpolation.Numeral
