import Interpolation.Operand
import Interpolation.Proofs.Number.Nearest
import Interpolation.Proofs.Number.Text

/-!
# Which texts are decimals

A decimal without a power of ten has digits, and perhaps a point before, between or behind them.
Among the texts of digits, signs and points these are the ones that are read as doubles, and each is
read as the double nearest to its value.
-/

namespace Interpolation

namespace Decimal

/-- Digits with a point beside or between them, or without one: the value of all the digits, and how
many of them stand behind the point. -/
inductive IsFixed : List Char → ℕ → ℕ → Prop
  | whole {digits : List Char} {n : ℕ} : Numeral.IsDigits digits n → IsFixed digits n 0
  | point {whole fraction : List Char} {n : ℕ} : Numeral.IsDigits (whole ++ fraction) n →
      IsFixed (whole ++ '.' :: fraction) n fraction.length

/-- A decimal with a sign in front, or without one: whether the sign is a minus, and the value
without it. -/
inductive IsDecimal (text : List Char) (negative : Bool) : ℚ → Prop
  | mk {unsigned : List Char} {n places : ℕ} :
      Numeral.IsSigned unsigned negative text → IsFixed unsigned n places →
        IsDecimal text negative (n / 10 ^ places)

variable {text : List Char} {n places : ℕ}

theorem IsFixed.isDigit_or_eq (h : IsFixed text n places) {c : Char} (hc : c ∈ text) :
    c.isDigit = true ∨ c = '.' := by
  cases h with
  | whole h => exact .inl (h.isDigit c hc)
  | point h =>
    rcases List.mem_append.1 hc with hc | hc
    · exact .inl (h.isDigit c (List.mem_append_left _ hc))
    · rcases List.mem_cons.1 hc with hc | hc
      · exact .inr hc
      · exact .inl (h.isDigit c (List.mem_append_right _ hc))

theorem IsFixed.exists_isDigit (h : IsFixed text n places) : ∃ c ∈ text, c.isDigit = true := by
  cases h with
  | whole h =>
    obtain ⟨c, hc⟩ := List.exists_mem_of_ne_nil _ h.ne_nil
    exact ⟨c, hc, h.isDigit c hc⟩
  | @point whole fraction n h =>
    obtain ⟨c, hc⟩ := List.exists_mem_of_ne_nil _ h.ne_nil
    refine ⟨c, ?_, h.isDigit c hc⟩
    exact List.mem_append.2 ((List.mem_append.1 hc).imp_right (List.mem_cons_of_mem _))

theorem IsFixed.head_ne_sign (h : IsFixed text n places) :
    ∀ c ∈ text.head?, c ≠ '-' ∧ c ≠ '+' := by
  intro c hc
  rcases h.isDigit_or_eq (List.mem_of_mem_head? hc) with hdigit | rfl
  · exact Numeral.ne_sign_of_isDigit hdigit
  · decide

theorem IsDecimal.isDigit_or_eq {negative : Bool} {magnitude : ℚ}
    (h : IsDecimal text negative magnitude) {c : Char} (hc : c ∈ text) :
    c.isDigit = true ∨ c = '-' ∨ c = '+' ∨ c = '.' := by
  obtain ⟨hsign, hfixed⟩ := h
  rcases hsign.mem_or_sign hc with hc | hminus | hplus
  · exact (hfixed.isDigit_or_eq hc).imp_right fun hpoint => .inr (.inr hpoint)
  · exact .inr (.inl hminus)
  · exact .inr (.inr (.inl hplus))

theorem isDecimal_of_isInteger {z : ℤ} (h : Numeral.IsInteger text z) :
    ∃ negative magnitude, IsDecimal text negative magnitude := by
  obtain ⟨hsign, hdigits⟩ := h
  exact ⟨_, _, .mk hsign (.whole hdigits)⟩

/-! ## Reading a decimal -/

theorem unsigned?_of_isFixed (h : IsFixed text n places) (negative : Bool) :
    unsigned? negative text = some ⟨negative, n, -places⟩ := by
  cases h with
  | whole h =>
    have hread := unsigned?_whole negative [] h.ne_nil h.isDigit (by simp)
    rw [List.append_nil, h.value] at hread
    exact hread
  | @point whole fraction n h =>
    obtain ⟨hwhole, hfraction⟩ := List.forall_mem_append.1 h.isDigit
    have hread := unsigned?_point negative [] hwhole hfraction h.ne_nil (by simp)
    rw [List.append_nil, h.value] at hread
    rw [hread, exponent?, Option.map_some, Int.zero_sub]

/-- A power of ten begins with its mark. -/
theorem eq_nil_of_exponent? {rest : List Char} {power : Int}
    (hmark : ∀ c ∈ rest, c ≠ 'e' ∧ c ≠ 'E') (h : exponent? rest = some power) : rest = [] := by
  cases rest with
  | nil => rfl
  | cons c rest =>
    obtain ⟨hlower, hupper⟩ := hmark c List.mem_cons_self
    rw [exponent?, if_neg (not_or.2 ⟨hlower, hupper⟩)] at h
    cases h

/-- Without the mark of a power of ten, a decimal is all that can be read. -/
theorem isFixed_of_unsigned? {negative : Bool} {d : Decimal}
    (hmark : ∀ c ∈ text, c ≠ 'e' ∧ c ≠ 'E') (h : unsigned? negative text = some d) :
    ∃ n places, IsFixed text n places := by
  have hsplit : text.takeWhile Char.isDigit ++ text.dropWhile Char.isDigit = text :=
    List.takeWhile_append_dropWhile
  have hwhole : ∀ c ∈ text.takeWhile Char.isDigit, c.isDigit = true :=
    List.all_eq_true.1 List.all_takeWhile
  rw [unsigned?] at h
  dsimp only at h
  generalize text.takeWhile Char.isDigit = whole at h hsplit hwhole
  generalize text.dropWhile Char.isDigit = rest at h hsplit
  subst hsplit
  have hread (fraction behind : List Char)
      (h : (if whole.isEmpty && fraction.isEmpty then none else
        (exponent? behind).map fun power => (⟨negative, Nat.ofDigitChars 10 (whole ++ fraction) 0,
          power - fraction.length⟩ : Decimal)) = some d) :
      whole ++ fraction ≠ [] ∧ ∃ power, exponent? behind = some power := by
    rw [Option.ite_none_left_eq_some, Option.map_eq_some_iff] at h
    obtain ⟨hne, power, hpower, -⟩ := h
    exact ⟨by simpa using hne, power, hpower⟩
  cases rest with
  | nil =>
    obtain ⟨hne, -⟩ := hread [] [] h
    rw [List.append_nil] at hne ⊢
    exact ⟨_, _, .whole ⟨hne, hwhole, rfl⟩⟩
  | cons c rest =>
    have hrest : ∀ c ∈ rest, c ≠ 'e' ∧ c ≠ 'E' := fun d hd =>
      hmark d (List.mem_append_right _ (List.mem_cons_of_mem _ hd))
    by_cases hpoint : c = '.'
    · subst hpoint
      obtain ⟨hne, power, hpower⟩ :=
        hread (rest.takeWhile Char.isDigit) (rest.dropWhile Char.isDigit) h
      have hbehind : rest.dropWhile Char.isDigit = [] :=
        eq_nil_of_exponent? (fun d hd => hrest d (List.dropWhile_subset _ hd)) hpower
      have hfraction : rest.takeWhile Char.isDigit = rest := by
        rw [← List.append_nil (List.takeWhile _ _), ← hbehind, List.takeWhile_append_dropWhile]
      have hdigits : ∀ c ∈ rest.takeWhile Char.isDigit, c.isDigit = true :=
        List.all_eq_true.1 List.all_takeWhile
      rw [hfraction] at hne hdigits
      exact ⟨_, _, .point ⟨hne, List.forall_mem_append.2 ⟨hwhole, hdigits⟩, rfl⟩⟩
    · obtain ⟨-, power, hpower⟩ := hread [] (c :: rest) (by simpa [hpoint] using h)
      have hmark : ∀ d ∈ c :: rest, d ≠ 'e' ∧ d ≠ 'E' := fun d hd =>
        hmark d (List.mem_append_right _ hd)
      cases eq_nil_of_exponent? hmark hpower

theorem isNearest_iff {negative : Bool} {x : Double} :
    x.IsNearest negative (n / 10 ^ places) ↔ x = toDouble ⟨negative, n, -places⟩ := by
  have hpos : 0 < Nat.pow 10 places := Nat.pow_pos (by decide)
  have hvalue : (n / 10 ^ places : ℚ) = n / (Nat.pow 10 places : ℕ) := by
    rw [Nat.pow_eq, Nat.cast_pow, Nat.cast_ofNat]
  have hnumerator : numerator ⟨negative, n, -places⟩ = n := by
    rw [numerator, Int.toNat_neg_natCast]
    exact Nat.mul_one n
  have hdenominator : denominator ⟨negative, n, -places⟩ = Nat.pow 10 places := by
    rw [denominator, Int.neg_neg, Int.toNat_natCast]
  rw [hvalue, Double.isNearest_iff hpos, toDouble_eq, hnumerator, hdenominator]

theorem IsDecimal.exists_isNearest {negative : Bool} {magnitude : ℚ}
    (h : IsDecimal text negative magnitude) : ∃ x : Double, x.IsNearest negative magnitude := by
  obtain ⟨-, -⟩ := h
  exact ⟨_, isNearest_iff.2 rfl⟩

end Decimal

namespace Operand

open Decimal

variable {text : List Char}

theorem looksNumeric_iff :
    looksNumeric text = true ↔
      (∀ c ∈ text, c.isDigit = true ∨ c = '-' ∨ c = '+' ∨ c = '.') ∧
        ∃ c ∈ text, c.isDigit = true := by
  simp [looksNumeric, or_assoc]

/-- What is read as a double is a decimal, and it is read as the double nearest to its value. -/
theorem double?_eq_some_iff {x : Double} :
    double? text = some x ↔
      ∃ negative magnitude, IsDecimal text negative magnitude ∧ x.IsNearest negative magnitude := by
  rw [double?, Option.ite_none_right_eq_some, looksNumeric_iff]
  constructor
  · rintro ⟨⟨hchars, c, hc, hdigit⟩, hread⟩
    have hsign := Numeral.isSigned_splitSign text
    rcases hsplit : Numeral.splitSign text with ⟨negative, unsigned⟩
    rw [hsplit] at hsign
    dsimp only at hsign
    have hmem : c ∈ unsigned := by
      obtain ⟨hminus, hplus⟩ := Numeral.ne_sign_of_isDigit hdigit
      exact (hsign.mem_or_sign hc).resolve_right (not_or.2 ⟨hminus, hplus⟩)
    rw [Double.ofText?_of_isDigit hdigit hsplit hmem, Option.map_eq_some_iff] at hread
    obtain ⟨d, hd, rfl⟩ := hread
    have hmark : ∀ d ∈ unsigned, d ≠ 'e' ∧ d ≠ 'E' := by
      intro d hd
      rcases hchars d (hsign.subset hd) with hdigit | rfl | rfl | rfl
      · constructor <;> rintro rfl <;> exact absurd hdigit (by decide)
      all_goals decide
    obtain ⟨n, places, hfixed⟩ := isFixed_of_unsigned? hmark hd
    rw [unsigned?_of_isFixed hfixed, Option.some_inj] at hd
    exact ⟨negative, _, .mk hsign hfixed, isNearest_iff.2 (by rw [hd])⟩
  · rintro ⟨negative, magnitude, ⟨hsign, hfixed⟩, hnearest⟩
    obtain ⟨c, hc, hdigit⟩ := hfixed.exists_isDigit
    refine ⟨⟨fun d hd => ?_, c, hsign.subset hc, hdigit⟩, ?_⟩
    · exact (IsDecimal.mk hsign hfixed).isDigit_or_eq hd
    · rw [Double.ofText?_of_isDigit hdigit (hsign.splitSign_eq hfixed.head_ne_sign) hc,
        unsigned?_of_isFixed hfixed, Option.map_some, isNearest_iff.1 hnearest]

end Operand

end Interpolation
