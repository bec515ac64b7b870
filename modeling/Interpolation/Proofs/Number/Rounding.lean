import Interpolation.Number.Decimal
import Mathlib.Tactic.Ring

/-!
# Rounding a quotient

What a quotient is rounded to depends on its value alone, and a number of least units that a double
can have is not changed.  The nearest double of a decimal is therefore the rounded quotient of two
whole numbers, whatever its exponent: the bounds below and above which a decimal is not worked out
in full do not show.
-/

namespace Interpolation

namespace Double

/-! ## The value of a quotient -/

theorem divToEven_eq (num den : Nat) :
    divToEven num den =
      if 2 * (num % den) < den then num / den
      else if 2 * (num % den) = den then num / den + num / den % 2
      else num / den + 1 := by
  rw [divToEven]
  rcases Nat.lt_trichotomy (2 * (num % den)) den with h | h | h
  · rw [Nat.compare_eq_lt.2 h, if_pos h]
  · rw [Nat.compare_eq_eq.2 h, if_neg (by omega), if_pos h]
  · rw [Nat.compare_eq_gt.2 h, if_neg (by omega), if_neg (by omega)]

theorem divToEven_mul_right (num den : Nat) {k : Nat} (hk : 0 < k) :
    divToEven (num * k) (den * k) = divToEven num den := by
  have hlt : 2 * (num % den) * k < den * k ↔ 2 * (num % den) < den := Nat.mul_lt_mul_right hk
  have heq : 2 * (num % den) * k = den * k ↔ 2 * (num % den) = den :=
    Nat.mul_left_inj (Nat.ne_of_gt hk)
  rw [divToEven_eq, divToEven_eq, Nat.mul_div_mul_right num den hk, Nat.mul_mod_mul_right,
    ← Nat.mul_assoc]
  simp only [hlt, heq]

theorem roundUnits_mul_right (num den : Nat) {k : Nat} (hk : 0 < k) :
    roundUnits (num * k) (den * k) = roundUnits num den := by
  rw [roundUnits, roundUnits, Nat.mul_div_mul_right num den hk, Nat.mul_right_comm,
    divToEven_mul_right _ _ hk]

theorem roundUnits_congr {a b c d : Nat} (hb : 0 < b) (hd : 0 < d) (h : a * d = c * b) :
    roundUnits a b = roundUnits c d := by
  calc roundUnits a b = roundUnits (a * d) (b * d) := (roundUnits_mul_right a b hd).symm
    _ = roundUnits (c * b) (d * b) := by rw [h, Nat.mul_comm b d]
    _ = roundUnits c d := roundUnits_mul_right c d hb

theorem ofRatio_congr (negative : Bool) {a b c d : Nat} (h : roundUnits a b = roundUnits c d) :
    ofRatio negative a b = ofRatio negative c d := by
  simp only [ofRatio, h]

/-! ## Exact, small and large quotients -/

theorem spacing_pos (units : Nat) : 0 < spacing units := Nat.two_pow_pos _

theorem roundUnits_of_representable {units : Nat} (h : IsRepresentable units) {k : Nat}
    (hk : 0 < k) : roundUnits (units * k) k = units := by
  have hone : roundUnits (units * k) k = roundUnits units 1 :=
    roundUnits_congr hk Nat.one_pos (by rw [Nat.mul_one])
  have hexact : divToEven units (spacing units) = units / spacing units := by
    rw [divToEven_eq, h.1, if_pos (spacing_pos units)]
  rw [hone, roundUnits, Nat.div_one, Nat.one_mul, hexact, Nat.div_mul_cancel]
  exact Nat.dvd_of_mod_eq_zero h.1

theorem roundUnits_of_small {num den : Nat} (h : 2 * num < den) : roundUnits num den = 0 := by
  have hdiv : num / den = 0 := Nat.div_eq_of_lt (by omega)
  have hmod : num % den = num := Nat.mod_eq_of_lt (by omega)
  have hround : divToEven num den = 0 := by rw [divToEven_eq, hmod, if_pos h, hdiv]
  have hspacing : spacing 0 = 1 := rfl
  rw [roundUnits, hdiv, hspacing, Nat.mul_one, Nat.mul_one, hround]

theorem two_pow_mul_spacing (units : Nat) :
    Nat.pow 2 (units.log2 - (units.log2 - 52)) * spacing units = Nat.pow 2 units.log2 := by
  rw [spacing]
  simp only [Nat.pow_eq]
  rw [← Nat.pow_add, Nat.sub_add_cancel (Nat.sub_le _ _)]

theorem two_pow_le_div_spacing {units : Nat} (hne : units ≠ 0) :
    Nat.pow 2 (units.log2 - (units.log2 - 52)) ≤ units / spacing units := by
  rw [Nat.le_div_iff_mul_le (spacing_pos units), two_pow_mul_spacing]
  exact Nat.log2_self_le hne

/-- Rounding does not go below a power of two. -/
theorem two_pow_le_roundUnits {num k : Nat} (h : Nat.pow 2 k ≤ num) :
    Nat.pow 2 k ≤ roundUnits num 1 := by
  have hne : num ≠ 0 := Nat.ne_of_gt (Nat.lt_of_lt_of_le (Nat.two_pow_pos k) h)
  have hk : k ≤ num.log2 := (Nat.le_log2 hne).2 h
  calc Nat.pow 2 k ≤ Nat.pow 2 num.log2 := Nat.pow_le_pow_right (by decide) hk
    _ = Nat.pow 2 (num.log2 - (num.log2 - 52)) * spacing num := (two_pow_mul_spacing num).symm
    _ ≤ num / spacing num * spacing num := Nat.mul_le_mul_right _ (two_pow_le_div_spacing hne)
    _ ≤ divToEven num (spacing num) * spacing num := Nat.mul_le_mul_right _ (le_divToEven _ _)
    _ = roundUnits num 1 := by rw [roundUnits, Nat.div_one, Nat.one_mul]

theorem exists_limit_eq : ∃ k, limit = Nat.pow 2 k := ⟨2098, by decide +kernel⟩

theorem limit_le_roundUnits {num : Nat} (h : limit ≤ num) : limit ≤ roundUnits num 1 := by
  obtain ⟨k, hk⟩ := exists_limit_eq
  rw [hk] at h ⊢
  exact two_pow_le_roundUnits h

end Double

/-! ## The nearest double of a decimal -/

namespace Decimal

open Double

/-- The digits of the decimal and the zeros after them. -/
def numerator (d : Decimal) : Nat := d.coefficient * Nat.pow 10 d.exponent.toNat

/-- The power of ten that the decimal is divided by. -/
def denominator (d : Decimal) : Nat := Nat.pow 10 (-d.exponent).toNat

theorem denominator_pos (d : Decimal) : 0 < d.denominator := Nat.pow_pos (by decide)

theorem four_one_le : 4 * one ≤ Nat.pow 10 (-smallPower).toNat := by decide +kernel

theorem limit_le : limit ≤ Nat.pow 10 largePower.toNat * one := by decide +kernel

/-- A decimal that is taken for zero is less than half of the least unit. -/
theorem roundUnits_of_vanishing {d : Decimal}
    (h : d.coefficient = 0 ∨ d.exponent + d.coefficient.log2 < smallPower) :
    roundUnits (d.numerator * one) d.denominator = 0 := by
  refine roundUnits_of_small ?_
  rcases h with h | h
  · rw [numerator, h, Nat.zero_mul, Nat.zero_mul]
    exact d.denominator_pos
  · have hsmall : smallPower < 0 := by decide
    have hone := four_one_le
    generalize hpower : (-smallPower).toNat = power at hone
    have hexponent : d.exponent.toNat = 0 := by omega
    have hdigits : d.coefficient.log2 + power ≤ (-d.exponent).toNat := by omega
    have hcoefficient : d.coefficient < Nat.pow 2 (d.coefficient.log2 + 1) := Nat.lt_log2_self
    have hdouble : Nat.pow 2 (d.coefficient.log2 + 1) = Nat.pow 2 d.coefficient.log2 * 2 :=
      Nat.pow_succ 2 _
    have hnumerator : d.numerator = d.coefficient := by
      rw [numerator, hexponent]
      exact Nat.mul_one _
    calc 2 * (d.numerator * one) = d.coefficient * (2 * one) := by rw [hnumerator]; ring
      _ < Nat.pow 2 (d.coefficient.log2 + 1) * (2 * one) :=
          Nat.mul_lt_mul_of_pos_right hcoefficient (by decide +kernel)
      _ = Nat.pow 2 d.coefficient.log2 * (4 * one) := by rw [hdouble]; ring
      _ ≤ Nat.pow 10 d.coefficient.log2 * Nat.pow 10 power :=
          Nat.mul_le_mul (Nat.pow_le_pow_left (by decide) _) hone
      _ = Nat.pow 10 (d.coefficient.log2 + power) := (Nat.pow_add _ _ _).symm
      _ ≤ d.denominator := Nat.pow_le_pow_right (by decide) hdigits

/-- A decimal that is taken for an infinity is out of range. -/
theorem limit_le_of_large {d : Decimal} (hne : d.coefficient ≠ 0) (h : largePower ≤ d.exponent) :
    limit ≤ roundUnits (d.numerator * one) d.denominator := by
  have hlarge : 0 < largePower := by decide
  have hlimit := limit_le
  generalize hpower : largePower.toNat = power at hlimit
  have hexponent : (-d.exponent).toNat = 0 := by omega
  have hdenominator : d.denominator = 1 := by rw [denominator, hexponent]
  have hnumerator : Nat.pow 10 power ≤ d.numerator :=
    calc Nat.pow 10 power ≤ Nat.pow 10 d.exponent.toNat :=
          Nat.pow_le_pow_right (by decide) (by omega)
      _ ≤ d.numerator := Nat.le_mul_of_pos_left _ (Nat.pos_of_ne_zero hne)
  rw [hdenominator]
  exact limit_le_roundUnits (Nat.le_trans hlimit (Nat.mul_le_mul_right one hnumerator))

theorem toDouble_eq (d : Decimal) :
    d.toDouble = .ofRatio d.negative (d.numerator * one) d.denominator := by
  rw [toDouble]
  split
  · next h =>
    refine ofRatio_congr d.negative ?_
    rw [roundUnits_of_vanishing h]
    exact roundUnits_of_small (by decide)
  · next h =>
    rw [not_or] at h
    split
    · next hlarge =>
      have hlimit := limit_le_of_large h.1 hlarge
      rw [ofRatio, dif_neg (Nat.not_lt.2 hlimit)]
    · rfl

theorem toDouble_congr {d other : Decimal} (hsign : d.negative = other.negative)
    (h : d.numerator * other.denominator = other.numerator * d.denominator) :
    d.toDouble = other.toDouble := by
  rw [toDouble_eq, toDouble_eq, hsign]
  refine ofRatio_congr _ (roundUnits_congr d.denominator_pos other.denominator_pos ?_)
  rw [Nat.mul_right_comm, h, Nat.mul_right_comm]

/-- Zeros at the end of the digits count like powers of ten. -/
theorem toDouble_shift (negative : Bool) (coefficient zeros : Nat) (exponent : Int) :
    toDouble ⟨negative, coefficient * Nat.pow 10 zeros, exponent⟩ =
      toDouble ⟨negative, coefficient, exponent + zeros⟩ := by
  refine toDouble_congr rfl ?_
  have hpower : zeros + exponent.toNat + (-(exponent + zeros)).toNat =
      (exponent + zeros).toNat + (-exponent).toNat := by omega
  simp only [numerator, denominator, Nat.pow_eq]
  calc coefficient * 10 ^ zeros * 10 ^ exponent.toNat * 10 ^ (-(exponent + zeros)).toNat
      = coefficient * 10 ^ (zeros + exponent.toNat + (-(exponent + zeros)).toNat) := by
        rw [pow_add, pow_add]; ring
    _ = coefficient * 10 ^ (exponent + zeros).toNat * 10 ^ (-exponent).toNat := by
        rw [hpower, pow_add]; ring

end Decimal

end Interpolation
