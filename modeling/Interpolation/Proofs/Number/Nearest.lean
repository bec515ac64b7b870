import Interpolation.Proofs.Number.Rounding
import Mathlib.Algebra.Order.Ring.Abs
import Mathlib.Algebra.Order.Field.Rat
import Mathlib.Tactic.FieldSimp
import Mathlib.Tactic.Linarith

/-!
# The nearest double of a rational number

Among the numbers with at most 53 significant bits, a quotient is rounded to the one nearest to its
value, and where two are as near, to the one whose last bit is not set.  The quotient lies between
two neighbours, and nothing else comes into question.
-/

namespace Interpolation.Double

/-- A number of least units with at most 53 significant bits, in range or not. -/
def Fits (units : ℕ) : Prop := units % spacing units = 0

/-- The last of the 53 significant bits is not set. -/
def IsEven (units : ℕ) : Prop := units / spacing units % 2 = 0

/-- The number of least units that a value is rounded to: the nearest one, and of two the even
one. -/
structure Rounds (value : ℚ) (units : ℕ) : Prop where
  fits : Fits units
  nearest : ∀ other, Fits other → |value - units| ≤ |value - other|
  even : ∀ other, Fits other → other ≠ units → |value - other| = |value - units| → IsEven units

/-- The double nearest to a value with a sign in front, an infinity if the value is rounded to a
number out of range. -/
inductive IsNearest (negative : Bool) (value : ℚ) : Double → Prop
  | finite {units : ℕ} (h : IsRepresentable units) :
      Rounds (value * one) units → IsNearest negative value (.finite negative units h)
  | infinite {units : ℕ} :
      Rounds (value * one) units → limit ≤ units → IsNearest negative value (.infinite negative)

theorem IsNearest.ne_nan {negative : Bool} {value : ℚ} {x : Double}
    (h : x.IsNearest negative value) : x ≠ .nan := by
  cases h <;> nofun

/-! ## Neighbours -/

/-- `m` and `m + 1` times `2 ^ k` are neighbours among the numbers that fit. -/
structure Neighbours (m k : ℕ) : Prop where
  lt : m < 2 ^ 53
  large : k = 0 ∨ 2 ^ 52 ≤ m

theorem neighbours_quotient (n : ℕ) : Neighbours (n / spacing n) (n.log2 - 52) where
  lt := div_spacing_lt n
  large := by
    by_cases hsmall : n.log2 - 52 = 0
    · exact .inl hsmall
    · have hne : n ≠ 0 := by
        rintro rfl
        exact hsmall rfl
      have hlarge := two_pow_le_div_spacing hne
      rw [show n.log2 - (n.log2 - 52) = 52 by omega] at hlarge
      exact .inr hlarge

namespace Neighbours

variable {m k : ℕ}

theorem spacing_eq (h : Neighbours m k) : spacing (m * 2 ^ k) = 2 ^ k := by
  rw [spacing, Nat.pow_eq]
  congr 1
  rcases h.large with rfl | hlarge
  · have hlog : m.log2 < 53 ∨ m = 0 := by
      by_cases hm : m = 0
      · exact .inr hm
      · exact .inl ((Nat.log2_lt hm).2 h.lt)
    rw [pow_zero, Nat.mul_one]
    rcases hlog with hlog | rfl
    · omega
    · rfl
  · have hne : m * 2 ^ k ≠ 0 := Nat.mul_ne_zero (by omega) (by positivity)
    have hlog : (m * 2 ^ k).log2 = 52 + k := by
      rw [Nat.log2_eq_iff hne, Nat.add_right_comm, Nat.pow_add, Nat.pow_add]
      exact ⟨Nat.mul_le_mul_right _ hlarge, Nat.mul_lt_mul_of_pos_right h.lt (by positivity)⟩
    omega

theorem isEven_left_iff (h : Neighbours m k) : IsEven (m * 2 ^ k) ↔ m % 2 = 0 := by
  rw [IsEven, h.spacing_eq, Nat.mul_div_cancel _ (by positivity)]

theorem isEven_right_iff (h : Neighbours m k) : IsEven ((m + 1) * 2 ^ k) ↔ m % 2 = 1 := by
  rcases Nat.lt_or_eq_of_le (Nat.succ_le_of_lt h.lt) with hlt | heq
  · have hnext : Neighbours (m + 1) k := ⟨hlt, h.large.imp_right Nat.le_succ_of_le⟩
    rw [hnext.isEven_left_iff]
    omega
  · -- The next number has a bit more, and is the first one with the greater spacing.
    have hnext : Neighbours (2 ^ 52) (k + 1) := ⟨by norm_num, .inr le_rfl⟩
    have hright : (m + 1) * 2 ^ k = 2 ^ 52 * 2 ^ (k + 1) := by
      rw [show m + 1 = 2 ^ 53 from heq]
      ring
    rw [hright, hnext.isEven_left_iff]
    omega

theorem fits_left (h : Neighbours m k) : Fits (m * 2 ^ k) := mul_two_pow_mod (Nat.le_of_lt h.lt)

theorem fits_right (h : Neighbours m k) : Fits ((m + 1) * 2 ^ k) := mul_two_pow_mod h.lt

/-- Nothing that fits lies between neighbours. -/
theorem le_or_le (h : Neighbours m k) {other : ℕ} (hother : Fits other) :
    other ≤ m * 2 ^ k ∨ (m + 1) * 2 ^ k ≤ other := by
  rw [or_iff_not_imp_left, not_le]
  intro hlt
  have hdvd : 2 ^ k ∣ other := by
    rcases h.large with rfl | hlarge
    · exact one_dvd other
    · have hpower : 2 ^ (52 + k) ≤ other := by
        rw [Nat.pow_add]
        exact (Nat.mul_le_mul_right _ hlarge).trans hlt.le
      have hlog : 52 + k ≤ other.log2 := (Nat.le_log2 (by omega)).2 hpower
      exact (pow_dvd_pow 2 (by omega)).trans (Nat.dvd_of_mod_eq_zero hother)
  obtain ⟨n, rfl⟩ := hdvd
  rw [Nat.mul_comm m] at hlt
  rw [Nat.mul_comm]
  exact Nat.mul_le_mul_left _ (Nat.lt_of_mul_lt_mul_left hlt)

end Neighbours

/-! ## Rounding between neighbours -/

section Between

variable {x : ℚ} {a b units : ℕ}

/-- One of two numbers, of which one at least is nearer than any other number that fits. -/
theorem rounds_iff_of_pair (ha : Fits a) (hb : Fits b) (hne : b ≠ a)
    (hothers : ∀ other, Fits other → other ≠ a → other ≠ b →
      |x - a| < |x - other| ∨ |x - b| < |x - other|) :
    Rounds x a ↔ |x - a| < |x - b| ∨ |x - a| = |x - b| ∧ IsEven a := by
  constructor
  · intro h
    exact (lt_or_eq_of_le (h.nearest b hb)).imp_right fun htie => ⟨htie, h.even b hb hne htie.symm⟩
  · intro hnear
    have hle : |x - a| ≤ |x - b| := hnear.elim le_of_lt fun htie => le_of_eq htie.1
    refine ⟨ha, fun other hother => ?_, fun other hother hother' htie => ?_⟩
    · by_cases hisa : other = a
      · rw [hisa]
      · by_cases hisb : other = b
        · rwa [hisb]
        · rcases hothers other hother hisa hisb with hlt | hlt
          · exact hlt.le
          · exact hle.trans hlt.le
    · by_cases hisb : other = b
      · rw [hisb] at htie
        rcases hnear with hlt | ⟨-, heven⟩
        · exact absurd htie hlt.ne'
        · exact heven
      · rcases hothers other hother hother' hisb with hlt | hlt
        · exact absurd htie hlt.ne'
        · exact absurd htie (hle.trans_lt hlt).ne'

theorem abs_sub_of_le {y : ℚ} (h : y ≤ x) : |x - y| = x - y := abs_of_nonneg (sub_nonneg.2 h)

theorem abs_sub_of_ge {y : ℚ} (h : x ≤ y) : |x - y| = y - x := by
  rw [abs_sub_comm, abs_sub_of_le h]

/-- What lies outside of two numbers is farther from a value between them than one of the two. -/
theorem lt_or_lt_of_outside (hle : (a : ℚ) ≤ x) (hge : x ≤ b) (houtside : units < a ∨ b < units) :
    |x - a| < |x - units| ∨ |x - b| < |x - units| := by
  rcases houtside with hlt | hlt
  · have hcast : (units : ℚ) < a := Nat.cast_lt.2 hlt
    rw [abs_sub_of_le hle, abs_sub_of_le (hcast.le.trans hle)]
    exact .inl (sub_lt_sub_left hcast x)
  · have hcast : (b : ℚ) < units := Nat.cast_lt.2 hlt
    rw [abs_sub_of_ge hge, abs_sub_of_ge (hge.trans hcast.le)]
    exact .inr (sub_lt_sub_right hcast x)

end Between

namespace Neighbours

variable {x : ℚ} {m k units : ℕ}

theorem right_ne_left (m k : ℕ) : (m + 1) * 2 ^ k ≠ m * 2 ^ k := by
  have hpos : 0 < 2 ^ k := Nat.two_pow_pos k
  rw [Nat.add_one_mul]
  omega

variable (h : Neighbours m k) (hle : ((m * 2 ^ k : ℕ) : ℚ) ≤ x)
  (hge : x ≤ ((m + 1) * 2 ^ k : ℕ))

include h hle hge

theorem lt_or_lt {other : ℕ} (hother : Fits other) (hne : other ≠ m * 2 ^ k)
    (hne' : other ≠ (m + 1) * 2 ^ k) :
    |x - (m * 2 ^ k : ℕ)| < |x - other| ∨ |x - ((m + 1) * 2 ^ k : ℕ)| < |x - other| :=
  lt_or_lt_of_outside hle hge
    ((h.le_or_le hother).imp (lt_of_le_of_ne · hne) (lt_of_le_of_ne · hne'.symm))

theorem rounds_left_iff :
    Rounds x (m * 2 ^ k) ↔
      x - (m * 2 ^ k : ℕ) < ((m + 1) * 2 ^ k : ℕ) - x ∨
        x - (m * 2 ^ k : ℕ) = ((m + 1) * 2 ^ k : ℕ) - x ∧ m % 2 = 0 := by
  rw [rounds_iff_of_pair h.fits_left h.fits_right (right_ne_left m k)
    fun other => h.lt_or_lt hle hge, abs_sub_of_le hle, abs_sub_of_ge hge, h.isEven_left_iff]

theorem rounds_right_iff :
    Rounds x ((m + 1) * 2 ^ k) ↔
      ((m + 1) * 2 ^ k : ℕ) - x < x - (m * 2 ^ k : ℕ) ∨
        ((m + 1) * 2 ^ k : ℕ) - x = x - (m * 2 ^ k : ℕ) ∧ m % 2 = 1 := by
  rw [rounds_iff_of_pair h.fits_right h.fits_left (right_ne_left m k).symm
    fun other hother hne hne' => (h.lt_or_lt hle hge hother hne' hne).symm, abs_sub_of_le hle,
    abs_sub_of_ge hge, h.isEven_right_iff]

theorem eq_or_eq_of_rounds (hunits : Rounds x units) :
    units = m * 2 ^ k ∨ units = (m + 1) * 2 ^ k := by
  by_contra hnot
  rw [not_or] at hnot
  rcases h.lt_or_lt hle hge hunits.fits hnot.1 hnot.2 with hlt | hlt
  · exact absurd (hunits.nearest _ h.fits_left) (not_le.2 hlt)
  · exact absurd (hunits.nearest _ h.fits_right) (not_le.2 hlt)

end Neighbours

/-! ## Rounding a quotient -/

section Quotient

variable {num den units : ℕ}

/-- The quotient lies as far above a multiple of a step as its remainder says. -/
theorem sub_left (hden : 0 < den) (step : ℕ) :
    (num / den : ℚ) - (num / (den * step) * step : ℕ) = (num % (den * step) : ℕ) / den := by
  have hpos : (0 : ℚ) < den := Nat.cast_pos.2 hden
  have hsplit : ((num % (den * step) + den * step * (num / (den * step)) : ℕ) : ℚ) = num :=
    congrArg Nat.cast (Nat.mod_add_div num (den * step))
  generalize num / (den * step) = m at *
  generalize num % (den * step) = r at *
  rw [← hsplit]
  push_cast
  field_simp
  ring

/-- The quotient lies as far below the next multiple as is left to a whole step. -/
theorem right_sub (hden : 0 < den) {step : ℕ} (hstep : 0 < step) :
    ((num / (den * step) + 1) * step : ℕ) - (num / den : ℚ) =
      (den * step - num % (den * step) : ℕ) / den := by
  have hpos : (0 : ℚ) < den := Nat.cast_pos.2 hden
  have hrest : num % (den * step) ≤ den * step := (Nat.mod_lt _ (Nat.mul_pos hden hstep)).le
  calc ((num / (den * step) + 1) * step : ℕ) - (num / den : ℚ)
      = step - ((num / den : ℚ) - (num / (den * step) * step : ℕ)) := by push_cast; ring
    _ = step - (num % (den * step) : ℕ) / den := by rw [sub_left hden]
    _ = (den * step - num % (den * step) : ℕ) / den := by
        rw [Nat.cast_sub hrest, Nat.cast_mul]
        field_simp

theorem left_le (hden : 0 < den) (step : ℕ) :
    ((num / (den * step) * step : ℕ) : ℚ) ≤ num / den := by
  rw [← sub_nonneg, sub_left hden]
  exact div_nonneg (Nat.cast_nonneg _) (Nat.cast_nonneg _)

theorem le_right (hden : 0 < den) {step : ℕ} (hstep : 0 < step) :
    (num / den : ℚ) ≤ ((num / (den * step) + 1) * step : ℕ) := by
  rw [← sub_nonneg, right_sub hden hstep]
  exact div_nonneg (Nat.cast_nonneg _) (Nat.cast_nonneg _)

variable {k : ℕ}

theorem rounds_left_iff (hden : 0 < den) (h : Neighbours (num / (den * 2 ^ k)) k) :
    Rounds (num / den) (num / (den * 2 ^ k) * 2 ^ k) ↔
      2 * (num % (den * 2 ^ k)) < den * 2 ^ k ∨
        2 * (num % (den * 2 ^ k)) = den * 2 ^ k ∧ num / (den * 2 ^ k) % 2 = 0 := by
  have hstep : 0 < 2 ^ k := Nat.two_pow_pos k
  have hpos : (0 : ℚ) < den := Nat.cast_pos.2 hden
  have hrest : num % (den * 2 ^ k) < den * 2 ^ k := Nat.mod_lt _ (Nat.mul_pos hden hstep)
  rw [h.rounds_left_iff (left_le hden _) (le_right hden hstep), sub_left hden, right_sub hden hstep,
    div_lt_div_iff_of_pos_right hpos, div_left_inj' hpos.ne', Nat.cast_lt, Nat.cast_inj]
  omega

theorem rounds_right_iff (hden : 0 < den) (h : Neighbours (num / (den * 2 ^ k)) k) :
    Rounds (num / den) ((num / (den * 2 ^ k) + 1) * 2 ^ k) ↔
      den * 2 ^ k < 2 * (num % (den * 2 ^ k)) ∨
        2 * (num % (den * 2 ^ k)) = den * 2 ^ k ∧ num / (den * 2 ^ k) % 2 = 1 := by
  have hstep : 0 < 2 ^ k := Nat.two_pow_pos k
  have hpos : (0 : ℚ) < den := Nat.cast_pos.2 hden
  have hrest : num % (den * 2 ^ k) < den * 2 ^ k := Nat.mod_lt _ (Nat.mul_pos hden hstep)
  rw [h.rounds_right_iff (left_le hden _) (le_right hden hstep), sub_left hden,
    right_sub hden hstep, div_lt_div_iff_of_pos_right hpos, div_left_inj' hpos.ne', Nat.cast_lt,
    Nat.cast_inj]
  omega

theorem rounds_iff (hden : 0 < den) : Rounds (num / den) units ↔ units = roundUnits num den := by
  have h := neighbours_quotient (num / den)
  have hround : roundUnits num den =
      divToEven num (den * 2 ^ ((num / den).log2 - 52)) * 2 ^ ((num / den).log2 - 52) := rfl
  rw [spacing, Nat.pow_eq, Nat.div_div_eq_div_mul] at h
  rw [divToEven_eq] at hround
  generalize (num / den).log2 - 52 = k at h hround
  have hle := @left_le num den hden (2 ^ k)
  have hge := @le_right num den hden _ (Nat.two_pow_pos k)
  have hleft := rounds_left_iff hden h
  have hright := rounds_right_iff hden h
  constructor
  · intro hunits
    rcases h.eq_or_eq_of_rounds hle hge hunits with rfl | rfl
    · rcases hleft.1 hunits with hlt | ⟨htie, heven⟩
      · rw [hround, if_pos hlt]
      · rw [hround, if_neg (by omega), if_pos htie, heven, Nat.add_zero]
    · rcases hright.1 hunits with hlt | ⟨htie, hodd⟩
      · rw [hround, if_neg (by omega), if_neg (by omega)]
      · rw [hround, if_neg (by omega), if_pos htie, hodd]
  · rintro rfl
    rw [hround]
    split
    · next hlt => exact hleft.2 (.inl hlt)
    · split
      · next htie =>
        rcases Nat.mod_two_eq_zero_or_one (num / (den * 2 ^ k)) with heven | hodd
        · rw [heven, Nat.add_zero]
          exact hleft.2 (.inr ⟨htie, heven⟩)
        · rw [hodd]
          exact hright.2 (.inr ⟨htie, hodd⟩)
      · exact hright.2 (.inl (by omega))

/-- The nearest double of a quotient is the rounded one. -/
theorem isNearest_iff {negative : Bool} (hden : 0 < den) {x : Double} :
    IsNearest negative (num / den) x ↔ x = ofRatio negative (num * one) den := by
  have hvalue : (num / den * one : ℚ) = (num * one : ℕ) / den := by
    push_cast
    ring
  constructor
  · intro h
    cases h with
    | @finite units hunits hrounds =>
      rw [hvalue, rounds_iff hden] at hrounds
      subst hrounds
      rw [ofRatio, dif_pos hunits.2]
    | @infinite units hrounds hlimit =>
      rw [hvalue, rounds_iff hden] at hrounds
      subst hrounds
      rw [ofRatio, dif_neg (Nat.not_lt.2 hlimit)]
  · intro hx
    have hrounds : Rounds (num / den * one) (roundUnits (num * one) den) := by
      rw [hvalue, rounds_iff hden]
    rw [hx, ofRatio]
    split
    · exact .finite _ hrounds
    · next hlimit => exact .infinite hrounds (Nat.not_lt.1 hlimit)

end Quotient

end Interpolation.Double
