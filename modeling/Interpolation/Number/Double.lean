/-!
# Double-precision numbers

A finite double is a sign and a whole number of least units, each `2 ^ (-1074)`, with at most 53
significant bits.  `ofRatio` rounds an exact quotient to the nearest of these, ties to even, and
overflows to an infinity.  Comparison is exact: both zeros are equal, and NaN is unordered.
-/

namespace Interpolation

-- The powers are `Nat.pow` because the instance behind `^` depends on what is imported.

/-- How many least units make a one. -/
def Double.one : Nat := Nat.pow 2 1074

/-- The first number of least units out of range: `2 ^ 1024`. -/
def Double.limit : Nat := Nat.pow 2 1024 * Double.one

/-- The distance between neighbours of 53 significant bits around a number of least units. -/
def Double.spacing (units : Nat) : Nat := Nat.pow 2 (units.log2 - 52)

/-- At most 53 significant bits, and below the limit of the range. -/
def IsRepresentable (units : Nat) : Prop :=
  units % Double.spacing units = 0 ∧ units < Double.limit

instance (units : Nat) : Decidable (IsRepresentable units) :=
  inferInstanceAs (Decidable (_ ∧ _))

/-- A double-precision number. -/
inductive Double
  | nan
  | infinite (negative : Bool)
  | finite (negative : Bool) (units : Nat) (representable : IsRepresentable units)
  deriving DecidableEq

namespace Double

/-! ## Rounding -/

/-- The quotient rounded to the nearest whole number, ties to even. -/
def divToEven (num den : Nat) : Nat :=
  let quotient := num / den
  match compare (2 * (num % den)) den with
  | .lt => quotient
  | .gt => quotient + 1
  | .eq => quotient + quotient % 2

theorem le_divToEven (num den : Nat) : num / den ≤ divToEven num den := by
  simp only [divToEven]
  split <;> omega

theorem divToEven_le (num den : Nat) : divToEven num den ≤ num / den + 1 := by
  simp only [divToEven]
  split <;> omega

/-- The quotient rounded to 53 significant bits, or to a whole number if it has fewer. -/
def roundUnits (num den : Nat) : Nat :=
  let step := spacing (num / den)
  divToEven num (den * step) * step

/-- A multiple of a power of two has few significant bits if the factor is at most `2 ^ 53`. -/
theorem mul_two_pow_mod {m k : Nat} (h : m ≤ Nat.pow 2 53) :
    m * Nat.pow 2 k % spacing (m * Nat.pow 2 k) = 0 := by
  rw [spacing]
  simp only [Nat.pow_eq] at h ⊢
  rcases Nat.eq_zero_or_pos m with rfl | hm
  · simp
  · have hne : m * 2 ^ k ≠ 0 := Nat.mul_ne_zero (by omega) (by simp)
    rcases Nat.lt_or_eq_of_le h with h | rfl
    · have hlog : (m * 2 ^ k).log2 - 52 ≤ k := by
        have : (m * 2 ^ k).log2 < 53 + k := by
          rw [Nat.log2_lt hne, Nat.pow_add]
          exact Nat.mul_lt_mul_of_pos_right h (Nat.two_pow_pos k)
        omega
      exact Nat.mod_eq_zero_of_dvd (Nat.dvd_mul_left_of_dvd (Nat.pow_dvd_pow 2 hlog) m)
    · rw [← Nat.pow_add, Nat.log2_two_pow]
      have : 53 + k = (53 + k - 52) + 52 := by omega
      rw [this, Nat.pow_add]
      simp

/-- The spacing leaves at most 53 bits. -/
theorem div_spacing_lt (units : Nat) : units / spacing units < Nat.pow 2 53 := by
  rw [spacing]
  simp only [Nat.pow_eq]
  rw [Nat.div_lt_iff_lt_mul (Nat.two_pow_pos _), ← Nat.pow_add]
  have : units < 2 ^ (units.log2 + 1) := Nat.lt_log2_self
  exact Nat.lt_of_lt_of_le this (Nat.pow_le_pow_right (by decide) (by omega))

theorem divToEven_spacing_le (num den : Nat) :
    divToEven num (den * spacing (num / den)) ≤ Nat.pow 2 53 := by
  refine Nat.le_trans (divToEven_le _ _) ?_
  rw [← Nat.div_div_eq_div_mul]
  exact div_spacing_lt (num / den)

theorem roundUnits_mod (num den : Nat) :
    roundUnits num den % spacing (roundUnits num den) = 0 :=
  mul_two_pow_mod (divToEven_spacing_le num den)

/-- The double nearest to a quotient of least units, ties to even. -/
def ofRatio (negative : Bool) (num den : Nat) : Double :=
  if h : roundUnits num den < limit then
    .finite negative (roundUnits num den) ⟨roundUnits_mod num den, h⟩
  else
    .infinite negative

/-- The double nearest to an integer, ties to even. -/
def ofInt (n : Int) : Double := ofRatio (n < 0) (n.natAbs * one) 1

/-! ## Comparison -/

/-- The number in least units, an infinity standing beyond all finite ones; NaN has no place. -/
def place? : Double → Option Int
  | .nan => none
  | .infinite negative => some (if negative then -limit else limit)
  | .finite negative units _ => some (if negative then -units else units)

/-- A comparison of places, false if one is missing. -/
def comparePlaces (holds : Int → Int → Bool) (x y : Double) : Bool :=
  match x.place?, y.place? with
  | some a, some b => holds a b
  | _, _ => false

/-- Numeric equality: the zeros are equal, and NaN equals nothing. -/
def eq : Double → Double → Bool := comparePlaces (· == ·)

/-- Less, for numbers that both have a place. -/
def lt : Double → Double → Bool := comparePlaces (· < ·)

/-- Less or equal, for numbers that both have a place. -/
def le : Double → Double → Bool := comparePlaces (· ≤ ·)

/-- Whether the number is neither NaN nor an infinity. -/
def isFinite : Double → Bool
  | .finite .. => true
  | _ => false

/-- Whether the number is zero. -/
def isZero : Double → Bool
  | .finite _ units _ => units == 0
  | _ => false

end Double

end Interpolation
