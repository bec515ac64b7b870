import Interpolation.Proofs.Number.Nearest

/-!
# The order of doubles

Doubles compare as their places do.  Rounding keeps the order of numbers, though numbers that differ
may become equal, and it leaves an integer up to `2 ^ 53` as it is.
-/

namespace Interpolation.Double

/-! ## Places -/

section Places

variable {x y z : Double} {p q : ℤ}

theorem place?_eq_none_iff : x.place? = none ↔ x = .nan := by
  cases x with
  | nan => exact iff_of_true rfl rfl
  | infinite | finite => exact iff_of_false (Option.some_ne_none _) nofun

theorem exists_place? (h : x ≠ .nan) : ∃ p, x.place? = some p :=
  Option.ne_none_iff_exists'.1 (mt place?_eq_none_iff.1 h)

theorem comparePlaces_eq (holds : ℤ → ℤ → Bool) (hx : x.place? = some p) (hy : y.place? = some q) :
    comparePlaces holds x y = holds p q := by
  rw [comparePlaces, hx, hy]

theorem eq_iff : x.eq y = true ↔ ∃ p, x.place? = some p ∧ y.place? = some p := by
  constructor
  · intro h
    rw [eq, comparePlaces] at h
    split at h
    · next p q hx hy =>
      obtain rfl : p = q := beq_iff_eq.1 h
      exact ⟨p, hx, hy⟩
    · cases h
  · rintro ⟨p, hx, hy⟩
    rw [eq, comparePlaces_eq _ hx hy, beq_self_eq_true]

theorem eq_comm_of_eq (h : x.eq y = true) : y.eq x = true := by
  obtain ⟨p, hx, hy⟩ := eq_iff.1 h
  exact eq_iff.2 ⟨p, hy, hx⟩

theorem eq_trans_of_eq (hxy : x.eq y = true) (hyz : y.eq z = true) : x.eq z = true := by
  obtain ⟨p, hx, hy⟩ := eq_iff.1 hxy
  obtain ⟨q, hy', hz⟩ := eq_iff.1 hyz
  obtain rfl : p = q := Option.some.inj (hy.symm.trans hy')
  exact eq_iff.2 ⟨p, hx, hz⟩

theorem eq_self_iff : x.eq x = true ↔ x ≠ .nan := by
  rw [eq_iff, ne_eq, ← place?_eq_none_iff, ← ne_eq, Option.ne_none_iff_exists']
  simp only [and_self]

theorem ofRatio_ne_nan (negative : Bool) (num den : ℕ) : ofRatio negative num den ≠ .nan := by
  rw [ofRatio]
  split <;> (intro h; cases h)

end Places

/-! ## Rounding keeps the order -/

/-- What is at least as near to the greater of two numbers is not below their middle. -/
theorem add_le_of_abs_sub_le {x a b : ℚ} (hlt : b < a) (h : |x - a| ≤ |x - b|) : a + b ≤ 2 * x := by
  have hsquares : (a - b) * (2 * x - (a + b)) = (x - b) ^ 2 - (x - a) ^ 2 := by ring
  have hnonneg : 0 ≤ (a - b) * (2 * x - (a + b)) := by
    rw [hsquares]
    exact sub_nonneg.2 (sq_le_sq.2 h)
  exact sub_nonneg.1 (nonneg_of_mul_nonneg_right hnonneg (sub_pos.2 hlt))

/-- What is at least as near to the lesser of two numbers is not above their middle. -/
theorem le_add_of_abs_sub_le {x a b : ℚ} (hlt : b < a) (h : |x - b| ≤ |x - a|) : 2 * x ≤ a + b := by
  have hneg : -b + -a ≤ 2 * -x := by
    refine add_le_of_abs_sub_le (neg_lt_neg hlt) ?_
    rw [neg_sub_neg, neg_sub_neg, abs_sub_comm b, abs_sub_comm a]
    exact h
  linarith

theorem Rounds.le_of_lt {x y : ℚ} {a b : ℕ} (ha : Rounds x a) (hb : Rounds y b) (h : x < y) :
    a ≤ b := by
  -- Else `x` would not be below the middle of the two, nor `y` above it.
  by_contra hlt
  have hcast : (b : ℚ) < a := Nat.cast_lt.2 (not_le.1 hlt)
  have hx := add_le_of_abs_sub_le hcast (ha.nearest b hb.fits)
  have hy := le_add_of_abs_sub_le hcast (hb.nearest a ha.fits)
  linarith

theorem roundUnits_mono {num num' den : ℕ} (hden : 0 < den) (h : num ≤ num') :
    roundUnits num den ≤ roundUnits num' den := by
  rcases Nat.eq_or_lt_of_le h with rfl | hlt
  · exact le_rfl
  · have hpos : (0 : ℚ) < den := Nat.cast_pos.2 hden
    have hvalues : (num / den : ℚ) < num' / den :=
      div_lt_div_of_pos_right (Nat.cast_lt.2 hlt) hpos
    exact Rounds.le_of_lt ((rounds_iff hden).2 rfl) ((rounds_iff hden).2 rfl) hvalues

/-! ## The double nearest to an integer -/

/-- How far from zero the double nearest to an integer stands. -/
def reach (magnitude : ℕ) : ℕ := min (roundUnits (magnitude * one) 1) limit

/-- The place of the double nearest to an integer. -/
def intPlace (n : ℤ) : ℤ := if n < 0 then -(reach n.natAbs : ℤ) else reach n.natAbs

theorem place?_ofInt (n : ℤ) : (ofInt n).place? = some (intPlace n) := by
  rw [ofInt, ofRatio, intPlace, reach]
  split
  · next hlimit =>
    rw [min_eq_left hlimit.le]
    simp only [place?, decide_eq_true_eq]
  · next hlimit =>
    rw [min_eq_right (Nat.not_lt.1 hlimit)]
    simp only [place?, decide_eq_true_eq]

theorem natAbs_intPlace (n : ℤ) : (intPlace n).natAbs = reach n.natAbs := by
  rw [intPlace]
  split
  · rw [Int.natAbs_neg, Int.natAbs_natCast]
  · rw [Int.natAbs_natCast]

theorem reach_mono {m n : ℕ} (h : m ≤ n) : reach m ≤ reach n :=
  min_le_min_right limit (roundUnits_mono Nat.one_pos (Nat.mul_le_mul_right one h))

theorem intPlace_mono {m n : ℤ} (h : m ≤ n) : intPlace m ≤ intPlace n := by
  rw [intPlace, intPlace]
  split
  · split
    · exact neg_le_neg (Int.ofNat_le.2 (reach_mono (by omega)))
    · omega
  · rw [if_neg (by omega)]
    exact Int.ofNat_le.2 (reach_mono (by omega))

theorem lt_of_intPlace_lt {m n : ℤ} (h : intPlace m < intPlace n) : m < n :=
  lt_of_not_ge fun hle => not_le.2 h (intPlace_mono hle)

theorem exists_one_eq : ∃ k, one = Nat.pow 2 k := ⟨1074, by decide +kernel⟩

theorem two_pow_mul_one_lt : Nat.pow 2 53 * one < limit := by decide +kernel

/-- Up to `2 ^ 53` every integer is a double. -/
theorem reach_of_le {magnitude : ℕ} (h : magnitude ≤ Nat.pow 2 53) :
    reach magnitude = magnitude * one := by
  have hlt : magnitude * one < limit := (Nat.mul_le_mul_right one h).trans_lt two_pow_mul_one_lt
  have hfits : magnitude * one % spacing (magnitude * one) = 0 := by
    obtain ⟨k, hk⟩ := exists_one_eq
    rw [hk]
    exact mul_two_pow_mod h
  have hround : roundUnits (magnitude * one * 1) 1 = magnitude * one :=
    roundUnits_of_representable ⟨hfits, hlt⟩ Nat.one_pos
  rw [Nat.mul_one] at hround
  rw [reach, hround, min_eq_left hlt.le]

theorem intPlace_of_abs_le {n : ℤ} (h : |n| ≤ 2 ^ 53) : intPlace n = n * one := by
  have hnat : n.natAbs ≤ Nat.pow 2 53 := by
    rw [Nat.pow_eq]
    zify
    exact h
  rw [intPlace, reach_of_le hnat]
  split
  · next hneg =>
    rw [Nat.cast_mul, Int.ofNat_natAbs_of_nonpos hneg.le]
    ring
  · next hnonneg => rw [Nat.cast_mul, Int.natAbs_of_nonneg (not_lt.1 hnonneg)]

/-- Up to `2 ^ 53` on either side of zero, different integers are different doubles. -/
theorem intPlace_lt_iff {m n : ℤ} (hm : |m| ≤ 2 ^ 53) (hn : |n| ≤ 2 ^ 53) :
    intPlace m < intPlace n ↔ m < n := by
  have hone : (0 : ℤ) < one := by
    obtain ⟨k, hk⟩ := exists_one_eq
    rw [hk]
    exact Nat.cast_pos.2 (Nat.two_pow_pos k)
  rw [intPlace_of_abs_le hm, intPlace_of_abs_le hn, Int.mul_lt_mul_right hone]

theorem intPlace_le_iff {m n : ℤ} (hm : |m| ≤ 2 ^ 53) (hn : |n| ≤ 2 ^ 53) :
    intPlace m ≤ intPlace n ↔ m ≤ n := by
  rw [← not_lt, intPlace_lt_iff hn hm, not_lt]

theorem reach_pos {magnitude : ℕ} (h : magnitude ≠ 0) : 0 < reach magnitude := by
  obtain ⟨k, hk⟩ := exists_one_eq
  have hle : Nat.pow 2 k ≤ magnitude * one := by
    rw [← hk]
    exact Nat.le_mul_of_pos_left one (Nat.pos_of_ne_zero h)
  exact lt_min ((Nat.two_pow_pos k).trans_le (two_pow_le_roundUnits hle)) (by decide +kernel)

/-- No integer is rounded to a zero with a minus sign. -/
theorem intPlace_neg_iff {n : ℤ} : intPlace n < 0 ↔ n < 0 := by
  rw [intPlace]
  split
  · next hneg =>
    have hreach : 0 < reach n.natAbs := reach_pos (by omega)
    omega
  · omega

theorem intPlace_zero : intPlace 0 = 0 := by
  rw [intPlace_of_abs_le (by simp), zero_mul]

theorem intPlace_pos_iff {n : ℤ} : 0 < intPlace n ↔ 0 < n := by
  constructor
  · intro h
    rw [← intPlace_zero] at h
    exact lt_of_intPlace_lt h
  · intro h
    rw [intPlace, if_neg (by omega)]
    exact Nat.cast_pos.2 (reach_pos (by omega))

/-- Integers are rounded to one double if they are rounded to one place. -/
theorem ofInt_eq_iff {m n : ℤ} : ofInt m = ofInt n ↔ intPlace m = intPlace n := by
  constructor
  · intro h
    exact Option.some.inj (by rw [← place?_ofInt, ← place?_ofInt, h])
  · intro h
    have hsign : m < 0 ↔ n < 0 := by rw [← intPlace_neg_iff, h, intPlace_neg_iff]
    have hreach : reach m.natAbs = reach n.natAbs := by
      rw [← natAbs_intPlace, h, natAbs_intPlace]
    rw [reach, reach] at hreach
    simp only [ofInt, hsign]
    -- Out of range nothing but the sign is left of the number.
    by_cases hlimit : roundUnits (m.natAbs * one) 1 < limit
    · refine ofRatio_congr _ ?_
      rw [min_eq_left hlimit.le] at hreach
      omega
    · have hlimit' : ¬ roundUnits (n.natAbs * one) 1 < limit := by omega
      rw [ofRatio, ofRatio, dif_neg hlimit, dif_neg hlimit']

/-- An integer becomes the double nearest to it, and no other. -/
theorem isNearest_ofInt_iff {n : ℤ} {x : Double} :
    IsNearest (decide (n < 0)) n.natAbs x ↔ x = ofInt n := by
  have hvalue : (n.natAbs : ℚ) = (n.natAbs : ℕ) / (1 : ℕ) := by rw [Nat.cast_one, div_one]
  rw [hvalue, isNearest_iff Nat.one_pos, ofInt]

end Interpolation.Double
