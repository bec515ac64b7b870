import Interpolation.Number.Shortest
import Interpolation.Proofs.Number.Rounding

/-!
# The shortest decimal reads back

Every decimal that is tried for the digits of a double is tested, and the exact value, which is
tried last, passes the test.  So the decimal that is found reads back to the double.
-/

namespace Interpolation.Double

theorem ofRatio_eq_finite {units num den : Nat} (h : IsRepresentable units) (negative : Bool)
    (hround : roundUnits num den = units) :
    ofRatio negative num den = .finite negative units h := by
  subst hround
  rw [ofRatio, dif_pos h.2]

theorem readsBack_iff {units coefficient : Nat} {exponent : Int} (h : units < limit) :
    ReadsBack units coefficient exponent ↔
      roundUnits (Decimal.numerator ⟨false, coefficient, exponent⟩ * one)
        (Decimal.denominator ⟨false, coefficient, exponent⟩) = units := by
  rw [ReadsBack, Decimal.toDouble_eq, ofRatio]
  split
  · simp [place?]
  · next hlimit =>
    have hne : limit ≠ units := Nat.ne_of_gt h
    simp only [place?, Bool.false_eq_true, if_false, Option.some_inj, Int.natCast_inj, hne,
      false_iff]
    omega

/-- The exact value of a number of least units. -/
def exactDecimal (units : Nat) : Decimal := ⟨false, exactCoefficient units, -1074⟩

-- The power is a variable with a value, so that it is computed in one place only.
theorem five_pow_mul_one : ∀ power, power = 1074 → Nat.pow 5 power * one = Nat.pow 10 power := by
  rintro _ rfl
  decide +kernel

theorem exactDecimal_numerator (units : Nat) :
    (exactDecimal units).numerator * one = units * (exactDecimal units).denominator := by
  have hnumerator : (-1074 : Int).toNat = 0 := rfl
  have hdenominator : (- -1074 : Int).toNat = 1074 := rfl
  simp only [exactDecimal, exactCoefficient, Decimal.numerator, Decimal.denominator, hnumerator,
    hdenominator]
  generalize hpower : 1074 = power
  calc units * Nat.pow 5 power * 1 * one = units * (Nat.pow 5 power * one) := by ring
    _ = units * Nat.pow 10 power := by rw [five_pow_mul_one power hpower.symm]

/-- The exact value reads back. -/
theorem readsBack_exactDecimal {units : Nat} (h : IsRepresentable units) :
    ReadsBack units (exactDecimal units).coefficient (exactDecimal units).exponent := by
  rw [readsBack_iff h.2]
  change roundUnits ((exactDecimal units).numerator * one) (exactDecimal units).denominator = units
  rw [exactDecimal_numerator]
  exact roundUnits_of_representable h (exactDecimal units).denominator_pos

theorem readsBack_of_neighbour? {units dropped : Nat} {d : Decimal}
    (h : neighbour? units dropped = some d) : ReadsBack units d.coefficient d.exponent := by
  obtain ⟨coefficient, hfind, rfl⟩ := Option.map_eq_some_iff.1 h
  have hreads := List.find?_some hfind
  exact of_decide_eq_true hreads

theorem readsBack_shortest {units : Nat} (h : IsRepresentable units) :
    ReadsBack units (shortest units).coefficient (shortest units).exponent := by
  rw [shortest]
  cases hfound : (List.range _).reverse.findSome? (neighbour? units) with
  | none => exact readsBack_exactDecimal h
  | some d =>
    obtain ⟨dropped, -, hd⟩ := List.exists_of_findSome?_eq_some hfound
    exact readsBack_of_neighbour? hd

/-- With either sign in front, the shortest decimal reads back. -/
theorem toDouble_shortest {units : Nat} (h : IsRepresentable units) (negative : Bool) :
    Decimal.toDouble ⟨negative, (shortest units).coefficient, (shortest units).exponent⟩ =
      .finite negative units h := by
  rw [Decimal.toDouble_eq]
  exact ofRatio_eq_finite h negative ((readsBack_iff h.2).1 (readsBack_shortest h))

theorem coefficient_pos_of_readsBack {units coefficient : Nat} {exponent : Int}
    (hlimit : units < limit) (hne : units ≠ 0) (h : ReadsBack units coefficient exponent) :
    0 < coefficient := by
  refine Nat.pos_of_ne_zero fun hzero => hne ?_
  have hvanish := Decimal.roundUnits_of_vanishing (d := ⟨false, coefficient, exponent⟩)
    (.inl hzero)
  exact ((readsBack_iff hlimit).1 h).symm.trans hvanish

theorem coefficient_shortest_pos {units : Nat} (h : IsRepresentable units) (hne : units ≠ 0) :
    0 < (shortest units).coefficient :=
  coefficient_pos_of_readsBack h.2 hne (readsBack_shortest h)

end Interpolation.Double
