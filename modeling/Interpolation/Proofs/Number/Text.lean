import Interpolation.Proofs.Number.Shortest
import Interpolation.Proofs.Text.Numeral
import Interpolation.Text.Ends

/-!
# The text of a double reads back

Both layouts of a decimal are read as the decimal again, perhaps with zeros at the end of its digits
that its exponent makes up for.  So each double is read from its text.
-/

namespace Interpolation

namespace Numeral

theorem splitSign_eq_self {text : List Char} (h : ∀ c ∈ text.head?, c.isDigit = true) :
    splitSign text = (false, text) :=
  IsSigned.none.splitSign_eq fun c hc => ne_sign_of_isDigit (h c hc)

theorem isDigit_of_mem_toDigits {n : Nat} {c : Char} (h : c ∈ Nat.toDigits 10 n) :
    c.isDigit = true :=
  Nat.isDigit_of_mem_toDigits (by decide) (by decide) h

theorem digits?_toDigits (n : Nat) : digits? (Nat.toDigits 10 n) = some n := by
  have hdigits : (Nat.toDigits 10 n).all Char.isDigit = true :=
    List.all_eq_true.2 fun _ => isDigit_of_mem_toDigits
  rw [digits?, hdigits, Nat.ofDigitChars_ten_toDigits]
  simp

theorem isDigits_toString (n : Nat) : IsDigits (toString n).toList n := by
  rw [Nat.toString_eq_repr, Nat.toList_repr]
  exact digits?_eq_some_iff.1 (digits?_toDigits n)

theorem toList_toString_int (n : Int) :
    (toString n).toList =
      if n < 0 then '-' :: Nat.toDigits 10 n.natAbs else Nat.toDigits 10 n.natAbs := by
  rw [Int.toString_eq_repr, Int.repr_eq_if]
  split
  · next h =>
    rw [if_neg (by omega), Nat.toList_repr, show n.toNat = n.natAbs by omega]
  · next h =>
    rw [if_pos (by omega), String.toList_append, Nat.toList_repr,
      show (-n).toNat = n.natAbs by omega]
    rfl

theorem isDigit_or_minus_of_mem_toString {n : Int} {c : Char} (h : c ∈ (toString n).toList) :
    c.isDigit = true ∨ c = '-' := by
  rw [toList_toString_int] at h
  split at h
  · rcases List.mem_cons.1 h with h | h
    · exact .inr h
    · exact .inl (isDigit_of_mem_toDigits h)
  · exact .inl (isDigit_of_mem_toDigits h)

theorem splitSign_toString (n : Int) :
    splitSign (toString n).toList = (decide (n < 0), Nat.toDigits 10 n.natAbs) := by
  rw [toList_toString_int]
  split
  · next h => rw [decide_eq_true h]; rfl
  · next h =>
    rw [decide_eq_false h]
    exact splitSign_eq_self fun c hc => isDigit_of_mem_toDigits (List.mem_of_mem_head? hc)

theorem isInteger_toString (n : Int) : IsInteger (toString n).toList n := by
  have hsign := isSigned_splitSign (toString n).toList
  rw [splitSign_toString] at hsign
  have hinteger := IsInteger.mk hsign (digits?_eq_some_iff.1 (digits?_toDigits n.natAbs))
  have hvalue : (if decide (n < 0) then -(n.natAbs : Int) else n.natAbs) = n := by
    simp only [decide_eq_true_eq]
    omega
  rwa [hvalue] at hinteger

/-- The integer that a sign and digits stand for. -/
def signed? (text : List Char) : Option Int :=
  let (negative, digits) := splitSign text
  (digits? digits).map fun n : Nat => if negative then -(n : Int) else n

theorem signed?_toString (n : Int) : signed? (toString n).toList = some n := by
  rw [signed?, splitSign_toString]
  simp only [digits?_toDigits, Option.map_some, decide_eq_true_eq, Option.some_inj]
  omega

end Numeral

namespace Decimal

open Numeral

/-! ## Reading digits, a point and a power -/

theorem exponent?_mark (power : Int) : exponent? ('e' :: (toString power).toList) = some power := by
  have hsigned := signed?_toString power
  rw [signed?, splitSign_toString] at hsigned
  simp only [digits?_toDigits, Option.map_some] at hsigned
  rw [exponent?, if_pos (.inl rfl), splitSign_toString]
  simp only [digits?_toDigits]
  exact hsigned

variable {whole fraction : List Char}

theorem unsigned?_point (negative : Bool) (rest : List Char)
    (hwhole : ∀ c ∈ whole, c.isDigit = true) (hfraction : ∀ c ∈ fraction, c.isDigit = true)
    (hne : whole ++ fraction ≠ []) (hrest : ∀ c ∈ rest.head?, c.isDigit = false) :
    unsigned? negative (whole ++ '.' :: (fraction ++ rest)) =
      (exponent? rest).map fun power =>
        ⟨negative, Nat.ofDigitChars 10 (whole ++ fraction) 0, power - fraction.length⟩ := by
  have hpoint : ∀ c ∈ ('.' :: (fraction ++ rest)).head?, c.isDigit = false := by simp
  rw [unsigned?, takeWhile_append_of_head hwhole hpoint, dropWhile_append_of_head hwhole hpoint]
  simp only [takeWhile_append_of_head hfraction hrest, dropWhile_append_of_head hfraction hrest]
  rw [if_neg (by simpa using hne)]

theorem unsigned?_whole (negative : Bool) (rest : List Char) (hne : whole ≠ [])
    (hwhole : ∀ c ∈ whole, c.isDigit = true)
    (hrest : ∀ c ∈ rest.head?, c.isDigit = false ∧ c ≠ '.') :
    unsigned? negative (whole ++ rest) =
      (exponent? rest).map fun power => ⟨negative, Nat.ofDigitChars 10 whole 0, power⟩ := by
  have hdigit : ∀ c ∈ rest.head?, c.isDigit = false := fun c hc => (hrest c hc).1
  rw [unsigned?, takeWhile_append_of_head hwhole hdigit, dropWhile_append_of_head hwhole hdigit]
  cases rest with
  | nil => simp [hne]
  | cons c rest =>
    have hpoint : c ≠ '.' := (hrest c rfl).2
    simp [hne, hpoint]

end Decimal

namespace Double

open Decimal Numeral

/-! ## Reading what is laid out -/

section Layout

variable {digits : List Char}

theorem isDigit_of_mem_replicate {k : Nat} {c : Char} (h : c ∈ List.replicate k '0') :
    c.isDigit = true := by
  rw [List.eq_of_mem_replicate h]; rfl

theorem unsigned?_positional_of_nonpos (negative : Bool) (hdigits : ∀ c ∈ digits, c.isDigit = true)
    {point : Int} (hpoint : point ≤ 0) :
    unsigned? negative (positional digits point) =
      some ⟨negative, Nat.ofDigitChars 10 digits 0, point - digits.length⟩ := by
  have hfraction : ∀ c ∈ List.replicate (-point).toNat '0' ++ digits, c.isDigit = true :=
    List.forall_mem_append.2 ⟨fun _ => isDigit_of_mem_replicate, hdigits⟩
  have hzero : ∀ c ∈ ['0'], c.isDigit = true := List.forall_mem_singleton.2 rfl
  have hread := unsigned?_point negative [] hzero hfraction (List.cons_ne_nil _ _) (by simp)
  have hvalue : Nat.ofDigitChars 10 (['0'] ++ (List.replicate (-point).toNat '0' ++ digits)) 0 =
      Nat.ofDigitChars 10 digits 0 := by
    simp [Nat.ofDigitChars_append, Nat.ofDigitChars_cons, Nat.ofDigitChars_replicate_zero]
  have hexponent : (0 : Int) - (List.replicate (-point).toNat '0' ++ digits).length =
      point - digits.length := by
    simp only [List.length_append, List.length_replicate]; omega
  rw [List.append_nil, hvalue] at hread
  rw [positional, if_pos hpoint]
  exact hread.trans (by rw [exponent?, Option.map_some, hexponent])

theorem unsigned?_positional_of_lt (negative : Bool) (hdigits : ∀ c ∈ digits, c.isDigit = true)
    {point : Int} (hpoint : 0 < point) (hlt : point < digits.length) :
    unsigned? negative (positional digits point) =
      some ⟨negative, Nat.ofDigitChars 10 digits 0, point - digits.length⟩ := by
  have hwhole : digits.take point.toNat ≠ [] := by
    rw [Ne, List.take_eq_nil_iff, ← List.length_eq_zero_iff]; omega
  have hfraction : (digits.drop point.toNat).isEmpty = false := by
    rw [List.isEmpty_eq_false_iff, Ne, List.drop_eq_nil_iff]; omega
  have hzeros : point.toNat - (digits.take point.toNat).length = 0 := by
    rw [List.length_take]; omega
  have hread := unsigned?_point negative []
    (fun c (hc : c ∈ digits.take point.toNat) => hdigits c (List.mem_of_mem_take hc))
    (fun c (hc : c ∈ digits.drop point.toNat) => hdigits c (List.mem_of_mem_drop hc))
    (List.append_ne_nil_of_left_ne_nil hwhole _) (by simp)
  rw [List.append_nil, List.take_append_drop] at hread
  rw [positional, if_neg (by omega)]
  simp only [hfraction, hzeros, List.replicate_zero, List.append_nil, Bool.false_eq_true, if_false]
  rw [hread, exponent?, Option.map_some, List.length_drop]
  congr 2
  omega

theorem unsigned?_positional_of_le (negative : Bool) (hne : digits ≠ [])
    (hdigits : ∀ c ∈ digits, c.isDigit = true) {point : Int} (hle : digits.length ≤ point) :
    unsigned? negative (positional digits point) =
      some ⟨negative,
        Nat.ofDigitChars 10 digits 0 * Nat.pow 10 (point.toNat - digits.length + 1), -1⟩ := by
  have hpos : 0 < digits.length := List.length_pos_iff.2 hne
  have hwhole : digits.take point.toNat = digits := List.take_of_length_le (by omega)
  have hfraction : digits.drop point.toNat = [] := List.drop_eq_nil_of_le (by omega)
  have hfilled : ∀ c ∈ digits ++ List.replicate (point.toNat - digits.length) '0',
      c.isDigit = true := List.forall_mem_append.2 ⟨hdigits, fun _ => isDigit_of_mem_replicate⟩
  have hzero : ∀ c ∈ ['0'], c.isDigit = true := List.forall_mem_singleton.2 rfl
  have hread := unsigned?_point negative [] hfilled hzero
    (List.append_ne_nil_of_right_ne_nil _ (List.cons_ne_nil _ _)) (by simp)
  have hvalue : Nat.ofDigitChars 10
        (digits ++ List.replicate (point.toNat - digits.length) '0' ++ ['0']) 0 =
      Nat.ofDigitChars 10 digits 0 * Nat.pow 10 (point.toNat - digits.length + 1) := by
    simp [Nat.ofDigitChars_append, Nat.ofDigitChars_cons, Nat.ofDigitChars_replicate_zero, pow_succ]
    ring
  rw [List.append_nil, hvalue] at hread
  rw [positional, if_neg (by omega)]
  simp only [hwhole, hfraction, List.isEmpty_nil, if_true]
  exact hread

theorem unsigned?_scientific (negative : Bool) (hne : digits ≠ [])
    (hdigits : ∀ c ∈ digits, c.isDigit = true) (power : Int) :
    unsigned? negative (scientific digits power) =
      some ⟨negative, Nat.ofDigitChars 10 digits 0, power + 1 - digits.length⟩ := by
  obtain ⟨c, fraction, rfl⟩ := List.exists_cons_of_ne_nil hne
  rw [List.forall_mem_cons] at hdigits
  have hwhole : ∀ d ∈ [c], d.isDigit = true := by simpa using hdigits.1
  cases fraction with
  | nil =>
    have hread := unsigned?_whole negative ('e' :: (toString power).toList)
      (List.cons_ne_nil c []) hwhole (by simp)
    refine hread.trans ?_
    rw [exponent?_mark, Option.map_some]
    congr 2
    simp
  | cons d fraction =>
    have hread := unsigned?_point negative ('e' :: (toString power).toList) hwhole hdigits.2
      (List.cons_ne_nil _ _) (by simp)
    refine hread.trans ?_
    rw [exponent?_mark, Option.map_some]
    congr 2
    simp only [List.length_cons]
    omega

/-- The zeros that positional notation fills in make up for the power of ten. -/
theorem toDouble_positional (negative : Bool) (hne : digits ≠ [])
    (hdigits : ∀ c ∈ digits, c.isDigit = true) (point : Int) :
    (unsigned? negative (positional digits point)).map toDouble =
      some (toDouble ⟨negative, Nat.ofDigitChars 10 digits 0, point - digits.length⟩) := by
  by_cases hpos : 0 < point
  · by_cases hlt : point < digits.length
    · rw [unsigned?_positional_of_lt negative hdigits hpos hlt, Option.map_some]
    · have hle : (digits.length : Int) ≤ point := by omega
      rw [unsigned?_positional_of_le negative hne hdigits hle, Option.map_some, toDouble_shift]
      congr 3
      omega
  · rw [unsigned?_positional_of_nonpos negative hdigits (by omega), Option.map_some]

/-- What is left out of the digits at their end are zeros. -/
theorem exists_eq_append_zeros (all : List Char) :
    ∃ zeros, all = (all.reverse.dropWhile (· == '0')).reverse ++ List.replicate zeros '0' := by
  have hzeros : all.reverse.takeWhile (· == '0') =
      List.replicate (all.reverse.takeWhile (· == '0')).length '0' :=
    List.eq_replicate_of_mem fun c hc => eq_of_beq (List.all_eq_true.1 List.all_takeWhile c hc)
  refine ⟨(all.reverse.takeWhile (· == '0')).length, ?_⟩
  calc all = (all.reverse.takeWhile (· == '0') ++ all.reverse.dropWhile (· == '0')).reverse := by
        rw [List.takeWhile_append_dropWhile, List.reverse_reverse]
    _ = (all.reverse.dropWhile (· == '0')).reverse ++
        List.replicate (all.reverse.takeWhile (· == '0')).length '0' := by
        rw [List.reverse_append, hzeros, List.reverse_replicate, List.length_replicate]

/-- The digits that are laid out are those of the decimal without the zeros at their end. -/
theorem exists_layOut_eq (style : Layout) {d : Decimal} (hpos : 0 < d.coefficient) :
    ∃ digits zeros, digits ≠ [] ∧ (∀ c ∈ digits, c.isDigit = true) ∧
      Nat.ofDigitChars 10 digits 0 * Nat.pow 10 zeros = d.coefficient ∧
      (layOut style d = positional digits (d.exponent + zeros + digits.length) ∨
        layOut style d = scientific digits (d.exponent + zeros + digits.length - 1)) := by
  have hvalue : Nat.ofDigitChars 10 (Nat.toDigits 10 d.coefficient) 0 = d.coefficient :=
    Nat.ofDigitChars_ten_toDigits
  have hdigits : ∀ c ∈ Nat.toDigits 10 d.coefficient, c.isDigit = true :=
    fun _ => isDigit_of_mem_toDigits
  rw [layOut]
  -- From here on nothing but these two facts about the digits counts.
  generalize Nat.toDigits 10 d.coefficient = all at hvalue hdigits ⊢
  obtain ⟨zeros, hall⟩ := exists_eq_append_zeros all
  generalize (all.reverse.dropWhile (· == '0')).reverse = digits at hall ⊢
  subst hall
  rw [Nat.ofDigitChars_append, Nat.ofDigitChars_replicate_zero, Nat.mul_comm] at hvalue
  have hne : digits ≠ [] := by
    rintro rfl
    rw [Nat.ofDigitChars_nil, Nat.zero_mul] at hvalue
    omega
  refine ⟨digits, zeros, hne, (List.forall_mem_append.1 hdigits).1, hvalue, ?_⟩
  rw [List.length_append, List.length_replicate]
  split
  · refine .inl (congrArg (positional digits) ?_)
    omega
  · refine .inr (congrArg (scientific digits) ?_)
    omega

/-- A decimal and its layout, with any sign, have the same nearest double. -/
theorem toDouble_layOut (negative : Bool) (style : Layout) {d : Decimal}
    (hpos : 0 < d.coefficient) :
    (unsigned? negative (layOut style d)).map toDouble =
      some (toDouble ⟨negative, d.coefficient, d.exponent⟩) := by
  obtain ⟨digits, zeros, hne, hdigits, hvalue, hlayout⟩ := exists_layOut_eq style hpos
  have hshift := toDouble_shift negative (Nat.ofDigitChars 10 digits 0) zeros d.exponent
  rw [hvalue] at hshift
  rw [hshift]
  rcases hlayout with h | h
  · rw [h, toDouble_positional negative hne hdigits, Int.add_sub_cancel]
  · rw [h, unsigned?_scientific negative hne hdigits, Option.map_some, Int.sub_add_cancel,
      Int.add_sub_cancel]

/-! ## The characters that are laid out -/

theorem exists_positional_eq (hne : digits ≠ []) (hdigits : ∀ c ∈ digits, c.isDigit = true)
    (point : Int) :
    ∃ c text, positional digits point = c :: text ∧ c.isDigit = true := by
  obtain ⟨c, digits, rfl⟩ := List.exists_cons_of_ne_nil hne
  rw [positional]
  split
  · exact ⟨'0', _, rfl, rfl⟩
  · next hpoint =>
    obtain ⟨n, hn⟩ : ∃ n, point.toNat = n + 1 := ⟨point.toNat - 1, by omega⟩
    rw [hn, List.take_succ_cons]
    exact ⟨c, _, rfl, hdigits c List.mem_cons_self⟩

theorem exists_scientific_eq (hne : digits ≠ []) (hdigits : ∀ c ∈ digits, c.isDigit = true)
    (power : Int) :
    ∃ c text, scientific digits power = c :: text ∧ c.isDigit = true := by
  obtain ⟨c, digits, rfl⟩ := List.exists_cons_of_ne_nil hne
  exact ⟨c, _, rfl, hdigits c List.mem_cons_self⟩

theorem mem_positional {point : Int} {c : Char} (h : c ∈ positional digits point) :
    c ∈ digits ∨ c = '0' ∨ c = '.' := by
  rw [positional] at h
  split at h
  · simp only [List.mem_append, List.mem_cons, List.mem_replicate, List.not_mem_nil] at h
    tauto
  · simp only [List.mem_append, List.mem_cons, List.mem_replicate] at h
    rcases h with (h | h) | h | h
    · exact .inl (List.mem_of_mem_take h)
    · exact .inr (.inl h.2)
    · exact .inr (.inr h)
    · split at h
      · exact .inr (.inl (List.mem_singleton.1 h))
      · exact .inl (List.mem_of_mem_drop h)

theorem point_mem_positional (digits : List Char) (point : Int) :
    '.' ∈ positional digits point := by
  rw [positional]
  split <;> simp

theorem mem_scientific {power : Int} {c : Char} (h : c ∈ scientific digits power) :
    c ∈ digits ∨ c = '.' ∨ c = 'e' ∨ c ∈ (toString power).toList := by
  simp only [scientific, List.mem_append, List.mem_cons] at h
  rcases h with (h | h) | h | h
  · exact .inl (List.mem_of_mem_take h)
  · split at h
    · exact absurd h List.not_mem_nil
    · rcases List.mem_cons.1 h with h | h
      · exact .inr (.inl h)
      · exact .inl (List.mem_of_mem_drop h)
  · exact .inr (.inr (.inl h))
  · exact .inr (.inr (.inr h))

theorem mark_mem_scientific (digits : List Char) (power : Int) :
    'e' ∈ scientific digits power := by
  simp [scientific]

end Layout

/-- The text of a number of least units without its sign, by its layout. -/
theorem unsignedText_cases {units : Nat} (h : IsRepresentable units) :
    ∃ digits, digits ≠ [] ∧ (∀ c ∈ digits, c.isDigit = true) ∧
      ((∃ point, unsignedText units = positional digits point) ∨
        ∃ power, unsignedText units = scientific digits power) := by
  rw [unsignedText]
  split
  · exact ⟨['0'], List.cons_ne_nil _ _, List.forall_mem_singleton.2 rfl, .inl ⟨1, rfl⟩⟩
  · next hne =>
    obtain ⟨digits, zeros, hne, hdigits, -, hlayout⟩ :=
      exists_layOut_eq layout (coefficient_shortest_pos h hne)
    exact ⟨digits, hne, hdigits, hlayout.imp (⟨_, ·⟩) (⟨_, ·⟩)⟩

theorem exists_unsignedText_eq {units : Nat} (h : IsRepresentable units) :
    ∃ c text, unsignedText units = c :: text ∧ c.isDigit = true := by
  obtain ⟨digits, hne, hdigits, ⟨point, htext⟩ | ⟨power, htext⟩⟩ := unsignedText_cases h
  · rw [htext]; exact exists_positional_eq hne hdigits point
  · rw [htext]; exact exists_scientific_eq hne hdigits power

theorem mem_unsignedText {units : Nat} (h : IsRepresentable units) {c : Char}
    (hc : c ∈ unsignedText units) : c.isDigit = true ∨ c = '.' ∨ c = 'e' ∨ c = '-' := by
  obtain ⟨digits, -, hdigits, ⟨point, htext⟩ | ⟨power, htext⟩⟩ := unsignedText_cases h
  · rw [htext] at hc
    rcases mem_positional hc with hc | rfl | hc
    · exact .inl (hdigits c hc)
    · exact .inl rfl
    · exact .inr (.inl hc)
  · rw [htext] at hc
    rcases mem_scientific hc with hc | hc | hc | hc
    · exact .inl (hdigits c hc)
    · exact .inr (.inl hc)
    · exact .inr (.inr (.inl hc))
    · exact (Numeral.isDigit_or_minus_of_mem_toString hc).imp_right fun h => .inr (.inr h)

theorem point_or_mark_mem_unsignedText {units : Nat} (h : IsRepresentable units) :
    '.' ∈ unsignedText units ∨ 'e' ∈ unsignedText units := by
  obtain ⟨digits, -, -, ⟨point, htext⟩ | ⟨power, htext⟩⟩ := unsignedText_cases h
  · rw [htext]; exact .inl (point_mem_positional digits point)
  · rw [htext]; exact .inr (mark_mem_scientific digits power)

/-! ## Reading the text of a double -/

theorem toDouble_unsignedText {units : Nat} (h : IsRepresentable units) (negative : Bool) :
    (unsigned? negative (unsignedText units)).map toDouble = some (.finite negative units h) := by
  rw [unsignedText]
  split
  · next hzero =>
    subst hzero
    have hread : unsigned? negative ['0', '.', '0'] = some ⟨negative, 0, -1⟩ := rfl
    rw [hread, Option.map_some, toDouble_eq]
    refine congrArg some (ofRatio_eq_finite h negative ?_)
    exact roundUnits_of_vanishing (.inl rfl)
  · next hne =>
    rw [toDouble_layOut negative layout (coefficient_shortest_pos h hne), toDouble_shortest h]

theorem toLower_of_isDigit {c : Char} (hc : c.isDigit = true) : c.toLower = c := by
  rw [Char.isDigit, Bool.and_eq_true, decide_eq_true_eq, decide_eq_true_eq] at hc
  exact dif_neg fun hupper => absurd (UInt32.le_trans hupper.1 hc.2) (by decide)

/-- No word for an infinity or for NaN has a digit. -/
theorem ofText?_of_isDigit {c : Char} (hc : c.isDigit = true) {negative : Bool}
    {unsigned text : List Char} (hsign : splitSign text = (negative, unsigned))
    (hmem : c ∈ unsigned) : ofText? text = (unsigned? negative unsigned).map toDouble := by
  have hlower : c ∈ unsigned.map Char.toLower :=
    List.mem_map.2 ⟨c, hmem, toLower_of_isDigit hc⟩
  have hword : ∀ word : String, word.toList.any Char.isDigit = false →
      String.ofList (unsigned.map Char.toLower) ≠ word := by
    rintro word hletters rfl
    rw [String.toList_ofList] at hletters
    exact Bool.noConfusion (hletters.symm.trans (List.any_eq_true.2 ⟨c, hlower, hc⟩))
  rw [ofText?, hsign]
  simp only
  rw [if_neg (not_or.2 ⟨hword _ rfl, hword _ rfl⟩), if_neg (hword _ rfl)]

/-- Every double is read from its text. -/
theorem ofText?_toText (x : Double) : ofText? x.toText.toList = some x := by
  cases x with
  | nan => rfl
  | infinite negative => cases negative <;> rfl
  | finite negative units h =>
    obtain ⟨c, text, htext, hc⟩ := exists_unsignedText_eq h
    have hsign : IsSigned (c :: text) negative ((if negative then ['-'] else []) ++ c :: text) := by
      cases negative with
      | true => exact .minus
      | false => exact .none
    have hhead : ∀ d ∈ (c :: text).head?, d ≠ '-' ∧ d ≠ '+' := by
      rintro d ⟨⟩
      exact ne_sign_of_isDigit hc
    rw [toText, String.toList_ofList, htext,
      ofText?_of_isDigit hc (hsign.splitSign_eq hhead) List.mem_cons_self, ← htext,
      toDouble_unsignedText h]

end Double

end Interpolation
