import Interpolation.Proofs.Failure
import Interpolation.Proofs.Number.Fixed
import Interpolation.Proofs.Text.Ends
import Interpolation.Proofs.Text.Path
import Interpolation.Value.Display

/-!
# What a text is read as

A text without the white space around it is a quoted text, an integer of 64 bits, another decimal,
or a path, and what it looks like tells which: one relation between texts and results says
everything that the reader does.
-/

namespace Interpolation

namespace Operand

open Decimal Numeral

/-- A quote, a text and the same quote. -/
def IsQuoted (text body : List Char) : Prop :=
  ∃ quote, isQuote quote ∧ text = quote :: (body ++ [quote])

/-- What a text without white space around it stands for, or what is wrong with it.  An integer is a
decimal too; no other text has two of these forms. -/
inductive Reading (text : List Char) : Except String Operand → Prop
  | empty : text = [] → Reading text (.error "Expected a variable")
  | quoted {body : List Char} : IsQuoted text body →
      Reading text (.ok (.literal (.text (String.ofList body))))
  | integer {n : Int64} : IsInteger text n.toInt → Reading text (.ok (.literal (.int n.toInt)))
  | decimal {negative : Bool} {magnitude : ℚ} {x : Double} :
      (∀ n : Int64, ¬ IsInteger text n.toInt) → IsDecimal text negative magnitude →
        x.IsNearest negative magnitude → Reading text (.ok (.literal (.float x)))
  | gap : text ≠ [] → (∀ body, ¬ IsQuoted text body) →
      (∀ negative magnitude, ¬ IsDecimal text negative magnitude) → [] ∈ text.splitOn '.' →
        Reading text (.error ("Invalid variable path '" ++ String.ofList text ++ "'"))
  | path : text ≠ [] → (∀ body, ¬ IsQuoted text body) →
      (∀ negative magnitude, ¬ IsDecimal text negative magnitude) → [] ∉ text.splitOn '.' →
        Reading text (.ok (.path (String.ofList text)))

/-! ## Literals -/

variable {text : List Char}

theorem unquote?_eq_some_iff {body : List Char} :
    unquote? text = some body ↔ IsQuoted text body := by
  cases text with
  | nil => simp [unquote?, IsQuoted]
  | cons c text =>
    rw [unquote?, Option.ite_none_right_eq_some, Option.some_inj]
    constructor
    · rintro ⟨⟨hquote, hlast⟩, rfl⟩
      obtain ⟨body, rfl⟩ := List.getLast?_eq_some_iff.1 hlast
      exact ⟨c, hquote, by rw [List.dropLast_concat]⟩
    · rintro ⟨quote, hquote, h⟩
      obtain ⟨rfl, rfl⟩ := List.cons.inj h
      exact ⟨⟨hquote, List.getLast?_concat⟩, List.dropLast_concat⟩

theorem literal?_eq_text_iff {raw : List Char} {text : String} :
    literal? raw = some (.text text) ↔ unquote? raw = some text.toList := by
  unfold literal?
  cases unquote? raw with
  | some quoted => simp [← String.toList_inj]
  | none => cases Numeral.integer? raw <;> simp

theorem not_isQuoted_of_isDecimal {negative : Bool} {magnitude : ℚ} {body : List Char}
    (h : IsDecimal text negative magnitude) : ¬ IsQuoted text body := by
  rintro ⟨quote, hquote, rfl⟩
  rcases h.isDigit_or_eq List.mem_cons_self with hdigit | rfl | rfl | rfl
  · rw [isQuote, Bool.or_eq_true, beq_iff_eq, beq_iff_eq] at hquote
    rcases hquote with rfl | rfl <;> exact absurd hdigit (by decide)
  all_goals exact absurd hquote (by decide)

theorem unquote?_eq_none_of_isDecimal {negative : Bool} {magnitude : ℚ}
    (h : IsDecimal text negative magnitude) : unquote? text = none := by
  rw [Option.eq_none_iff_forall_ne_some]
  intro body hbody
  exact not_isQuoted_of_isDecimal h (unquote?_eq_some_iff.1 hbody)

theorem integer?_eq_none_iff :
    integer? text = none ↔ ∀ n : Int64, ¬ IsInteger text n.toInt := by
  rw [Option.eq_none_iff_forall_ne_some]
  constructor
  · intro h n hn
    exact h _ (integer?_eq_some_iff.2 ⟨inRange_iff_exists.2 ⟨n, rfl⟩, hn⟩)
  · intro h n hn
    obtain ⟨hrange, hinteger⟩ := integer?_eq_some_iff.1 hn
    obtain ⟨m, rfl⟩ := inRange_iff_exists.1 hrange
    exact h m hinteger

theorem literal?_of_isQuoted {body : List Char} (h : IsQuoted text body) :
    literal? text = some (.text (String.ofList body)) := by
  rw [literal?_eq_text_iff, unquote?_eq_some_iff, String.toList_ofList]
  exact h

theorem literal?_of_isInteger {n : Int64} (h : IsInteger text n.toInt) :
    literal? text = some (.int n.toInt) := by
  obtain ⟨negative, magnitude, hdecimal⟩ := isDecimal_of_isInteger h
  have hinteger : integer? text = some n.toInt :=
    integer?_eq_some_iff.2 ⟨inRange_iff_exists.2 ⟨n, rfl⟩, h⟩
  rw [literal?, unquote?_eq_none_of_isDecimal hdecimal]
  dsimp only
  rw [hinteger]

theorem literal?_of_isDecimal {negative : Bool} {magnitude : ℚ} {x : Double}
    (hinteger : ∀ n : Int64, ¬ IsInteger text n.toInt) (h : IsDecimal text negative magnitude)
    (hx : x.IsNearest negative magnitude) : literal? text = some (.float x) := by
  have hdouble : double? text = some x := double?_eq_some_iff.2 ⟨negative, magnitude, h, hx⟩
  rw [literal?, unquote?_eq_none_of_isDecimal h]
  dsimp only
  rw [integer?_eq_none_iff.2 hinteger]
  dsimp only
  rw [hdouble, Option.map_some]

theorem literal?_eq_none (hquoted : ∀ body, ¬ IsQuoted text body)
    (hdecimal : ∀ negative magnitude, ¬ IsDecimal text negative magnitude) :
    literal? text = none := by
  have hunquote : unquote? text = none := by
    rw [Option.eq_none_iff_forall_ne_some]
    exact fun body hbody => hquoted body (unquote?_eq_some_iff.1 hbody)
  have hinteger : integer? text = none := by
    rw [integer?_eq_none_iff]
    intro n hn
    obtain ⟨negative, magnitude, h⟩ := isDecimal_of_isInteger hn
    exact hdecimal negative magnitude h
  have hdouble : double? text = none := by
    rw [Option.eq_none_iff_forall_ne_some]
    intro x hx
    obtain ⟨negative, magnitude, h, -⟩ := double?_eq_some_iff.1 hx
    exact hdecimal negative magnitude h
  rw [literal?, hunquote]
  dsimp only
  rw [hinteger]
  dsimp only
  rw [hdouble, Option.map_none]

/-! ## Reading -/

variable {raw : String} {origin : Option Origin}

theorem read_of_nil (h : trimSpace raw.toList = []) : read raw origin = .error ⟨.noOperand, origin⟩ := by
  rw [read, h]
  rfl

theorem read_of_literal? {value : Value} (h : literal? (trimSpace raw.toList) = some value) :
    read raw origin = .ok (.literal value) := by
  have hne : (trimSpace raw.toList).isEmpty = false := by
    rw [List.isEmpty_eq_false_iff]
    intro hnil
    rw [hnil] at h
    cases h
  rw [read, hne, h]
  rfl

theorem read_of_no_literal (hne : trimSpace raw.toList ≠ [])
    (h : literal? (trimSpace raw.toList) = none) :
    read raw origin =
      if Path.hasGap (String.ofList (trimSpace raw.toList)) then
        .error ⟨.invalidPath (String.ofList (trimSpace raw.toList)), origin⟩
      else .ok (.path (String.ofList (trimSpace raw.toList))) := by
  rw [read]
  dsimp only
  rw [List.isEmpty_eq_false_iff.2 hne, if_neg Bool.false_ne_true, h]

theorem read_eq_text_iff {text : String} :
    read raw origin = .ok (.literal (.text text)) ↔
      ∃ quote, isQuote quote ∧ trimSpace raw.toList = quote :: (text.toList ++ [quote]) := by
  change _ ↔ IsQuoted (trimSpace raw.toList) text.toList
  rw [← unquote?_eq_some_iff, ← literal?_eq_text_iff, read]
  dsimp only
  split
  · next hempty =>
    rw [List.isEmpty_iff.1 hempty, literal?_eq_text_iff]
    simp [unquote?]
  · cases literal? (trimSpace raw.toList) with
    | some value => simp
    | none => dsimp only; split <;> simp

theorem eq_of_read_eq_path {raw path : String} (h : read raw origin = .ok (.path path)) :
    path = String.ofList (trimSpace raw.toList) := by
  unfold read at h
  dsimp only at h
  split at h
  · cases h
  · split at h
    · cases h
    · split at h
      · cases h
      · cases h
        rfl

theorem literal?_of_read_eq_literal {value : Value} (h : read raw origin = .ok (.literal value)) :
    literal? (trimSpace raw.toList) = some value := by
  unfold read at h
  dsimp only at h
  split at h
  · cases h
  · split at h
    · next hliteral =>
      cases h
      exact hliteral
    · split at h <;> cases h

theorem exists_reading (text : List Char) : ∃ result, Reading text result := by
  by_cases hempty : text = []
  · exact ⟨_, .empty hempty⟩
  by_cases hquoted : ∃ body, IsQuoted text body
  · obtain ⟨body, hbody⟩ := hquoted
    exact ⟨_, .quoted hbody⟩
  by_cases hinteger : ∃ n : Int64, IsInteger text n.toInt
  · obtain ⟨n, hn⟩ := hinteger
    exact ⟨_, .integer hn⟩
  by_cases hdecimal : ∃ negative magnitude, IsDecimal text negative magnitude
  · obtain ⟨negative, magnitude, h⟩ := hdecimal
    obtain ⟨x, hx⟩ := h.exists_isNearest
    exact ⟨_, .decimal (not_exists.1 hinteger) h hx⟩
  have hquoted' := not_exists.1 hquoted
  have hdecimal' : ∀ negative magnitude, ¬ IsDecimal text negative magnitude :=
    fun negative magnitude h => hdecimal ⟨negative, magnitude, h⟩
  by_cases hgap : [] ∈ text.splitOn '.'
  · exact ⟨_, .gap hempty hquoted' hdecimal' hgap⟩
  · exact ⟨_, .path hempty hquoted' hdecimal' hgap⟩

theorem Reading.read_eq {result : Except String Operand}
    (h : Reading (trimSpace raw.toList) result) :
    (read raw origin).mapError Failure.reason = result := by
  cases h with
  | empty h => rw [read_of_nil h]; rfl
  | quoted h => rw [read_of_literal? (literal?_of_isQuoted h)]; rfl
  | integer h => rw [read_of_literal? (literal?_of_isInteger h)]; rfl
  | decimal hinteger h hx => rw [read_of_literal? (literal?_of_isDecimal hinteger h hx)]; rfl
  | gap hne hquoted hdecimal hgap =>
    rw [read_of_no_literal hne (literal?_eq_none hquoted hdecimal),
      if_pos ((Path.hasGap_ofList _).2 hgap), ← ParseFault.reason_invalidPath]
    rfl
  | path hne hquoted hdecimal hgap =>
    rw [read_of_no_literal hne (literal?_eq_none hquoted hdecimal),
      if_neg (mt (Path.hasGap_ofList _).1 hgap)]
    rfl

theorem read_eq_iff {result : Except String Operand} :
    (read raw origin).mapError Failure.reason = result ↔ Reading (trimSpace raw.toList) result := by
  constructor
  · rintro rfl
    obtain ⟨result, h⟩ := exists_reading (trimSpace raw.toList)
    rw [h.read_eq]
    exact h
  · exact Reading.read_eq

/-- An integer is read from its digits. -/
theorem read_display_int (n : Int64) (origin : Option Origin) :
    read (Value.int n.toInt).display origin = .ok (.literal (.int n.toInt)) := by
  have htrim : trimSpace (toString n.toInt).toList = (toString n.toInt).toList := by
    refine trimSpace_eq_self fun c hc => ?_
    rcases isDigit_or_minus_of_mem_toString hc with hdigit | rfl
    · exact isSpace_of_isDigit hdigit
    · rfl
  have hinteger : IsInteger (trimSpace (toString n.toInt).toList) n.toInt := by
    rw [htrim]
    exact isInteger_toString n.toInt
  exact read_of_literal? (literal?_of_isInteger hinteger)

/-- What is left of a text without the white space around it is classified: it stands for a literal
or a path, or it is no operand, wherever the text comes from.  An integer as it is shown is the literal of this integer. -/
theorem read_iff_reading_and_read_display_int (raw : String) :
    (∃ text, IsTrimmed raw.toList text ∧ (∀ other, IsTrimmed raw.toList other → other = text) ∧
      ∀ origin result, (read raw origin).mapError Failure.reason = result ↔ Reading text result) ∧
    ∀ (n : Int64) origin, read (Value.int n.toInt).display origin = .ok (.literal (.int n.toInt)) :=
  ⟨⟨trimSpace raw.toList, isTrimmed_trimSpace _, fun _ => IsTrimmed.eq_trimSpace,
    fun _ _ => read_eq_iff⟩, read_display_int⟩

example : read " 1e5 " none = .ok (.path "1e5") := rfl

end Operand

end Interpolation
