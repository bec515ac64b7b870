import Interpolation.Proofs.Condition.Moves
import Interpolation.Proofs.Operand
import Interpolation.Proofs.Value.Equality
import Interpolation.Proofs.Value.Navigation

/-!
# An operand compared with itself

A literal is never NaN, nor is a number in JSON if its reader has none.  So in a context made from
such JSON every operand equals itself, also one that leads nowhere.
-/

namespace Interpolation

variable {ν : Type} [JsonNumber ν]

namespace Value

/-! ## No NaN in JSON -/

theorem items_ofNumber (n : ν) : (ofNumber n).items = [] := by
  obtain hn | ⟨i, hn⟩ | ⟨x, -, hn⟩ := ofNumber_cases n
  all_goals
    rw [hn]
    rfl

theorem exists_eq_ofJson_of_mem_items {json : Json ν} {item : Value}
    (h : item ∈ (ofJson json).items) : ∃ inner : Json ν, item = ofJson inner := by
  cases json with
  | array items =>
    rw [ofJson, ofItems_eq_map] at h
    obtain ⟨inner, -, rfl⟩ := List.mem_map.1 h
    exact ⟨inner, rfl⟩
  | object members =>
    rw [ofJson] at h
    obtain ⟨entry, hentry, rfl⟩ := List.mem_map.1 h
    have hmember := Entries.mem_of_mem_ofList hentry
    rw [ofMembers_eq_map] at hmember
    obtain ⟨member, -, rfl⟩ := List.mem_map.1 hmember
    exact ⟨member.2, rfl⟩
  | number n =>
    rw [ofJson, items_ofNumber] at h
    cases h
  | null | bool b | text s => cases h

section NoNaN

variable (hnan : ∀ n : ν, JsonNumber.double? n ≠ some .nan)

include hnan

theorem ofNumber_ne_nan (n : ν) : ofNumber n ≠ .float .nan := by
  obtain hn | ⟨i, hn⟩ | ⟨x, hx, hn⟩ := ofNumber_cases n
  · simp [hn]
  · simp [hn]
  · rw [hn, ne_eq, float.injEq]
    rintro rfl
    exact hnan n hx

theorem ofJson_ne_nan (json : Json ν) : ofJson json ≠ .float .nan := by
  cases json with
  | number n => exact ofNumber_ne_nan hnan n
  | null | bool b | text s | array items | object members =>
    rw [ofJson]
    intro h
    cases h

theorem at?_ofJson_ne_nan (json : Json ν) (place : List ℕ) :
    (ofJson json).at? place ≠ some (.float .nan) := by
  induction place generalizing json with
  | nil =>
    rw [at?_nil, ne_eq, Option.some_inj]
    exact ofJson_ne_nan hnan json
  | cons i place ih =>
    rw [at?_cons]
    intro h
    obtain ⟨item, hitem, hplace⟩ := Option.bind_eq_some_iff.1 h
    obtain ⟨inner, rfl⟩ := exists_eq_ofJson_of_mem_items (List.mem_of_getElem? hitem)
    exact ih inner hplace

theorem ofJson_beq_self (json : Json ν) : (ofJson json == ofJson json) = true :=
  beq_self_iff.2 (at?_ofJson_ne_nan hnan json)

theorem toValue_beq_self (found : Json.Found ν) : (found.toValue == found.toValue) = true := by
  cases found with
  | value json => exact ofJson_beq_self hnan json
  | count n => exact beq_self_of_items_eq_nil rfl nofun

end NoNaN

end Value

theorem StoredNumber.double?_ne_nan (n : StoredNumber) : JsonNumber.double? n ≠ some .nan := by
  have hint (i : ℤ) : some (Double.ofInt i) ≠ some .nan := by
    rw [ne_eq, Option.some_inj]
    exact Double.ofRatio_ne_nan _ _ _
  cases n with
  | natural n => exact hint n.toNat
  | negative n hneg => exact hint n.toInt
  | double x hfinite =>
    intro h
    obtain rfl := Option.some.inj h
    cases hfinite

/-! ## Operands -/

theorem Operand.literal?_beq_self {text : List Char} {value : Value}
    (h : literal? text = some value) : (value == value) = true := by
  unfold literal? at h
  split at h
  · cases h
    exact Value.beq_self_of_items_eq_nil rfl nofun
  · split at h
    · cases h
      exact Value.beq_self_of_items_eq_nil rfl nofun
    · obtain ⟨x, hx, rfl⟩ := Option.map_eq_some_iff.1 h
      obtain ⟨negative, magnitude, -, hnearest⟩ := double?_eq_some_iff.1 hx
      refine Value.beq_self_of_items_eq_nil rfl ?_
      rw [ne_eq, Value.float.injEq]
      exact hnearest.ne_nan

theorem Context.lookup?_beq_self (hnan : ∀ n : ν, JsonNumber.double? n ≠ some .nan)
    {json : Json ν} {context : Context} (hcontext : ofJson? json = some context) (path : String) :
    (Value.ofOption (context.lookup? path) == .ofOption (context.lookup? path)) = true := by
  rw [lookup?_of_ofJson? hcontext]
  cases hfollow : (Value.ofJson json).follow? (Path.names path) with
  | none => rfl
  | some value =>
    -- What is found is again a value of the JSON, or a count.
    obtain ⟨found, -, rfl⟩ := (@Value.follow?_toValue_eq_some_iff ν _ (.value json) _ _).1 hfollow
    exact Value.toValue_beq_self hnan found

/-- What an operand stands for equals itself, null standing for nothing. -/
theorem Operand.resolve_beq_self (hnan : ∀ n : ν, JsonNumber.double? n ≠ some .nan)
    {json : Json ν} {context : Context} {token : String} {operand : Operand}
    (hcontext : Context.ofJson? json = some context)
    {origin : Option Origin} (hread : read token origin = .ok operand) :
    (Value.ofOption (operand.resolve context) == .ofOption (operand.resolve context)) = true := by
  cases operand with
  | path p => exact Context.lookup?_beq_self hnan hcontext p
  | literal value => exact literal?_beq_self (literal?_of_read_eq_literal hread)

namespace Condition

/-- Equality of values is symmetric, and a value equals itself if and only if NaN is nowhere in it.
In a context made from JSON whose reader has no NaN, `==` is true of every operand and itself, and
`!=` is false, whether the operand has a value or not. -/
theorem equality_symm_and_self :
    (∀ a b : Value, (a == b) = (b == a)) ∧
    (∀ a : Value, (a == a) = true ↔ ¬ ∃ place, a.at? place = some (.float .nan)) ∧
    ∀ (ν : Type) [JsonNumber ν], (∀ n : ν, JsonNumber.double? n ≠ some .nan) →
      ∀ (json : Json ν) context token origin, Context.ofJson? json = some context →
      Grammar.IsOperand token →
      ∃ same other,
        read [token, "==", token] origin = .ok same ∧ same.eval context = .ok true ∧
        read [token, "!=", token] origin = .ok other ∧ other.eval context = .ok false := by
  refine ⟨Value.beq_comm, fun a => ?_, fun ν _ hnan json context token origin hcontext htoken => ?_⟩
  · rw [not_exists]
    exact Value.beq_self_iff
  · obtain ⟨operand, hstands⟩ := Grammar.exists_stands.2 htoken
    have hself := Operand.resolve_beq_self hnan hcontext (hstands.2 origin)
    refine ⟨_, _, read_compare .equal hstands hstands, ?_,
      read_compare .notEqual hstands hstands, ?_⟩
    · rw [eval, Comparison.holds?, hself]
    · rw [eval, Comparison.holds?, bne, hself]
      rfl

theorem equality_symm_and_self_inside_array :
    let half : StoredNumber := .double (.ofRatio true Double.one 2) (by decide +kernel)
    let json : Json StoredNumber := .object [("a", .array [.null, .number half])]
    ∃ context same other, (∀ n : StoredNumber, JsonNumber.double? n ≠ some .nan) ∧
      Context.ofJson? json = some context ∧ Grammar.IsOperand "a" ∧
        read ["a", "==", "a"] none = .ok same ∧ same.eval context = .ok true ∧
        read ["a", "!=", "a"] none = .ok other ∧ other.eval context = .ok false := by
  intro half json
  have htoken : Grammar.IsOperand "a" := ⟨by decide, _, fun _ => rfl⟩
  obtain ⟨same, other, h⟩ :=
    equality_symm_and_self.2.2 StoredNumber StoredNumber.double?_ne_nan json _ "a" none rfl htoken
  exact ⟨_, same, other, StoredNumber.double?_ne_nan, rfl, htoken, h⟩

end Condition

end Interpolation
