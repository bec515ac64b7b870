import Interpolation.Proofs.Text.Numeral
import Interpolation.Value.Equality
import Interpolation.Value.Member

/-!
# What a value holds and what its members are

A list holds a value if the item at some index equals it, and a map holds a text if it has a member
of this name.  No other value but a text holds anything.
-/

namespace Interpolation.Value

/-! ## Members of a list -/

section List

variable {items : List Value} {name : String}

theorem member?_list_first (items : List Value) : (list items).member? "first" = items[0]? := by
  rw [member?, if_pos rfl, List.head?_eq_getElem?]

theorem member?_list_last (items : List Value) :
    (list items).member? "last" = items[items.length - 1]? := by
  rw [member?, if_neg (by decide), if_pos rfl, List.getLast?_eq_getElem?]

theorem member?_list_count (items : List Value) :
    (list items).member? "count" = some (.int items.length) := by
  rw [member?, if_neg (by decide), if_neg (by decide), if_pos rfl]

theorem member?_list_of_ne_word (h : ∀ word ∈ ["first", "last", "count"], name ≠ word) :
    (list items).member? name = (Numeral.natural? name.toList).bind fun index => items[index]? := by
  simp only [List.forall_mem_cons] at h
  obtain ⟨hfirst, hlast, hcount, -⟩ := h
  rw [member?, if_neg hfirst, if_neg hlast, if_neg hcount]

theorem not_isDigits_of_mem_words {word : String} (h : word ∈ ["first", "last", "count"])
    (n : Nat) : ¬ Numeral.IsDigits word.toList n := by
  have hnone : ∀ word ∈ ["first", "last", "count"], Numeral.digits? word.toList = none := by decide
  rw [← Numeral.digits?_eq_some_iff, hnone word h]
  exact nofun

/-- A numeral that is too long to be read is beyond the end of the list. -/
theorem member?_list_of_isDigits {i : Nat} (h : Numeral.IsDigits name.toList i)
    (hsize : items.length ≤ UInt64.size) : (list items).member? name = items[i]? := by
  have hne : ∀ word ∈ ["first", "last", "count"], name ≠ word := by
    rintro word hword rfl
    exact not_isDigits_of_mem_words hword i h
  rw [member?_list_of_ne_word hne, h.natural?_eq]
  split
  · rfl
  · next hge =>
    rw [Option.bind_none, List.getElem?_eq_none (Nat.le_trans hsize (Nat.not_lt.1 hge))]

end List

/-! ## Holding -/

theorem holds_list_iff {items : List Value} {item : Value} :
    (list items).holds item = true ↔
      ∃ i < items.length, ∃ other ∈ items[i]?, (other == item) = true := by
  rw [holds, List.any_eq_true]
  constructor
  · rintro ⟨other, hother, hequal⟩
    obtain ⟨i, hi, rfl⟩ := List.mem_iff_getElem.1 hother
    exact ⟨i, hi, items[i], List.getElem?_eq_getElem hi, hequal⟩
  · rintro ⟨i, -, other, hother, hequal⟩
    exact ⟨other, List.mem_of_getElem? hother, hequal⟩

theorem holds_map_text (entries : List (String × Value)) (key : String) :
    (map entries).holds (.text key) = ((map entries).member? key).isSome := by
  rw [holds, member?]
  induction entries with
  | nil => rfl
  | cons entry entries ih =>
    obtain ⟨k, value⟩ := entry
    rw [List.any_cons, ih, Entries.lookup_cons]
    by_cases h : key = k
    · simp [h]
    · simp [h, Ne.symm h]

/-- Values that may hold others. -/
inductive IsContainer : Value → Prop
  | text (s : String) : IsContainer (.text s)
  | list (items : List Value) : IsContainer (.list items)
  | map (entries : List (String × Value)) : IsContainer (.map entries)

theorem holds_of_not_isContainer {container : Value} (h : ¬ IsContainer container) (item : Value) :
    container.holds item = false := by
  cases container with
  | text s => exact absurd (.text s) h
  | list items => exact absurd (.list items) h
  | map entries => exact absurd (.map entries) h
  | null | bool | int | float | described | handle => rfl

end Interpolation.Value
