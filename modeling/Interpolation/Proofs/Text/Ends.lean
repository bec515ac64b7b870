import Interpolation.Text.Ends
import Mathlib.Data.List.DropRight

/-!
# Texts without white space around them

What is left of a text when the white space at both of its ends is taken off does not begin or end
with white space, and there is only one such rest.
-/

namespace Interpolation

/-! ## The end of a list -/

section

variable {α : Type} {p : α → Bool} {l : List α}

theorem mem_head?_of_dropEndWhile {a : α} (h : a ∈ (dropEndWhile p l).head?) : a ∈ l.head? := by
  cases l with
  | nil => exact h
  | cons b l =>
    rw [dropEndWhile_cons] at h
    split at h
    · cases h
    · exact h

theorem dropEndWhile_eq_rdropWhile (p : α → Bool) (l : List α) :
    dropEndWhile p l = l.rdropWhile p := by
  induction l using List.reverseRecOn with
  | nil => rfl
  | append_singleton l a ih => rw [dropEndWhile_concat, List.rdropWhile_concat, ih]

theorem getLast?_dropEndWhile (p : α → Bool) (l : List α) :
    ∀ a ∈ (dropEndWhile p l).getLast?, p a = false := by
  intro a ha
  rw [dropEndWhile_eq_rdropWhile, List.rdropWhile, List.getLast?_reverse] at ha
  have hhead := List.head?_dropWhile_not p l.reverse
  rw [ha] at hhead
  exact hhead

theorem dropEndWhile_eq_nil (h : ∀ a ∈ l, p a = true) : dropEndWhile p l = [] := by
  rw [dropEndWhile_eq_rdropWhile, List.rdropWhile_eq_nil_iff]
  exact h

end

/-! ## White space -/

/-- A text with all white space at its two ends taken off. -/
structure IsTrimmed (raw text : List Char) : Prop where
  exists_eq : ∃ before after, raw = before ++ (text ++ after) ∧
    ∀ c ∈ before ++ after, isSpace c = true
  head?_isSpace : ∀ c ∈ text.head?, isSpace c = false
  getLast?_isSpace : ∀ c ∈ text.getLast?, isSpace c = false

theorem isSpace_of_isDigit {c : Char} (h : c.isDigit = true) : isSpace c = false := by
  rw [Char.isDigit, Bool.and_eq_true, decide_eq_true_eq, decide_eq_true_eq] at h
  have hlow : 48 ≤ c.toNat := UInt32.le_iff_toNat_le.1 h.1
  have hhigh : c.toNat ≤ 57 := UInt32.le_iff_toNat_le.1 h.2
  rw [isSpace]
  generalize c.toNat = n at hlow hhigh
  simp only [Bool.or_eq_false_iff, Bool.and_eq_false_iff, decide_eq_false_iff_not,
    beq_eq_false_iff_ne]
  omega

theorem isTrimmed_trimSpace (raw : List Char) : IsTrimmed raw (trimSpace raw) := by
  obtain ⟨after, hafter, hspace⟩ := exists_eq_dropEndWhile_append isSpace (raw.dropWhile isSpace)
  refine ⟨⟨raw.takeWhile isSpace, after, ?_, ?_⟩, fun c hc => ?_, getLast?_dropEndWhile _ _⟩
  · rw [trimSpace, ← hafter, List.takeWhile_append_dropWhile]
  · exact List.forall_mem_append.2 ⟨List.all_eq_true.1 List.all_takeWhile, hspace⟩
  · have hhead := List.head?_dropWhile_not isSpace raw
    rw [mem_head?_of_dropEndWhile hc] at hhead
    exact hhead

/-- There is only one way to take off all white space. -/
theorem IsTrimmed.eq_trimSpace {raw text : List Char} (h : IsTrimmed raw text) :
    text = trimSpace raw := by
  obtain ⟨⟨before, after, rfl, hspace⟩, hhead, hlast⟩ := h
  obtain ⟨hbefore, hafter⟩ := List.forall_mem_append.1 hspace
  rcases List.eq_nil_or_concat text with rfl | ⟨start, last, rfl⟩
  · have hnone : ∀ c ∈ ([] : List Char).head?, isSpace c = false := nofun
    have hdropped := dropWhile_append_of_head hspace hnone
    rw [List.append_nil] at hdropped
    rw [List.nil_append, trimSpace, hdropped, dropEndWhile_nil]
  · have hstart : ∀ c ∈ (start.concat last ++ after).head?, isSpace c = false := by
      rw [List.concat_eq_append] at hhead ⊢
      cases start with
      | nil => exact hhead
      | cons c start => exact hhead
    have hend : isSpace last = false := hlast last (by simp)
    rw [trimSpace, dropWhile_append_of_head hbefore hstart, List.concat_eq_append,
      List.append_assoc, List.singleton_append, dropEndWhile_append_cons hend,
      dropEndWhile_eq_nil hafter]

theorem trimSpace_eq_self {text : List Char} (h : ∀ c ∈ text, isSpace c = false) :
    trimSpace text = text := by
  have htrimmed : IsTrimmed text text :=
    ⟨⟨[], [], (List.append_nil text).symm, nofun⟩, fun c hc => h c (List.mem_of_mem_head? hc),
      fun c hc => h c (List.mem_of_mem_getLast? hc)⟩
  exact htrimmed.eq_trimSpace.symm

end Interpolation
