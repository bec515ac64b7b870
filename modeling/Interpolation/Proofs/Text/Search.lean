import Interpolation.Text.Search

/-!
# The first pair of a character

A text is split at its first two of a character in a row.  They come first just if there is no such
pair before them, also none that the first of them is the second part of.
-/

namespace Interpolation

variable {c : Char}

theorem splitAtPair_pair (text : List Char) : splitAtPair c (c :: c :: text) = some ([], text) := by
  rw [splitAtPair, if_pos ⟨rfl, rfl⟩]

theorem splitAtPair_cons {a : Char} {text : List Char} (h : ¬ [c, c] <+: a :: text) :
    splitAtPair c (a :: text) =
      (splitAtPair c text).map fun (before, after) => (a :: before, after) := by
  cases text with
  | nil => rfl
  | cons b text =>
    have hab : ¬ (a = c ∧ b = c) := by
      rintro ⟨rfl, rfl⟩
      exact h ⟨text, rfl⟩
    rw [splitAtPair, if_neg hab]

theorem splitAtPair_eq_none {text : List Char} (h : ¬ [c, c] <:+: text) :
    splitAtPair c text = none := by
  induction text with
  | nil => rfl
  | cons a text ih =>
    rw [List.infix_cons_iff, not_or] at h
    rw [splitAtPair_cons h.1, ih h.2, Option.map_none]

theorem splitAtPair_of_first {before : List Char} (h : ¬ [c, c] <:+: before ++ [c])
    (after : List Char) : splitAtPair c (before ++ c :: c :: after) = some (before, after) := by
  induction before with
  | nil => exact splitAtPair_pair after
  | cons a before ih =>
    rw [List.cons_append, List.infix_cons_iff, not_or] at h
    have hstart : ¬ [c, c] <+: a :: (before ++ c :: c :: after) := by
      intro hpair
      refine h.1 (List.prefix_of_prefix_length_le hpair ⟨c :: after, by simp⟩ ?_)
      simp
    rw [List.cons_append, splitAtPair_cons hstart, ih h.2, Option.map_some]

/-- The place where a text is split is the first one. -/
theorem splitAtPair_eq_some_iff {text before after : List Char} :
    splitAtPair c text = some (before, after) ↔
      text = before ++ c :: c :: after ∧ ¬ [c, c] <:+: before ++ [c] := by
  constructor
  · intro h
    refine ⟨eq_of_splitAtPair h, ?_⟩
    induction text generalizing before with
    | nil => cases h
    | cons a text ih =>
      by_cases hpair : [c, c] <+: a :: text
      · obtain ⟨rest, rfl, rfl⟩ : ∃ rest, a = c ∧ text = c :: rest := by
          obtain ⟨rest, hrest⟩ := hpair
          exact ⟨rest, by cases hrest; exact ⟨rfl, rfl⟩⟩
        rw [splitAtPair_pair] at h
        cases h
        simp [List.infix_cons_iff]
      · rw [splitAtPair_cons hpair] at h
        obtain ⟨⟨inner, rest⟩, htext, hpieces⟩ := Option.map_eq_some_iff.1 h
        cases hpieces
        rw [List.cons_append, List.infix_cons_iff, not_or]
        refine ⟨fun hstart => hpair (hstart.trans ?_), ih htext⟩
        rw [eq_of_splitAtPair htext]
        exact ⟨c :: after, by simp⟩
  · rintro ⟨rfl, h⟩
    exact splitAtPair_of_first h after

theorem splitAtPair_eq_none_iff {text : List Char} :
    splitAtPair c text = none ↔ ¬ [c, c] <:+: text := by
  refine ⟨?_, splitAtPair_eq_none⟩
  rintro h ⟨before, after, rfl⟩
  induction before with
  | nil => rw [List.nil_append, List.cons_append, List.cons_append, splitAtPair_pair] at h; cases h
  | cons a before ih =>
    by_cases hpair : [c, c] <+: a :: (before ++ [c, c] ++ after)
    · obtain ⟨rest, hrest⟩ := hpair
      rw [List.cons_append, List.cons_append, ← hrest] at h
      cases (splitAtPair_pair rest).symm.trans h
    · rw [List.cons_append, List.cons_append, splitAtPair_cons hpair, Option.map_eq_none_iff] at h
      exact ih h

end Interpolation
