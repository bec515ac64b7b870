import Interpolation.Text.Space

/-!
# The two ends of a text

A run at the start of a list and the rest are told apart by what the rest begins with.
`dropEndWhile` is `List.dropWhile` for the other end of a list.  `trimSpace` takes white space off
both ends.
-/

namespace Interpolation

section Run

variable {α : Type} {p : α → Bool} {run rest run' rest' : List α}

theorem takeWhile_append_of_head (hrun : ∀ a ∈ run, p a = true)
    (hrest : ∀ a ∈ rest.head?, p a = false) : (run ++ rest).takeWhile p = run := by
  rw [List.takeWhile_append_of_pos hrun]
  cases rest with
  | nil => rw [List.takeWhile_nil, List.append_nil]
  | cons a rest => rw [List.takeWhile_cons, hrest a rfl]; exact List.append_nil run

theorem dropWhile_append_of_head (hrun : ∀ a ∈ run, p a = true)
    (hrest : ∀ a ∈ rest.head?, p a = false) : (run ++ rest).dropWhile p = rest := by
  rw [List.dropWhile_append_of_pos hrun]
  cases rest with
  | nil => rfl
  | cons a rest => rw [List.dropWhile_cons, hrest a rfl]; rfl

theorem append_inj_of_head (hrun : ∀ a ∈ run, p a = true) (hrun' : ∀ a ∈ run', p a = true)
    (hrest : ∀ a ∈ rest.head?, p a = false) (hrest' : ∀ a ∈ rest'.head?, p a = false)
    (h : run ++ rest = run' ++ rest') : run = run' ∧ rest = rest' := by
  have htake := congrArg (List.takeWhile p) h
  have hdrop := congrArg (List.dropWhile p) h
  rw [takeWhile_append_of_head hrun hrest, takeWhile_append_of_head hrun' hrest'] at htake
  rw [dropWhile_append_of_head hrun hrest, dropWhile_append_of_head hrun' hrest'] at hdrop
  exact ⟨htake, hdrop⟩

end Run

/-- The list without its longest suffix of members that satisfy `p`. -/
def dropEndWhile {α : Type} (p : α → Bool) (l : List α) : List α :=
  l.foldr (fun a rest => if rest.isEmpty && p a then [] else a :: rest) []

@[simp] theorem dropEndWhile_nil {α : Type} (p : α → Bool) : dropEndWhile p [] = [] := rfl

theorem dropEndWhile_cons {α : Type} (p : α → Bool) (a : α) (l : List α) :
    dropEndWhile p (a :: l) =
      if (dropEndWhile p l).isEmpty && p a then [] else a :: dropEndWhile p l := rfl

theorem dropEndWhile_concat {α : Type} (p : α → Bool) (l : List α) (a : α) :
    dropEndWhile p (l ++ [a]) = if p a then dropEndWhile p l else l ++ [a] := by
  induction l with
  | nil => simp [dropEndWhile_cons]
  | cons b l ih =>
    rw [List.cons_append, dropEndWhile_cons, ih, dropEndWhile_cons]
    by_cases h : p a <;> simp [h]

theorem dropEndWhile_append_cons {α : Type} {p : α → Bool} {a : α} (h : p a = false)
    (l rest : List α) : dropEndWhile p (l ++ a :: rest) = l ++ a :: dropEndWhile p rest := by
  induction l with
  | nil => simp [dropEndWhile_cons, h]
  | cons b l ih => rw [List.cons_append, dropEndWhile_cons, ih]; simp

/-- What is dropped satisfies `p`. -/
theorem exists_eq_dropEndWhile_append {α : Type} (p : α → Bool) (l : List α) :
    ∃ dropped, l = dropEndWhile p l ++ dropped ∧ ∀ a ∈ dropped, p a = true := by
  induction l with
  | nil => exact ⟨[], rfl, by simp⟩
  | cons a l ih =>
    obtain ⟨dropped, hl, hdropped⟩ := ih
    rw [dropEndWhile_cons]
    split
    · next h =>
      rw [Bool.and_eq_true, List.isEmpty_iff] at h
      rw [h.1, List.nil_append] at hl
      subst hl
      exact ⟨a :: l, rfl, List.forall_mem_cons.2 ⟨h.2, hdropped⟩⟩
    · exact ⟨dropped, congrArg (a :: ·) hl, hdropped⟩

/-- The text without the white space at its two ends. -/
def trimSpace (text : List Char) : List Char := dropEndWhile isSpace (text.dropWhile isSpace)

end Interpolation
