import Interpolation.Proofs.Condition.Reading

/-!
# Joined conditions

Tokens that are read can be joined by `or`, and by `and` or behind `not` if nothing looser stands in
them.  The chain that is read leans to the left, so it is not built from the two conditions but
from the links of both (`disjoin`, `conjoin`); it still holds when the two joined would.
-/

namespace Interpolation.Condition

variable {left right : Condition} {ltokens rtokens : List String}

/-! ## Evaluation of joins -/

theorem eval_or (left right : Condition) (context : Context) :
    (Condition.or left right).eval context =
      match left.eval context with
      | .error fault => .error fault
      | .ok true => .ok true
      | .ok false => right.eval context := by
  rw [eval]
  rcases left.eval context with _ | _ | _ <;> rfl

theorem eval_and (left right : Condition) (context : Context) :
    (Condition.and left right).eval context =
      match left.eval context with
      | .error fault => .error fault
      | .ok true => right.eval context
      | .ok false => .ok false := by
  rw [eval]
  rcases left.eval context with _ | _ | _ <;> rfl

theorem eval_not (condition : Condition) (context : Context) :
    (Condition.not condition).eval context =
      match condition.eval context with
      | .error fault => .error fault
      | .ok holds => .ok !holds := by
  rw [eval]
  cases condition.eval context <;> rfl

theorem eval_or_assoc (first second third : Condition) (context : Context) :
    (Condition.or (.or first second) third).eval context =
      (Condition.or first (.or second third)).eval context := by
  simp only [eval_or]
  rcases first.eval context with _ | _ | _ <;> rfl

theorem eval_and_assoc (first second third : Condition) (context : Context) :
    (Condition.and (.and first second) third).eval context =
      (Condition.and first (.and second third)).eval context := by
  simp only [eval_and]
  rcases first.eval context with _ | _ | _ <;> rfl

/-! ## Chains that lean to the left -/

/-- A disjunction with the links of a second one after its own. -/
def disjoin (left : Condition) : Condition → Condition
  | .or first last => .or (disjoin left first) last
  | right => .or left right

/-- A conjunction with the links of a second one after its own. -/
def conjoin (left : Condition) : Condition → Condition
  | .and first last => .and (conjoin left first) last
  | right => .and left right

theorem eval_disjoin (left right : Condition) (context : Context) :
    (left.disjoin right).eval context = (Condition.or left right).eval context := by
  induction right with
  | or first last ih _ => rw [disjoin, eval_or, ih, ← eval_or, eval_or_assoc]
  | _ => rfl

theorem eval_conjoin (left right : Condition) (context : Context) :
    (left.conjoin right).eval context = (Condition.and left right).eval context := by
  induction right with
  | and first last ih _ => rw [conjoin, eval_and, ih, ← eval_and, eval_and_assoc]
  | _ => rfl

theorem disjoin_of_hasOr_eq_false (left : Condition) {right : Condition}
    (h : right.hasOr = false) : left.disjoin right = .or left right := by
  cases right with
  | or _ _ => simp [hasOr] at h
  | _ => rfl

theorem conjoin_of_hasAnd_eq_false (left : Condition) {right : Condition}
    (h : right.hasAnd = false) : left.conjoin right = .and left right := by
  cases right with
  | and _ _ => simp [hasAnd] at h
  | _ => rfl

theorem IsSentence.disjoin (hl : IsSentence left ltokens) (hr : IsSentence right rtokens) :
    IsSentence (left.disjoin right) (ltokens ++ "or" :: rtokens) := by
  induction hr with
  | phrase hr =>
    rw [disjoin_of_hasOr_eq_false left hr.hasOr_eq_false]
    exact .or hl hr
  | @or first last ftokens tokens _ hlast ih =>
    have hjoined := ih.or hlast
    rwa [List.append_assoc, List.cons_append] at hjoined

theorem IsPhrase.conjoin (hl : IsPhrase left ltokens) (hr : IsPhrase right rtokens) :
    IsPhrase (left.conjoin right) (ltokens ++ "and" :: rtokens) := by
  induction hr with
  | term hr =>
    rw [conjoin_of_hasAnd_eq_false left hr.isTight.1]
    exact .and hl hr
  | @and first last ftokens tokens _ hlast ih =>
    have hjoined := ih.and hlast
    rwa [List.append_assoc, List.cons_append] at hjoined

/-! ## Sentences without a word -/

theorem IsSentence.isPhrase (h : IsSentence left ltokens) (hor : "or" ∉ ltokens) :
    IsPhrase left ltokens := by
  cases h with
  | phrase h => exact h
  | or _ _ => exact absurd (by simp) hor

theorem IsPhrase.isTerm (h : IsPhrase left ltokens) (hand : "and" ∉ ltokens) :
    IsTerm left ltokens := by
  cases h with
  | term h => exact h
  | and _ _ => exact absurd (by simp) hand

/-- Joined tokens are read, and what is read holds as the join of the two parts does: the second
part counts only if the first does not decide, and a fault of the first decides. -/
theorem read_joined (ltokens rtokens : List String) (left right : Condition)
    (origin : Option Origin) (hl : read ltokens origin = .ok left)
    (hr : read rtokens origin = .ok right) :
    (∃ condition, read (ltokens ++ ["or"] ++ rtokens) origin = .ok condition ∧
      ∀ context, condition.eval context =
        match left.eval context with
        | .error fault => .error fault
        | .ok true => .ok true
        | .ok false => right.eval context) ∧
    ("or" ∉ ltokens → "or" ∉ rtokens →
      ∃ condition, read (ltokens ++ ["and"] ++ rtokens) origin = .ok condition ∧
        ∀ context, condition.eval context =
          match left.eval context with
          | .error fault => .error fault
          | .ok true => right.eval context
          | .ok false => .ok false) ∧
    ("or" ∉ ltokens → "and" ∉ ltokens →
      ∃ condition, read (["not"] ++ ltokens) origin = .ok condition ∧
        ∀ context, condition.eval context =
          match left.eval context with
          | .error fault => .error fault
          | .ok holds => .ok !holds) := by
  have hleft := isSentence_of_read hl
  have hright := isSentence_of_read hr
  refine ⟨?_, fun hlor hror => ?_, fun hor hand => ?_⟩
  · refine ⟨left.disjoin right, ?_, fun context => ?_⟩
    · simpa using read_of_isSentence (hleft.disjoin hright)
    · rw [eval_disjoin, eval_or]
  · have hjoined := (hleft.isPhrase hlor).conjoin (hright.isPhrase hror)
    refine ⟨left.conjoin right, ?_, fun context => ?_⟩
    · simpa using read_of_isSentence (.phrase hjoined)
    · rw [eval_conjoin, eval_and]
  · have hterm := (hleft.isPhrase hor).isTerm hand
    exact ⟨.not left, read_of_isSentence (.phrase (.term hterm.not)), eval_not left⟩

theorem read_joined_behind_not :
    (∃ condition, read ["not", "x", "or", "y", "<", "1", "and", "z"] none = .ok condition ∧
      ∀ context, condition.eval context =
        match (Condition.not (.truthy (.path "x"))).eval context with
        | .error fault => .error fault
        | .ok true => .ok true
        | .ok false =>
          (Condition.and (.compare .less (.path "y") (.literal (.int 1)))
            (.truthy (.path "z"))).eval context) ∧
    (∃ condition, read ["not", "x", "and", "y", "<", "1", "and", "z"] none = .ok condition ∧
      ∀ context, condition.eval context =
        match (Condition.not (.truthy (.path "x"))).eval context with
        | .error fault => .error fault
        | .ok true =>
          (Condition.and (.compare .less (.path "y") (.literal (.int 1)))
            (.truthy (.path "z"))).eval context
        | .ok false => .ok false) ∧
    ∃ condition, read ["not", "not", "x"] none = .ok condition ∧
      ∀ context, condition.eval context =
        match (Condition.not (.truthy (.path "x"))).eval context with
        | .error fault => .error fault
        | .ok holds => .ok !holds := by
  obtain ⟨hor, hand, hnot⟩ :=
    read_joined ["not", "x"] ["y", "<", "1", "and", "z"] _ _ none rfl rfl
  exact ⟨hor, hand (by decide) (by decide), hnot (by decide) (by decide)⟩

end Interpolation.Condition
