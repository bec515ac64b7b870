import Interpolation.Render

/-!
# Outcomes of renderings

The outcome of a rendering without its events is a text or the first failure.  Outcomes are joined
one after another (`joined`, `joinAll`), and the combinators of renderings act on them alone.
-/

namespace Interpolation

/-- The text of a rendering, or its failure. -/
abbrev Outcome := Except RenderError String

namespace Outcome

/-- The first outcome and, if it is a text, the second after it. -/
def joined (first second : Outcome) : Outcome :=
  match first with
  | .error error => .error error
  | .ok text => second.map (text ++ ·)

/-- One outcome after another, up to the first failure. -/
def joinAll (outcomes : List Outcome) : Outcome := outcomes.foldr joined (.ok "")

/-- The outcome, with a failure placed at an origin unless it has a place already. -/
def orAt (origin : Option Origin) (outcome : Outcome) : Outcome :=
  outcome.mapError fun error => error.orAt origin

@[simp] theorem joined_empty (outcome : Outcome) : joined outcome (.ok "") = outcome := by
  cases outcome with
  | error error => rfl
  | ok text => simp [joined, Except.map]

@[simp] theorem empty_joined (outcome : Outcome) : joined (.ok "") outcome = outcome := by
  cases outcome with
  | error error => rfl
  | ok text => simp [joined, Except.map]

theorem joined_assoc (first second third : Outcome) :
    joined (joined first second) third = joined first (joined second third) := by
  rcases first with _ | _
  · rfl
  rcases second with _ | _
  · rfl
  rcases third with _ | _
  · rfl
  exact congrArg Except.ok String.append_assoc

@[simp] theorem joinAll_nil : joinAll [] = .ok "" := rfl

@[simp] theorem joinAll_cons (outcome : Outcome) (outcomes : List Outcome) :
    joinAll (outcome :: outcomes) = joined outcome (joinAll outcomes) := rfl

theorem joinAll_append (outcomes others : List Outcome) :
    joinAll (outcomes ++ others) = joined (joinAll outcomes) (joinAll others) := by
  induction outcomes with
  | nil => simp
  | cons outcome outcomes ih => rw [List.cons_append, joinAll_cons, ih, joinAll_cons, joined_assoc]

theorem joinAll_flatMap {α : Type} (f : α → List Outcome) (l : List α) :
    joinAll (l.flatMap f) = joinAll (l.map fun a => joinAll (f a)) := by
  induction l with
  | nil => rfl
  | cons a l ih => rw [List.flatMap_cons, joinAll_append, ih, List.map_cons, joinAll_cons]

theorem orAt_error (origin : Option Origin) (error : RenderError) :
    orAt origin (.error error) = .error (error.orAt origin) := rfl

theorem orAt_joined (origin : Option Origin) (first second : Outcome) :
    orAt origin (joined first second) = joined (orAt origin first) (orAt origin second) := by
  rcases first with _ | _
  · rfl
  · rcases second with _ | _ <;> rfl

theorem orAt_joinAll (origin : Option Origin) (outcomes : List Outcome) :
    orAt origin (joinAll outcomes) = joinAll (outcomes.map (orAt origin)) := by
  induction outcomes with
  | nil => rfl
  | cons outcome outcomes ih => rw [joinAll_cons, orAt_joined, ih, List.map_cons, joinAll_cons]

theorem orAt_orAt (inner outer : Option Origin) (outcome : Outcome) :
    orAt outer (orAt inner outcome) = orAt (inner.or outer) outcome := by
  cases outcome with
  | error error =>
    rw [orAt_error, orAt_error, orAt_error]
    simp [Failure.orAt, Option.or_assoc]
  | ok text => rfl

@[simp] theorem orAt_none (outcome : Outcome) : orAt none outcome = outcome := by
  cases outcome with
  | error error =>
    rw [orAt_error]
    simp [Failure.orAt]
  | ok text => rfl

/-! ## Success and first failure -/

theorem joinAll_map_ok (texts : List String) :
    joinAll (texts.map Except.ok) = .ok (String.join texts) := by
  induction texts with
  | nil => rfl
  | cons text texts ih =>
    rw [List.map_cons, joinAll_cons, ih, String.join_cons]
    rfl

theorem joinAll_of_failure {before after : List Outcome} {error : RenderError}
    (hbefore : ∀ outcome ∈ before, ∃ text, outcome = .ok text) :
    joinAll (before ++ .error error :: after) = .error error := by
  induction before with
  | nil => rfl
  | cons outcome before ih =>
    obtain ⟨text, rfl⟩ := hbefore outcome List.mem_cons_self
    have hrest := ih fun outcome h => hbefore outcome (List.mem_cons_of_mem _ h)
    rw [List.cons_append, joinAll_cons, hrest]
    rfl

theorem joinAll_eq_ok_iff {outcomes : List Outcome} :
    (∃ text, joinAll outcomes = .ok text) ↔ ∀ outcome ∈ outcomes, ∃ text, outcome = .ok text := by
  induction outcomes with
  | nil => simp
  | cons outcome outcomes ih =>
    rw [List.forall_mem_cons, ← ih, joinAll_cons]
    rcases outcome with _ | _
    · simp [joined]
    · rcases joinAll outcomes with _ | _ <;> simp [joined, Except.map]

end Outcome

namespace Rendering

open Outcome

/-! ## Combinators -/

theorem result_append (first second : Rendering) :
    (first.append second).result = joined first.result second.result := by
  unfold append joined
  cases first.result <;> rfl

@[simp] theorem result_after (events : List Event) (rendering : Rendering) :
    (after events rendering).result = rendering.result := rfl

theorem result_report (index : Nat) (origin : Option Origin) (rendering : Rendering) :
    (report index origin rendering).result = orAt origin rendering.result := by
  unfold report
  cases rendering.result <;> rfl

end Rendering

end Interpolation
