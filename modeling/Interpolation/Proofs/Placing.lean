import Interpolation.Condition.Reader

/-!
# Readers at an origin

A reader is told where its text comes from, to place its failures there.  Nothing else may depend on
the origin (`IsPlaced`).  This holds of each step of the readers of operands and conditions, and so
of what they do one step after another.
-/

namespace Interpolation

/-- The outcome is the same at every origin, but for a failure, which stands at the origin. -/
def IsPlaced {φ α : Type} (reader : Option Origin → Except (Failure φ) α) : Prop :=
  ∃ result : Except φ α, ∀ origin, reader origin = Failure.place origin result

namespace IsPlaced

variable {φ α β : Type} {reader : Option Origin → Except (Failure φ) α} {origin : Option Origin}

theorem ok (a : α) : IsPlaced fun _ => (.ok a : Except (Failure φ) α) := ⟨.ok a, fun _ => rfl⟩

theorem error (fault : φ) :
    IsPlaced fun origin => (.error ⟨fault, origin⟩ : Except (Failure φ) α) :=
  ⟨.error fault, fun _ => rfl⟩

theorem bind {next : Option Origin → α → Except (Failure φ) β} (h : IsPlaced reader)
    (hnext : ∀ a, IsPlaced fun origin => next origin a) :
    IsPlaced fun origin => reader origin >>= next origin := by
  obtain ⟨result, hresult⟩ := h
  cases result with
  | error fault =>
    refine ⟨.error fault, fun origin => ?_⟩
    dsimp only
    rw [hresult]
    rfl
  | ok a =>
    obtain ⟨result, hnext⟩ := hnext a
    refine ⟨result, fun origin => ?_⟩
    dsimp only
    rw [hresult, ← hnext]
    rfl

theorem map (h : IsPlaced reader) (f : α → β) : IsPlaced fun origin => (reader origin).map f := by
  obtain ⟨result, hresult⟩ := h
  refine ⟨result.map f, fun origin => ?_⟩
  dsimp only
  rw [hresult]
  cases result <;> rfl

theorem foldlM {step : Option Origin → β → α → Except (Failure φ) β}
    (h : ∀ b a, IsPlaced fun origin => step origin b a) (l : List α) (b : β) :
    IsPlaced fun origin => l.foldlM (step origin) b := by
  induction l generalizing b with
  | nil => exact ok b
  | cons a l ih =>
    simp only [List.foldlM_cons]
    exact (h b a).bind ih

theorem eq_ok (h : IsPlaced reader) {a : α} (hok : reader origin = .ok a)
    (other : Option Origin) : reader other = .ok a := by
  obtain ⟨result, hresult⟩ := h
  rw [hresult] at hok ⊢
  cases result with
  | error fault => cases hok
  | ok a => exact hok

theorem origin_of_error (h : IsPlaced reader) {error : Failure φ}
    (herror : reader origin = .error error) : error.origin = origin := by
  obtain ⟨result, hresult⟩ := h
  rw [hresult] at herror
  cases result with
  | error fault =>
    cases herror
    rfl
  | ok a => cases herror

theorem eq_error (h : IsPlaced reader) {error : Failure φ} (herror : reader origin = .error error)
    (other : Option Origin) : reader other = .error ⟨error.fault, other⟩ := by
  obtain ⟨result, hresult⟩ := h
  rw [hresult] at herror ⊢
  cases result with
  | error fault =>
    cases herror
    rfl
  | ok a => cases herror

end IsPlaced

theorem Operand.isPlaced_read (raw : String) : IsPlaced (read raw) := by
  unfold read
  dsimp only
  split
  · exact .error _
  · split
    · exact .ok _
    · split
      · exact .error _
      · exact .ok _

namespace Condition

namespace Progress

theorem isPlaced_operandOf (token : String) : IsPlaced fun origin => operandOf origin token := by
  unfold operandOf
  split
  · exact .error _
  · exact Operand.isPlaced_read token

theorem isPlaced_join (pending : Pending) (condition : Condition) (token : String) :
    IsPlaced fun origin => join origin pending condition token := by
  unfold join
  split
  · exact .ok _
  · split
    · exact .ok _
    · exact .error _

theorem isPlaced_step (progress : Progress) (token : String) :
    IsPlaced fun origin => progress.step origin token := by
  unfold step
  cases progress with
  | due pending last =>
    dsimp only
    split
    · exact .ok _
    · exact (isPlaced_operandOf token).map _
  | operand pending left =>
    dsimp only
    split
    · exact .ok _
    · exact isPlaced_join pending (.truthy left) token
  | compared pending left op => exact (isPlaced_operandOf token).map _
  | complete pending condition => exact isPlaced_join pending condition token

theorem isPlaced_finish (progress : Progress) : IsPlaced fun origin => progress.finish origin := by
  cases progress with
  | due pending last =>
    cases last with
    | none => exact .error _
    | some last => exact .error _
  | operand pending left => exact .ok _
  | compared pending left op => exact .error _
  | complete pending condition => exact .ok _

end Progress

/-- Where a condition comes from counts for none of its tokens, nor for their end. -/
theorem isPlaced_read (tokens : List String) : IsPlaced (read tokens) :=
  (IsPlaced.foldlM Progress.isPlaced_step tokens Progress.start).bind Progress.isPlaced_finish

end Condition

end Interpolation
