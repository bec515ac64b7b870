import Interpolation.Proofs.Condition.Reading
import Interpolation.Proofs.Failure

/-!
# Where tokens break off

However far the reader has come, more tokens can end the condition, so the tokens that it takes are
those that begin a sentence (`isViable_iff_run`).  Tokens that are no condition therefore have a
first one that no sentence has there, or they end too early; and this is where the reader stops,
with a fault that says what is wrong there.
-/

namespace Interpolation

namespace Condition

open Progress

/-- The tokens begin a sentence. -/
def IsViable (tokens : List String) : Prop :=
  ∃ sentence, Grammar.IsDisjunction sentence ∧ tokens <+: sentence

/-- The index is that of the first token that no sentence has there, after the tokens before it; or
the number of all tokens, if a sentence begins with them. -/
structure IsBreak (tokens : List String) (index : Nat) : Prop where
  le_length : index ≤ tokens.length
  isViable : ∀ before < index, IsViable (tokens.take (before + 1))
  not_isViable : index < tokens.length → ¬ IsViable (tokens.take (index + 1))

variable {tokens : List String} {progress : Progress} {token : String} {origin : Option Origin}
  {error : ParseError}

theorem IsBreak.eq {index other : Nat} (h : IsBreak tokens index) (hother : IsBreak tokens other) :
    other = index := by
  rcases Nat.lt_trichotomy other index with hlt | heq | hlt
  · exact absurd (h.isViable other hlt) (hother.not_isViable (Nat.lt_of_lt_of_le hlt h.le_length))
  · exact heq
  · exact absurd (hother.isViable index hlt)
      (h.not_isViable (Nat.lt_of_lt_of_le hlt hother.le_length))

/-! ## Tokens that begin a sentence -/

theorem isDisjunction_iff_read (origin : Option Origin) :
    Grammar.IsDisjunction tokens ↔ ∃ condition, read tokens origin = .ok condition := by
  rw [← Grammar.exists_isSentence]
  exact exists_congr fun _ => read_eq_ok_iff_isSentence.symm

theorem stands_name : Stands "x" (.path "x") := ⟨rfl, fun _ => rfl⟩

/-- Whatever is due can be made up for. -/
theorem Progress.exists_closes (progress : Progress) :
    ∃ others pending core, progress.Closes others pending core := by
  cases progress with
  | due pending last => exact ⟨["x"], pending, _, closes_truthy stands_name pending last⟩
  | operand pending left => exact ⟨[], pending, _, .operand pending left, .refl _, rfl⟩
  | compared pending left op =>
    exact ⟨["x"], pending, _, _, (Move.right pending left op stands_name).moves, rfl⟩
  | complete pending condition => exact ⟨[], pending, _, .complete pending condition, .refl _, rfl⟩

theorem IsViable.mono {others : List String} (h : IsViable others)
    (hstart : tokens <+: others) : IsViable tokens := by
  obtain ⟨sentence, hsentence, hothers⟩ := h
  exact ⟨sentence, hsentence, hstart.trans hothers⟩

theorem isViable_iff_run :
    IsViable tokens ↔ ∃ progress, start.run origin tokens = .ok progress := by
  constructor
  · rintro ⟨_, hsentence, others, rfl⟩
    obtain ⟨condition, hread⟩ := (isDisjunction_iff_read origin).1 hsentence
    obtain ⟨last, hrun, -⟩ := bind_eq_ok_iff.1 hread
    rw [List.foldlM_append, bind_eq_ok_iff] at hrun
    obtain ⟨progress, hprogress, -⟩ := hrun
    exact ⟨progress, hprogress⟩
  · rintro ⟨progress, hrun⟩
    obtain ⟨others, pending, core, hcloses⟩ := progress.exists_closes
    have hread : read (tokens ++ others) origin = .ok (pending.disjunction core) :=
      read_eq_ok_iff.2 ⟨pending, core, (run_eq_ok_iff.1 hrun).closes hcloses, rfl⟩
    exact ⟨tokens ++ others, (isDisjunction_iff_read origin).2 ⟨_, hread⟩, others, rfl⟩

theorem isDisjunction_iff_closed (h : start.run origin tokens = .ok progress) :
    Grammar.IsDisjunction tokens ↔ progress.closed?.isSome = true := by
  rw [isDisjunction_iff_read origin]
  constructor
  · rintro ⟨condition, hread⟩
    obtain ⟨pending, core, ⟨last, hmoves, hclosed⟩, -⟩ := read_eq_ok_iff.1 hread
    cases h.symm.trans (run_eq_ok_iff.2 hmoves)
    exact Option.isSome_of_eq_some hclosed
  · intro hclosed
    obtain ⟨⟨pending, core⟩, hclosed⟩ := Option.isSome_iff_exists.1 hclosed
    exact ⟨_, read_eq_ok_iff.2 ⟨pending, core, ⟨progress, run_eq_ok_iff.1 h, hclosed⟩, rfl⟩⟩

/-! ## The faults of the reader -/

theorem operandOf_eq_error (h : operandOf origin token = .error error) :
    (token ∈ Grammar.keywords → error.fault = .misplacedKeyword token) ∧
      (token ∉ Grammar.keywords → Operand.read token origin = .error error) := by
  rw [← Grammar.isKeyword_eq_false_iff, ← Decidable.not_not (p := token ∈ Grammar.keywords),
    ← Grammar.isKeyword_eq_false_iff]
  unfold operandOf at h
  split at h
  · next hkeyword =>
    cases h
    exact ⟨fun _ => rfl, fun hfalse => absurd hkeyword (Bool.eq_false_iff.1 hfalse)⟩
  · next hkeyword =>
    exact ⟨fun htrue => absurd (Bool.eq_false_iff.2 hkeyword) htrue, fun _ => h⟩

theorem join_eq_error {pending : Pending} {condition : Condition}
    (h : join origin pending condition token = .error error) :
    error.fault = .unexpectedToken token := by
  unfold join at h
  split at h
  · cases h
  · split at h
    · cases h
    · cases h
      rfl

/-- One token is at fault because a whole condition stands before it, or because it is no operand
where one is due. -/
theorem step_eq_error (h : progress.step origin token = .error error) :
    (progress.closed?.isSome = true → error.fault = .unexpectedToken token) ∧
      (progress.closed?.isSome = false → operandOf origin token = .error error) := by
  cases progress with
  | due pending last =>
    refine ⟨nofun, fun _ => ?_⟩
    unfold step at h
    dsimp only at h
    split at h
    · cases h
    · exact map_eq_error_iff.1 h
  | operand pending left =>
    refine ⟨fun _ => ?_, nofun⟩
    unfold step at h
    dsimp only at h
    split at h
    · cases h
    · exact join_eq_error h
  | compared pending left op => exact ⟨nofun, fun _ => map_eq_error_iff.1 h⟩
  | complete pending condition => exact ⟨fun _ => join_eq_error h, nofun⟩

theorem run_eq_error {tokens : List String} (h : progress.run origin tokens = .error error) :
    ∃ before token after middle, tokens = before ++ token :: after ∧
      progress.run origin before = .ok middle ∧ middle.step origin token = .error error := by
  induction tokens generalizing progress with
  | nil => cases h
  | cons token tokens ih =>
    rw [run, List.foldlM_cons] at h
    cases hstep : progress.step origin token with
    | error other =>
      rw [hstep] at h
      cases h
      exact ⟨[], token, tokens, progress, rfl, rfl, hstep⟩
    | ok next =>
      rw [hstep] at h
      obtain ⟨before, other, after, middle, rfl, hrun, herror⟩ := ih h
      exact ⟨token :: before, other, after, middle, rfl,
        run_eq_ok_iff.2 (.cons (.of_step hstep) (run_eq_ok_iff.1 hrun)), herror⟩

theorem ne_empty_of_mem_keywords (h : token ∈ Grammar.keywords) : token ≠ "" := by
  rintro rfl
  exact absurd h (by decide)

/-- An operand or a comparison is due only after a keyword. -/
theorem Progress.Move.finish_eq_error {next : Progress} (h : Move progress token next)
    (hfinish : next.finish origin = .error error) :
    token ∈ Grammar.keywords ∧ error.fault = .missingOperand token := by
  cases h with
  | operand pending last hleft => cases hfinish
  | right pending left op hright => cases hfinish
  | symbol pending left op =>
    cases hfinish
    exact ⟨by cases op <;> decide, rfl⟩
  | not pending last =>
    cases hfinish
    exact ⟨by decide, rfl⟩
  | or hclosed =>
    cases hfinish
    exact ⟨by decide, rfl⟩
  | and hclosed =>
    cases hfinish
    exact ⟨by decide, rfl⟩

/-- Tokens end too early only after a keyword. -/
theorem finish_eq_error {init : List String}
    (hrun : start.run origin (init ++ [token]) = .ok progress)
    (hfinish : progress.finish origin = .error error) :
    token ∈ Grammar.keywords ∧ error.fault = .missingOperand token := by
  rw [run, List.foldlM_append, bind_eq_ok_iff] at hrun
  obtain ⟨middle, -, hlast⟩ := hrun
  obtain _ | ⟨hmove, ⟨⟩⟩ := run_eq_ok_iff.1 hlast
  exact hmove.finish_eq_error hfinish

/-- Tokens that are no condition end too early, or one of them is at fault. -/
theorem read_eq_error (h : read tokens origin = .error error) :
    (∃ progress, start.run origin tokens = .ok progress ∧
      progress.finish origin = .error error) ∨
      ∃ before token after progress, tokens = before ++ token :: after ∧
        start.run origin before = .ok progress ∧ progress.step origin token = .error error := by
  rw [read_eq_run_bind] at h
  cases hrun : start.run origin tokens with
  | ok progress =>
    rw [hrun] at h
    exact .inl ⟨progress, rfl, h⟩
  | error other =>
    rw [hrun] at h
    cases h
    exact .inr (run_eq_error hrun)

theorem read_of_finish_eq_error (hrun : start.run origin tokens = .ok progress)
    (hfinish : progress.finish origin = .error error) : read tokens origin = .error error := by
  rw [read_eq_run_bind, hrun]
  exact hfinish

theorem read_of_step_eq_error {before : List String}
    (hrun : start.run origin before = .ok progress)
    (hstep : progress.step origin token = .error error) (after : List String) :
    read (before ++ token :: after) origin = .error error := by
  rw [read_eq_run_bind, run_append_of_run hrun, run, List.foldlM_cons, hstep]
  rfl

/-! ## The break -/

theorem isBreak_length (h : start.run origin tokens = .ok progress) : IsBreak tokens tokens.length where
  le_length := Nat.le_refl _
  isViable _ _ := (isViable_iff_run.2 ⟨progress, h⟩).mono (List.take_prefix _ _)
  not_isViable hlt := absurd hlt (Nat.lt_irrefl _)

theorem isBreak_append_cons {before : List String} (h : start.run origin before = .ok progress)
    (hstep : progress.step origin token = .error error) (after : List String) :
    IsBreak (before ++ token :: after) before.length where
  le_length := by simp
  isViable index hindex := by
    rw [List.take_append_of_le_length hindex]
    exact (isViable_iff_run.2 ⟨progress, h⟩).mono (List.take_prefix _ _)
  not_isViable _ hviable := by
    have htake : (before ++ token :: after).take (before.length + 1) = before ++ [token] :=
      List.take_length_add_append 1
    rw [htake] at hviable
    obtain ⟨next, hrun⟩ := isViable_iff_run.1 hviable
    rw [run_append_of_run h] at hrun
    obtain _ | ⟨hmove, -⟩ := run_eq_ok_iff.1 hrun
    cases hstep.symm.trans hmove.step_eq

/-- Tokens that are no condition have one index at which they break off, and the fault is about the
token there: it follows a sentence, or it is no operand where one is due, being a keyword or not to
be read as an operand.  If all tokens together begin a sentence, then the last is a keyword, and an
operand is missed after it. -/
theorem read_fault_of_isBreak (tokens : List String) (hne : tokens ≠ []) {origin : Option Origin}
    {error : ParseError} (h : read tokens origin = .error error) :
    ∃ index, (∀ other, IsBreak tokens other ↔ other = index) ∧
      (index = tokens.length → ∃ last, tokens.getLast? = some last ∧
        last ∈ Grammar.keywords ∧ last ≠ "" ∧
        error.reason = "Expected an operand after '" ++ last ++ "'") ∧
      ∀ token, tokens[index]? = some token →
        (Grammar.IsDisjunction (tokens.take index) →
          error.reason = "Unexpected '" ++ token ++ "' in expression") ∧
        (¬ Grammar.IsDisjunction (tokens.take index) →
          (token ∈ Grammar.keywords →
            error.reason = "Expected an operand, found '" ++ token ++ "'") ∧
          (token ∉ Grammar.keywords → Operand.read token origin = .error error)) := by
  have hunique {index : Nat} (hindex : IsBreak tokens index) (other : Nat) :
      IsBreak tokens other ↔ other = index := ⟨hindex.eq, fun heq => heq ▸ hindex⟩
  obtain ⟨progress, hrun, hfinish⟩ | ⟨before, token, after, progress, rfl, hrun, hstep⟩ :=
    read_eq_error h
  · refine ⟨tokens.length, hunique (isBreak_length hrun), fun _ => ?_, ?_⟩
    · have hlast := List.getLast?_eq_some_getLast hne
      obtain ⟨init, htokens⟩ := List.getLast?_eq_some_iff.1 hlast
      obtain ⟨hkeyword, hfault⟩ := finish_eq_error (htokens ▸ hrun) hfinish
      refine ⟨_, hlast, hkeyword, ne_empty_of_mem_keywords hkeyword, ?_⟩
      rw [Failure.reason_parse, hfault, ParseFault.reason_missingOperand]
    · intro token htoken
      rw [List.getElem?_eq_none (Nat.le_refl _)] at htoken
      cases htoken
  · refine ⟨before.length, hunique (isBreak_append_cons hrun hstep after), ?_, ?_⟩
    · intro hlength
      simp at hlength
    · intro other hother
      obtain rfl : token = other := by simpa using hother
      rw [List.take_left]
      obtain ⟨hafter, hdue⟩ := step_eq_error hstep
      rw [isDisjunction_iff_closed hrun, Bool.not_eq_true]
      refine ⟨fun hclosed => ?_, fun hopen => ⟨fun hkeyword => ?_, fun hkeyword => ?_⟩⟩
      · rw [Failure.reason_parse, hafter hclosed, ParseFault.reason_unexpectedToken]
      · rw [Failure.reason_parse, (operandOf_eq_error (hdue hopen)).1 hkeyword,
          ParseFault.reason_misplacedKeyword]
      · exact (operandOf_eq_error (hdue hopen)).2 hkeyword

theorem read_fault_of_isBreak_chained_comparison :
    (∃ error, read ["a", "<", "b", "<", "c"] none = .error error ∧
      IsBreak ["a", "<", "b", "<", "c"] 3 ∧ error.reason = "Unexpected '<' in expression") ∧
    ∃ error, read ["a", "or", "not"] none = .error error ∧
      IsBreak ["a", "or", "not"] 3 ∧ error.reason = "Expected an operand after 'not'" := by
  have hchained : IsBreak (["a", "<", "b"] ++ "<" :: ["c"]) 3 :=
    @isBreak_append_cons _ _ none _ _ rfl rfl ["c"]
  have hshort : IsBreak ["a", "or", "not"] 3 := @isBreak_length _ _ none rfl
  have hsentence : Grammar.IsDisjunction ["a", "<", "b"] := (isDisjunction_iff_read none).2 ⟨_, rfl⟩
  constructor
  · obtain ⟨index, hindex, -, htoken⟩ :=
      read_fault_of_isBreak ["a", "<", "b", "<", "c"] (List.cons_ne_nil _ _) rfl
    obtain rfl := (hindex 3).1 hchained
    exact ⟨_, rfl, hchained, (htoken "<" rfl).1 hsentence⟩
  · obtain ⟨index, hindex, hend, -⟩ :=
      read_fault_of_isBreak ["a", "or", "not"] (List.cons_ne_nil _ _) rfl
    obtain rfl := (hindex 3).1 hshort
    obtain ⟨last, hlast, -, -, hreason⟩ := hend rfl
    cases hlast
    exact ⟨_, rfl, hshort, hreason⟩

end Condition

end Interpolation
