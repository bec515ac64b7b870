import Interpolation.Proofs.Condition.Grammar
import Interpolation.Proofs.Result

/-!
# The moves of the reader

What one token can do to the reader (`Move`), and tokens one after another (`Moves`), wherever they
come from.  Tokens that end a condition (`Closes`) leave it behind some pending joins, to which a
further `and` or `or` adds.
-/

namespace Interpolation

namespace Comparison

@[simp] theorem ofSymbol?_symbol (op : Comparison) : ofSymbol? op.symbol = some op := by
  cases op <;> rfl

theorem eq_symbol_of_ofSymbol? {token : String} {op : Comparison} (h : ofSymbol? token = some op) :
    token = op.symbol := by
  have hfound := List.find?_some (p := fun op : Comparison => op.symbol = token) h
  exact (of_decide_eq_true hfound).symm

end Comparison

namespace Condition

@[simp] theorem isKeyword_symbol (op : Comparison) : isKeyword op.symbol = true := by
  simp [isKeyword]

theorem Stands.ne_not {token : String} {operand : Operand} (h : Stands token operand) :
    token ≠ "not" := by
  rintro rfl
  exact absurd h.1 (by decide)

theorem operandOf_eq_ok_iff {origin : Option Origin} {token : String} {operand : Operand} :
    Progress.operandOf origin token = .ok operand ↔ Stands token operand := by
  have hreads : Operand.read token origin = .ok operand ↔ Reads token operand :=
    ⟨reads_of_read, fun h => h origin⟩
  unfold Progress.operandOf Stands
  cases isKeyword token <;> simp [hreads]

namespace Progress

/-! ## Moves of the reader -/

variable {origin : Option Origin}

/-- The condition that has just been read in full, with what it will be joined to. -/
def closed? : Progress → Option (Pending × Condition)
  | .operand pending left => some (pending, .truthy left)
  | .complete pending condition => some (pending, condition)
  | .due .. | .compared .. => none

/-- What one token can do. -/
inductive Move : Progress → String → Progress → Prop
  | not (pending : Pending) (last : Option String) :
      Move (.due pending last) "not"
        (.due { pending with negations := pending.negations + 1 } (some "not"))
  | operand {token : String} {left : Operand} (pending : Pending) (last : Option String) :
      Stands token left → Move (.due pending last) token (.operand pending left)
  | symbol (pending : Pending) (left : Operand) (op : Comparison) :
      Move (.operand pending left) op.symbol (.compared pending left op)
  | right {token : String} {right : Operand} (pending : Pending) (left : Operand)
      (op : Comparison) :
      Stands token right →
        Move (.compared pending left op) token (.complete pending (.compare op left right))
  | or {progress : Progress} {pending : Pending} {condition : Condition} :
      progress.closed? = some (pending, condition) →
        Move progress "or" (.due { disjunct := some (pending.disjunction condition) } (some "or"))
  | and {progress : Progress} {pending : Pending} {condition : Condition} :
      progress.closed? = some (pending, condition) →
        Move progress "and"
          (.due { disjunct := pending.disjunct, conjunct := some (pending.conjunction condition) }
            (some "and"))

theorem Move.step_eq {progress next : Progress} {token : String} (h : Move progress token next) :
    progress.step origin token = .ok next := by
  cases h with
  | not pending last => rfl
  | operand pending last hleft =>
    rw [step, if_neg hleft.ne_not, operandOf_eq_ok_iff.2 hleft]
    rfl
  | symbol pending left op => rw [step, Comparison.ofSymbol?_symbol]
  | right pending left op hright =>
    rw [step, operandOf_eq_ok_iff.2 hright]
    rfl
  | or hclosed | and hclosed =>
    cases progress with
    | due _ _ | compared _ _ _ => cases hclosed
    | operand _ _ | complete _ _ =>
      cases hclosed
      rfl

theorem Move.of_join {progress next : Progress} {token : String} {pending : Pending}
    {condition : Condition} (hclosed : progress.closed? = some (pending, condition))
    (h : join origin pending condition token = .ok next) : Move progress token next := by
  unfold join at h
  split at h
  · next htoken =>
    subst htoken
    cases h
    exact .or hclosed
  · split at h
    · next htoken =>
      subst htoken
      cases h
      exact .and hclosed
    · cases h

theorem Move.of_step {progress next : Progress} {token : String}
    (h : progress.step origin token = .ok next) : Move progress token next := by
  cases progress with
  | due pending last =>
    simp only [step] at h
    split at h
    · next htoken =>
      subst htoken
      cases h
      exact .not pending last
    · obtain ⟨left, hleft, rfl⟩ := map_eq_ok_iff.1 h
      exact .operand pending last (operandOf_eq_ok_iff.1 hleft)
  | operand pending left =>
    simp only [step] at h
    split at h
    · next op hop =>
      cases h
      rw [Comparison.eq_symbol_of_ofSymbol? hop]
      exact .symbol pending left op
    · exact Move.of_join rfl h
  | compared pending left op =>
    obtain ⟨right, hright, rfl⟩ := map_eq_ok_iff.1 h
    exact .right pending left op (operandOf_eq_ok_iff.1 hright)
  | complete pending condition => exact Move.of_join rfl h

theorem finish_eq_ok_iff {progress : Progress} {condition : Condition} :
    progress.finish origin = .ok condition ↔
      ∃ pending core, progress.closed? = some (pending, core) ∧
        pending.disjunction core = condition := by
  rcases progress with ⟨_, _ | _⟩ | _ | _ | _ <;> simp [finish, closed?, and_assoc]

/-- One token cannot do two things. -/
theorem Move.eq {progress next other : Progress} {token : String} (h : Move progress token next)
    (hother : Move progress token other) : other = next :=
  Except.ok.inj ((@Move.step_eq none _ _ _ hother).symm.trans h.step_eq)

/-! ## Runs of the reader -/

/-- What tokens can do, one move after another. -/
inductive Moves : Progress → List String → Progress → Prop
  | refl (progress : Progress) : Moves progress [] progress
  | cons {progress next last : Progress} {token : String} {tokens : List String} :
      Move progress token next → Moves next tokens last → Moves progress (token :: tokens) last

theorem Move.moves {progress next : Progress} {token : String} (h : Move progress token next) :
    Moves progress [token] next := .cons h (.refl next)

theorem Moves.append {progress middle last : Progress} {tokens others : List String}
    (h : Moves progress tokens middle) (hothers : Moves middle others last) :
    Moves progress (tokens ++ others) last := by
  induction h with
  | refl progress => exact hothers
  | cons hmove _ ih => exact .cons hmove (ih hothers)

/-- What more tokens do starts where the tokens before them have led. -/
theorem Moves.of_append {progress middle last : Progress} {tokens others : List String}
    (h : Moves progress tokens middle) (hall : Moves progress (tokens ++ others) last) :
    Moves middle others last := by
  induction h with
  | refl progress => exact hall
  | cons hmove _ ih =>
    cases hall with
    | cons hmove' hrest =>
      rw [hmove.eq hmove'] at hrest
      exact ih hrest

/-- The progress after more tokens. -/
def run (origin : Option Origin) (progress : Progress) (tokens : List String) :
    Except ParseError Progress :=
  tokens.foldlM (step origin) progress

theorem run_append_of_run {progress next : Progress} {tokens : List String}
    (h : progress.run origin tokens = .ok next) (others : List String) :
    progress.run origin (tokens ++ others) = next.run origin others := by
  unfold run at h
  rw [run, List.foldlM_append, h]
  rfl

theorem run_eq_ok_iff {progress last : Progress} {tokens : List String} :
    progress.run origin tokens = .ok last ↔ Moves progress tokens last := by
  induction tokens generalizing progress with
  | nil =>
    constructor
    · rintro ⟨⟩
      exact .refl _
    · rintro ⟨⟩
      rfl
  | cons token tokens ih =>
    rw [run, List.foldlM_cons, bind_eq_ok_iff]
    constructor
    · rintro ⟨next, hstep, hrun⟩
      exact .cons (.of_step hstep) (ih.1 hrun)
    · rintro (_ | ⟨hmove, hmoves⟩)
      exact ⟨_, hmove.step_eq, ih.2 hmoves⟩

/-! ## Tokens that end a condition -/

/-- The tokens end a condition, and leave it to be joined to what is pending. -/
def Closes (progress : Progress) (tokens : List String) (pending : Pending)
    (condition : Condition) : Prop :=
  ∃ next, Moves progress tokens next ∧ next.closed? = some (pending, condition)

variable {progress : Progress} {tokens others : List String} {pending next : Pending}
  {condition core : Condition}

theorem closes_truthy {token : String} {operand : Operand} (h : Stands token operand)
    (pending : Pending) (last : Option String) :
    (due pending last).Closes [token] pending (.truthy operand) :=
  ⟨.operand pending operand, (Move.operand pending last h).moves, rfl⟩

theorem closes_compare {ltoken rtoken : String} {left right : Operand} (op : Comparison)
    (hl : Stands ltoken left) (hr : Stands rtoken right) (pending : Pending)
    (last : Option String) :
    (due pending last).Closes [ltoken, op.symbol, rtoken] pending (.compare op left right) :=
  ⟨.complete pending (.compare op left right),
    .cons (.operand pending last hl) (.cons (.symbol pending left op)
      (Move.right pending left op hr).moves), rfl⟩

/-- What ends a condition after some tokens does so together with them. -/
theorem Moves.closes {middle : Progress} (h : Moves progress tokens middle)
    (hothers : middle.Closes others pending condition) :
    progress.Closes (tokens ++ others) pending condition := by
  obtain ⟨last, hmoves, hclosed⟩ := hothers
  exact ⟨last, h.append hmoves, hclosed⟩

theorem Moves.closes_of_append {middle : Progress} (h : Moves progress tokens middle)
    (hall : progress.Closes (tokens ++ others) pending condition) :
    middle.Closes others pending condition := by
  obtain ⟨last, hmoves, hclosed⟩ := hall
  exact ⟨last, h.of_append hmoves, hclosed⟩

theorem Closes.moves_or (h : progress.Closes tokens pending condition) :
    Moves progress (tokens ++ ["or"])
      (due { disjunct := some (pending.disjunction condition) } (some "or")) := by
  obtain ⟨middle, hmoves, hclosed⟩ := h
  exact hmoves.append (Move.or hclosed).moves

theorem Closes.moves_and (h : progress.Closes tokens pending condition) :
    Moves progress (tokens ++ ["and"])
      (due { disjunct := pending.disjunct, conjunct := some (pending.conjunction condition) }
        (some "and")) := by
  obtain ⟨middle, hmoves, hclosed⟩ := h
  exact hmoves.append (Move.and hclosed).moves

theorem Closes.not {last : Option String}
    (h : (due { pending with negations := pending.negations + 1 } (some "not")).Closes tokens next
      core) : (due pending last).Closes ("not" :: tokens) next core :=
  (Move.not pending last).moves.closes h

theorem Closes.or (h : progress.Closes tokens pending condition)
    (hothers : (due { disjunct := some (pending.disjunction condition) } (some "or")).Closes others
      next core) : progress.Closes (tokens ++ "or" :: others) next core := by
  rw [List.append_cons]
  exact h.moves_or.closes hothers

theorem Closes.and (h : progress.Closes tokens pending condition)
    (hothers : (due
        { disjunct := pending.disjunct, conjunct := some (pending.conjunction condition) }
        (some "and")).Closes others next core) :
    progress.Closes (tokens ++ "and" :: others) next core := by
  rw [List.append_cons]
  exact h.moves_and.closes hothers

end Progress

variable {origin : Option Origin}

theorem read_eq_run_bind (tokens : List String) :
    read tokens origin = Progress.start.run origin tokens >>= Progress.finish origin := rfl

theorem read_eq_ok_iff {tokens : List String} {condition : Condition} :
    read tokens origin = .ok condition ↔
      ∃ pending core, Progress.start.Closes tokens pending core ∧
        pending.disjunction core = condition := by
  constructor
  · intro h
    obtain ⟨last, hrun, hfinish⟩ := bind_eq_ok_iff.1 h
    obtain ⟨pending, core, hclosed, heq⟩ := Progress.finish_eq_ok_iff.1 hfinish
    exact ⟨pending, core, ⟨last, Progress.run_eq_ok_iff.1 hrun, hclosed⟩, heq⟩
  · rintro ⟨pending, core, ⟨last, hmoves, hclosed⟩, heq⟩
    exact bind_eq_ok_iff.2 ⟨last, Progress.run_eq_ok_iff.2 hmoves,
      Progress.finish_eq_ok_iff.2 ⟨pending, core, hclosed, heq⟩⟩

theorem read_compare {ltoken rtoken : String} {left right : Operand} (op : Comparison)
    (hl : Stands ltoken left) (hr : Stands rtoken right) :
    read [ltoken, op.symbol, rtoken] origin = .ok (.compare op left right) :=
  read_eq_ok_iff.2 ⟨_, _, Progress.closes_compare op hl hr _ _, rfl⟩

end Condition

end Interpolation
