import Interpolation.Proofs.Condition.Moves

/-!
# The reader against the grammar

The tokens of a sentence are read as its condition (`read_of_isSentence`), and what is read at all
is the condition of a sentence (`isSentence_of_read`).  So the reader accepts exactly the sentences
of the grammar, and reads each as the one canonical condition that has its tokens.
-/

namespace Interpolation.Condition

open Progress

variable {condition : Condition} {tokens : List String} {origin : Option Origin}

/-! ## Every sentence is read -/

namespace Pending

theorem negate_not (n : Nat) (condition : Condition) :
    negate n (.not condition) = .not (negate n condition) := by
  induction n with
  | zero => rfl
  | succ n ih => exact congrArg Condition.not ih

theorem conjunction_not (pending : Pending) (condition : Condition) :
    { pending with negations := pending.negations + 1 }.conjunction condition =
      pending.conjunction (.not condition) := by
  simp only [conjunction, negate_not, negate]

end Pending

/-- A term is joined to the conjunction that waits for it, behind the negations that wait. -/
theorem IsTerm.closes (h : IsTerm condition tokens) (pending : Pending) (last : Option String) :
    ∃ next core, (due pending last).Closes tokens next core ∧
      next.disjunct = pending.disjunct ∧
      next.conjunction core = pending.conjunction condition := by
  induction h generalizing pending last with
  | truthy hx => exact ⟨pending, _, closes_truthy hx pending last, rfl, rfl⟩
  | compare op hl hr => exact ⟨pending, _, closes_compare op hl hr pending last, rfl, rfl⟩
  | not _ ih =>
    obtain ⟨next, core, hcloses, hdisjunct, hconjunction⟩ :=
      ih { pending with negations := pending.negations + 1 } (some "not")
    exact ⟨next, core, hcloses.not, hdisjunct, hconjunction.trans (pending.conjunction_not _)⟩

/-- A phrase is read next to the disjunction that waits for it. -/
theorem IsPhrase.closes (h : IsPhrase condition tokens) (disjunct : Option Condition)
    (last : Option String) :
    ∃ next core, (due { disjunct := disjunct } last).Closes tokens next core ∧
      next.disjunct = disjunct ∧ next.conjunction core = condition := by
  induction h with
  | term h => exact h.closes { disjunct := disjunct } last
  | and _ hr ih =>
    obtain ⟨next, core, hcloses, rfl, rfl⟩ := ih
    obtain ⟨next', core', hcloses', hdisjunct, hconjunction⟩ :=
      hr.closes { disjunct := next.disjunct, conjunct := some (next.conjunction core) } (some "and")
    exact ⟨next', core', hcloses.and hcloses', hdisjunct, hconjunction⟩

theorem IsSentence.closes (h : IsSentence condition tokens) :
    ∃ next core, start.Closes tokens next core ∧ next.disjunction core = condition := by
  induction h with
  | phrase h =>
    obtain ⟨next, core, hcloses, hdisjunct, hconjunction⟩ := h.closes none none
    exact ⟨next, core, hcloses, by rw [Pending.disjunction, hdisjunct, hconjunction]⟩
  | or _ hr ih =>
    obtain ⟨next, core, hcloses, rfl⟩ := ih
    obtain ⟨next', core', hcloses', hdisjunct, hconjunction⟩ :=
      hr.closes (some (next.disjunction core)) (some "or")
    refine ⟨next', core', hcloses.or hcloses', ?_⟩
    rw [Pending.disjunction, hdisjunct, hconjunction]

theorem read_of_isSentence (h : IsSentence condition tokens) : read tokens origin = .ok condition :=
  read_eq_ok_iff.2 h.closes

/-! ## Only sentences are read -/

/-- The tokens of the left side that waits for what is due, up to the word between them. -/
def Waits (IsLeft : Condition → List String → Prop) (word : String) :
    Option Condition → List String → Prop
  | none, tokens => tokens = []
  | some left, tokens => ∃ before, IsLeft left before ∧ tokens = before ++ [word]

theorem IsTerm.negate (h : IsTerm condition tokens) (n : Nat) :
    IsTerm (Pending.negate n condition) (List.replicate n "not" ++ tokens) := by
  induction n with
  | zero => exact h
  | succ n ih => exact ih.not

namespace Pending

variable {pending : Pending} {before : List String}

/-- The tokens that have led to what is pending. -/
def Spelled (pending : Pending) (tokens : List String) : Prop :=
  ∃ before between, Waits IsSentence "or" pending.disjunct before ∧
    Waits IsPhrase "and" pending.conjunct between ∧
    tokens = before ++ between ++ List.replicate pending.negations "not"

theorem spelled_start : Spelled {} [] := ⟨[], [], rfl, rfl, rfl⟩

theorem isPhrase_conjunction (hbefore : Waits IsPhrase "and" pending.conjunct before)
    (h : IsTerm condition tokens) :
    IsPhrase (pending.conjunction condition)
      (before ++ List.replicate pending.negations "not" ++ tokens) := by
  have hterm := h.negate pending.negations
  rw [List.append_assoc]
  unfold conjunction
  cases hleft : pending.conjunct with
  | none =>
    rw [hleft] at hbefore
    subst hbefore
    exact .term hterm
  | some left =>
    rw [hleft] at hbefore
    obtain ⟨phrase, hphrase, rfl⟩ := hbefore
    simpa using hphrase.and hterm

theorem Spelled.sentence (hbefore : pending.Spelled before) (h : IsTerm condition tokens) :
    IsSentence (pending.disjunction condition) (before ++ tokens) := by
  obtain ⟨before, between, hdisjunct, hconjunct, rfl⟩ := hbefore
  have hphrase := isPhrase_conjunction hconjunct h
  unfold disjunction
  cases hleft : pending.disjunct with
  | none =>
    rw [hleft] at hdisjunct
    subst hdisjunct
    simpa using IsSentence.phrase hphrase
  | some left =>
    rw [hleft] at hdisjunct
    obtain ⟨sentence, hsentence, rfl⟩ := hdisjunct
    simpa using hsentence.or hphrase

theorem Spelled.or (hbefore : pending.Spelled before) (h : IsTerm condition tokens) :
    Spelled { disjunct := some (pending.disjunction condition) } (before ++ tokens ++ ["or"]) :=
  ⟨before ++ tokens ++ ["or"], [], ⟨before ++ tokens, hbefore.sentence h, rfl⟩, rfl, by simp⟩

theorem Spelled.and (hbefore : pending.Spelled before) (h : IsTerm condition tokens) :
    Spelled { disjunct := pending.disjunct, conjunct := some (pending.conjunction condition) }
      (before ++ tokens ++ ["and"]) := by
  obtain ⟨before, between, hdisjunct, hconjunct, rfl⟩ := hbefore
  exact ⟨before, _, hdisjunct, ⟨_, isPhrase_conjunction hconjunct h, rfl⟩, by simp⟩

theorem Spelled.not (hbefore : pending.Spelled before) :
    Spelled { pending with negations := pending.negations + 1 } (before ++ ["not"]) := by
  obtain ⟨before, between, hdisjunct, hconjunct, rfl⟩ := hbefore
  exact ⟨before, between, hdisjunct, hconjunct, by simp [List.replicate_succ']⟩

end Pending

namespace Progress

variable {progress : Progress}

/-- The tokens that have led to the progress. -/
def Spelled : Progress → List String → Prop
  | .due pending _, tokens => pending.Spelled tokens
  | .operand pending left, tokens =>
    ∃ before token, pending.Spelled before ∧ Stands token left ∧ tokens = before ++ [token]
  | .compared pending left op, tokens =>
    ∃ before token, pending.Spelled before ∧ Stands token left ∧
      tokens = before ++ [token, op.symbol]
  | .complete pending condition, tokens =>
    ∃ before term, pending.Spelled before ∧ IsTerm condition term ∧ tokens = before ++ term

theorem Spelled.closed {pending : Pending} (h : progress.Spelled tokens)
    (hclosed : progress.closed? = some (pending, condition)) :
    ∃ before term, pending.Spelled before ∧ IsTerm condition term ∧ tokens = before ++ term := by
  cases progress with
  | due _ _ | compared _ _ _ => cases hclosed
  | operand pending left =>
    cases hclosed
    obtain ⟨before, token, hspelled, hstands, rfl⟩ := h
    exact ⟨before, [token], hspelled, .truthy hstands, rfl⟩
  | complete pending condition =>
    cases hclosed
    exact h

theorem Spelled.move {next : Progress} {token : String} (h : progress.Spelled tokens)
    (hmove : Move progress token next) : next.Spelled (tokens ++ [token]) := by
  cases hmove with
  | not pending last => exact Pending.Spelled.not h
  | operand pending last hleft => exact ⟨tokens, token, h, hleft, rfl⟩
  | symbol pending left op =>
    obtain ⟨before, ltoken, hspelled, hleft, rfl⟩ := h
    exact ⟨before, ltoken, hspelled, hleft, by simp⟩
  | right pending left op hright =>
    obtain ⟨before, ltoken, hspelled, hleft, rfl⟩ := h
    exact ⟨before, [ltoken, op.symbol, token], hspelled, .compare op hleft hright, by simp⟩
  | or hclosed =>
    obtain ⟨before, term, hspelled, hterm, rfl⟩ := h.closed hclosed
    exact hspelled.or hterm
  | and hclosed =>
    obtain ⟨before, term, hspelled, hterm, rfl⟩ := h.closed hclosed
    exact hspelled.and hterm

theorem Spelled.moves {last : Progress} {others : List String} (h : progress.Spelled tokens)
    (hmoves : Moves progress others last) : last.Spelled (tokens ++ others) := by
  induction hmoves generalizing tokens with
  | refl progress => simpa using h
  | cons hmove _ ih => simpa using ih (h.move hmove)

end Progress

theorem isSentence_of_read (h : read tokens origin = .ok condition) : IsSentence condition tokens := by
  obtain ⟨pending, core, ⟨last, hmoves, hclosed⟩, rfl⟩ := read_eq_ok_iff.1 h
  have hstart : start.Spelled [] := Pending.spelled_start
  obtain ⟨before, term, hbefore, hterm, rfl⟩ := (hstart.moves hmoves).closed hclosed
  exact hbefore.sentence hterm

theorem read_eq_ok_iff_isSentence :
    read tokens origin = .ok condition ↔ IsSentence condition tokens :=
  ⟨isSentence_of_read, read_of_isSentence⟩

/-! ## No other condition has the tokens -/

theorem Flattens.closes (h : Flattens Stands condition tokens) (pending : Pending)
    (last : Option String) : ∃ next core, (due pending last).Closes tokens next core := by
  induction h generalizing pending last with
  | truthy hx => exact ⟨_, _, closes_truthy hx pending last⟩
  | compare op hl hr => exact ⟨_, _, closes_compare op hl hr pending last⟩
  | not _ ih =>
    obtain ⟨next, core, hcloses⟩ := ih _ (some "not")
    exact ⟨next, core, hcloses.not⟩
  | and _ _ ihl ihr =>
    obtain ⟨middle, left, hleft⟩ := ihl pending last
    obtain ⟨next, core, hcloses⟩ := ihr _ (some "and")
    exact ⟨next, core, hleft.and hcloses⟩
  | or _ _ ihl ihr =>
    obtain ⟨middle, left, hleft⟩ := ihl pending last
    obtain ⟨next, core, hcloses⟩ := ihr _ (some "or")
    exact ⟨next, core, hleft.or hcloses⟩

theorem Progress.Closes.head_of_due {pending next : Pending} {last : Option String}
    {core : Condition} (h : (due pending last).Closes tokens next core) :
    ∃ token rest, tokens = token :: rest ∧ (token = "not" ∨ isKeyword token = false) := by
  obtain ⟨final, hmoves, hclosed⟩ := h
  cases hmoves with
  | refl _ => cases hclosed
  | @cons _ middle _ token rest hmove _ =>
    refine ⟨token, rest, rfl, ?_⟩
    cases hmove with
    | not _ _ => exact .inl rfl
    | operand _ _ hleft => exact .inr hleft.1
    | or hdue | and hdue => cases hdue

theorem Progress.Closes.operand_of_due {pending next : Pending} {last : Option String}
    {core : Condition} {token : String} {rest : List String}
    (h : (due pending last).Closes (token :: rest) next core)
    (hrest : ∀ word ∈ rest.head?, isKeyword word = true ∧ word ≠ "not") :
    ∃ left, Stands token left ∧ (Progress.operand pending left).Closes rest next core := by
  obtain ⟨final, hmoves, hclosed⟩ := h
  obtain _ | ⟨hmove, hmiddle⟩ := hmoves
  cases hmove with
  | operand _ _ hleft => exact ⟨_, hleft, final, hmiddle, hclosed⟩
  | or hdue | and hdue => cases hdue
  | not _ _ =>
    have hdue : (due _ (some "not")).Closes rest next core := ⟨final, hmiddle, hclosed⟩
    obtain ⟨word, words, rfl, hword⟩ := hdue.head_of_due
    obtain ⟨hkeyword, hnot⟩ := hrest word rfl
    rcases hword with hword | hword
    · exact absurd hword hnot
    · rw [hkeyword] at hword
      cases hword

/-- A keyword is never read as an operand: the tokens of a condition are read only if each of its
operands comes from a token that is no keyword. -/
theorem Flattens.stands_of_closes (h : Flattens Reads condition tokens) {others : List String}
    (hothers : ∀ word ∈ others.head?, word = "or" ∨ word = "and") {pending next : Pending}
    {last : Option String} {core : Condition}
    (hcloses : (due pending last).Closes (tokens ++ others) next core) :
    Flattens Stands condition tokens := by
  induction h generalizing others pending next last core with
  | truthy hx =>
    have hkeyword : ∀ word ∈ others.head?, isKeyword word = true ∧ word ≠ "not" := by
      intro word hword
      rcases hothers word hword with rfl | rfl <;> decide
    obtain ⟨_, hleft, -⟩ := hcloses.operand_of_due hkeyword
    exact .truthy ⟨hleft.1, hx⟩
  | @compare ltoken rtoken _ _ op hx hy =>
    change (due pending last).Closes (ltoken :: op.symbol :: rtoken :: others) next core at hcloses
    have hsymbol : ∀ word ∈ (op.symbol :: rtoken :: others).head?,
        isKeyword word = true ∧ word ≠ "not" := by
      rintro word ⟨⟩
      exact ⟨isKeyword_symbol op, by cases op <;> decide⟩
    obtain ⟨left, hleft, hsymbol⟩ := hcloses.operand_of_due hsymbol
    obtain ⟨final, hmoves, -⟩ := (Move.symbol pending left op).moves.closes_of_append hsymbol
    obtain _ | ⟨hmove, -⟩ := hmoves
    cases hmove with
    | right _ _ _ hright => exact .compare op ⟨hleft.1, hx⟩ ⟨hright.1, hy⟩
    | or hdue | and hdue => cases hdue
  | not _ ih =>
    exact .not (ih hothers ((Move.not pending last).moves.closes_of_append hcloses))
  | @and left right ltokens rtokens _ _ ihl ihr =>
    rw [List.append_assoc, List.cons_append] at hcloses
    have hl := ihl (by simp) hcloses
    obtain ⟨middle, lcore, hlcloses⟩ := hl.closes pending last
    rw [List.append_cons] at hcloses
    exact .and hl (ihr hothers (hlcloses.moves_and.closes_of_append hcloses))
  | @or left right ltokens rtokens _ _ ihl ihr =>
    rw [List.append_assoc, List.cons_append] at hcloses
    have hl := ihl (by simp) hcloses
    obtain ⟨middle, lcore, hlcloses⟩ := hl.closes pending last
    rw [List.append_cons] at hcloses
    exact .or hl (ihr hothers (hlcloses.moves_or.closes_of_append hcloses))

/-- Tokens are read, wherever they come from, if and only if they are a sentence, and then as the only
canonical condition that is made of them. -/
theorem read_iff_isDisjunction_and_unique (tokens : List String) (origin : Option Origin) :
    ((∃ condition, read tokens origin = .ok condition) ↔ Grammar.IsDisjunction tokens) ∧
      ∀ condition, read tokens origin = .ok condition →
        Flattens Reads condition tokens ∧ condition.isCanonical = true ∧
          ∀ other, Flattens Reads other tokens → other.isCanonical = true → other = condition := by
  refine ⟨?_, fun condition h => ?_⟩
  · simp only [read_eq_ok_iff_isSentence]
    exact Grammar.exists_isSentence
  · have hsentence := isSentence_of_read h
    obtain ⟨hflattens, hcanonical⟩ := isSentence_iff.1 hsentence
    refine ⟨hflattens.mono fun _ _ hstands => hstands.2, hcanonical, ?_⟩
    intro other hother hcanonical
    obtain ⟨next, core, hcloses, -⟩ := hsentence.closes
    rw [← List.append_nil tokens] at hcloses
    have hstands := hother.stands_of_closes (by simp) hcloses
    have hread : read tokens origin = .ok other :=
      read_of_isSentence (isSentence_iff.2 ⟨hstands, hcanonical⟩)
    rw [h] at hread
    exact (Except.ok.inj hread).symm

theorem read_mixed_unique :
    Flattens Reads
        (.or (.or (.truthy (.path "a"))
          (.and (.and (.not (.not (.truthy (.path "b")))) (.truthy (.path "c")))
            (.compare .isIn (.literal (.text "or")) (.path "d")))) (.truthy (.path "e")))
        ["a", "or", "not", "not", "b", "and", "c", "and", "'or'", "in", "d", "or", "e"] ∧
      ∀ other, Flattens Reads other
          ["a", "or", "not", "not", "b", "and", "c", "and", "'or'", "in", "d", "or", "e"] →
        other.isCanonical = true →
        other =
          .or (.or (.truthy (.path "a"))
            (.and (.and (.not (.not (.truthy (.path "b")))) (.truthy (.path "c")))
              (.compare .isIn (.literal (.text "or")) (.path "d")))) (.truthy (.path "e")) := by
  obtain ⟨hflattens, -, hunique⟩ := (read_iff_isDisjunction_and_unique
    ["a", "or", "not", "not", "b", "and", "c", "and", "'or'", "in", "d", "or", "e"] none).2 _ rfl
  exact ⟨hflattens, hunique⟩

end Interpolation.Condition
