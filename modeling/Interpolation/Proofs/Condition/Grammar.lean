import Interpolation.Proofs.Placing

/-!
# The grammar of conditions

A sentence is a chain of conjunctions with `or` in between, a conjunction a chain of negations with
`and` in between, and a negation a comparison or a lone operand behind any number of `not`.  The way
back from a condition to its tokens is `Flattens`, and `isCanonical` says which of the conditions
with the same tokens the grammar means: chains lean to the left, and nothing looser stands below
something tighter.
-/

namespace Interpolation.Condition

/-! ## Sentences -/

namespace Grammar

/-- The words and signs that join and compare operands. -/
def keywords : List String := ["or", "and", "not", "==", "!=", "<", ">", "<=", ">=", "in"]

/-- A token that can be an operand. -/
def IsOperand (token : String) : Prop :=
  token ∉ keywords ∧ ∃ operand, ∀ origin, Operand.read token origin = .ok operand

/-- An operand, or two with a comparison between them. -/
inductive IsComparison : List String → Prop
  | operand {token : String} : IsOperand token → IsComparison [token]
  | compare {left right : String} (op : Comparison) :
      IsOperand left → IsOperand right → IsComparison [left, op.symbol, right]

/-- A comparison behind any number of `not`. -/
inductive IsNegation : List String → Prop
  | comparison {tokens : List String} : IsComparison tokens → IsNegation tokens
  | not {tokens : List String} : IsNegation tokens → IsNegation ("not" :: tokens)

/-- One or more phrases with a word between them. -/
def IsChain (word : String) (IsPhrase : List String → Prop) (tokens : List String) : Prop :=
  ∃ (first : List String) (rest : List (List String)), IsPhrase first ∧
    (∀ phrase ∈ rest, IsPhrase phrase) ∧ tokens = first ++ rest.flatMap (word :: ·)

/-- One or more negations with `and` between them. -/
def IsConjunction : List String → Prop := IsChain "and" IsNegation

/-- One or more conjunctions with `or` between them. -/
def IsDisjunction : List String → Prop := IsChain "or" IsConjunction

theorem IsChain.single {word : String} {IsPhrase : List String → Prop} {tokens : List String}
    (h : IsPhrase tokens) : IsChain word IsPhrase tokens :=
  ⟨tokens, [], h, by simp, by simp⟩

theorem IsChain.concat {word : String} {IsPhrase : List String → Prop} {tokens phrase : List String}
    (h : IsChain word IsPhrase tokens) (hphrase : IsPhrase phrase) :
    IsChain word IsPhrase (tokens ++ word :: phrase) := by
  obtain ⟨first, rest, hfirst, hrest, rfl⟩ := h
  refine ⟨first, rest ++ [phrase], hfirst, fun p hp => ?_, by simp⟩
  rcases List.mem_append.1 hp with hp | hp
  · exact hrest p hp
  · exact List.mem_singleton.1 hp ▸ hphrase

/-- A chain is a single phrase, or a shorter chain with one more phrase at its end. -/
theorem IsChain.induction {word : String} {IsPhrase motive : List String → Prop}
    (single : ∀ phrase, IsPhrase phrase → motive phrase)
    (concat : ∀ before phrase, motive before → IsPhrase phrase → motive (before ++ word :: phrase))
    {tokens : List String} (h : IsChain word IsPhrase tokens) : motive tokens := by
  obtain ⟨first, rest, hfirst, hrest, rfl⟩ := h
  have hstart : motive first := single first hfirst
  clear hfirst
  induction rest generalizing first with
  | nil => simpa using hstart
  | cons phrase rest ih =>
    have hphrase := hrest phrase List.mem_cons_self
    have hnext := ih (first ++ word :: phrase)
      (fun p hp => hrest p (List.mem_cons_of_mem phrase hp)) (concat first phrase hstart hphrase)
    simpa using hnext

end Grammar

/-! ## Tokens of a condition -/

/-- The tokens of a condition from left to right, where `leaf` says which tokens an operand can
come from. -/
inductive Flattens (leaf : String → Operand → Prop) : Condition → List String → Prop
  | truthy {token : String} {operand : Operand} :
      leaf token operand → Flattens leaf (.truthy operand) [token]
  | compare {left right : String} {x y : Operand} (op : Comparison) :
      leaf left x → leaf right y → Flattens leaf (.compare op x y) [left, op.symbol, right]
  | not {condition : Condition} {tokens : List String} :
      Flattens leaf condition tokens → Flattens leaf (.not condition) ("not" :: tokens)
  | and {left right : Condition} {ltokens rtokens : List String} :
      Flattens leaf left ltokens → Flattens leaf right rtokens →
        Flattens leaf (.and left right) (ltokens ++ "and" :: rtokens)
  | or {left right : Condition} {ltokens rtokens : List String} :
      Flattens leaf left ltokens → Flattens leaf right rtokens →
        Flattens leaf (.or left right) (ltokens ++ "or" :: rtokens)

/-- The token reads as the operand, wherever it stands. -/
def Reads (token : String) (operand : Operand) : Prop :=
  ∀ origin, Operand.read token origin = .ok operand

/-- The token reads as the operand and is no keyword. -/
def Stands (token : String) (operand : Operand) : Prop :=
  isKeyword token = false ∧ Reads token operand

theorem reads_of_read {token : String} {operand : Operand} {origin : Option Origin}
    (h : Operand.read token origin = .ok operand) : Reads token operand :=
  (Operand.isPlaced_read token).eq_ok h

theorem Flattens.mono {leaf leaf' : String → Operand → Prop}
    (hleaf : ∀ token operand, leaf token operand → leaf' token operand) {condition : Condition}
    {tokens : List String} (h : Flattens leaf condition tokens) :
    Flattens leaf' condition tokens := by
  induction h with
  | truthy hx => exact .truthy (hleaf _ _ hx)
  | compare op hx hy => exact .compare op (hleaf _ _ hx) (hleaf _ _ hy)
  | not _ ih => exact .not ih
  | and _ _ ihl ihr => exact .and ihl ihr
  | or _ _ ihl ihr => exact .or ihl ihr

/-! ## Shape of a condition -/

/-- Whether an `and` occurs in the condition. -/
def hasAnd : Condition → Bool
  | .truthy _ | .compare .. => false
  | .not condition => condition.hasAnd
  | .and .. => true
  | .or left right => left.hasAnd || right.hasAnd

/-- Whether an `or` occurs in the condition. -/
def hasOr : Condition → Bool
  | .truthy _ | .compare .. => false
  | .not condition => condition.hasOr
  | .and left right => left.hasOr || right.hasOr
  | .or .. => true

/-- Whether the condition is an `and`. -/
def isAnd : Condition → Bool
  | .and .. => true
  | _ => false

/-- Whether the condition is an `or`. -/
def isOr : Condition → Bool
  | .or .. => true
  | _ => false

/-- No right side of an `and` or `or` is one itself, no `or` occurs below an `and` or `not`, and no
`and` below a `not`. -/
def isCanonical : Condition → Bool
  | .truthy _ | .compare .. => true
  | .not condition => !condition.hasAnd && !condition.hasOr && condition.isCanonical
  | .and left right =>
    !left.hasOr && !right.hasOr && !right.isAnd && left.isCanonical && right.isCanonical
  | .or left right => !right.isOr && left.isCanonical && right.isCanonical

/-- The condition is built from negations and comparisons alone. -/
def IsTight (condition : Condition) : Prop := condition.hasAnd = false ∧ condition.hasOr = false

theorem isTight_truthy (operand : Operand) : IsTight (.truthy operand) := ⟨rfl, rfl⟩

theorem isTight_compare (op : Comparison) (left right : Operand) :
    IsTight (.compare op left right) := ⟨rfl, rfl⟩

@[simp] theorem isTight_not (condition : Condition) :
    IsTight (.not condition) ↔ IsTight condition := Iff.rfl

theorem IsTight.isCanonical {condition : Condition} (h : IsTight condition) :
    condition.isCanonical = true := by
  induction condition with
  | truthy _ | compare _ _ _ => rfl
  | not condition ih =>
    have hcondition := (isTight_not condition).1 h
    simp [Condition.isCanonical, hcondition.1, hcondition.2, ih hcondition]
  | and _ _ _ _ => exact absurd h.1 (by simp [hasAnd])
  | or _ _ _ _ => exact absurd h.2 (by simp [hasOr])

/-- A canonical condition without `or` that is no `and` itself has no `and` at all. -/
theorem isTight_of_isCanonical {condition : Condition} (h : condition.isCanonical = true)
    (hor : condition.hasOr = false) (hand : condition.isAnd = false) : IsTight condition := by
  cases condition with
  | truthy operand => exact isTight_truthy operand
  | compare op left right => exact isTight_compare op left right
  | not condition =>
    simp only [isCanonical, Bool.and_eq_true, Bool.not_eq_true'] at h
    exact (isTight_not condition).2 h.1
  | and _ _ => simp [isAnd] at hand
  | or _ _ => simp [hasOr] at hor

theorem isCanonical_and {left right : Condition} :
    (Condition.and left right).isCanonical = true ↔
      left.hasOr = false ∧ left.isCanonical = true ∧ IsTight right := by
  constructor
  · intro h
    simp only [isCanonical, Bool.and_eq_true, Bool.not_eq_true'] at h
    obtain ⟨⟨⟨⟨hl, hr⟩, hand⟩, hleft⟩, hright⟩ := h
    exact ⟨hl, hleft, isTight_of_isCanonical hright hr hand⟩
  · rintro ⟨hl, hleft, hright⟩
    have hand : right.isAnd = false := by
      cases right with
      | and _ _ => exact absurd hright.1 (by simp [hasAnd])
      | _ => rfl
    simp [isCanonical, hl, hright.2, hand, hleft, hright.isCanonical]

/-- A canonical condition has an `or` only as the outermost of its joins. -/
theorem hasOr_eq_false_of_isCanonical {condition : Condition} (h : condition.isCanonical = true)
    (hor : condition.isOr = false) : condition.hasOr = false := by
  cases condition with
  | truthy _ | compare _ _ _ => rfl
  | not inner =>
    simp only [isCanonical, Bool.and_eq_true, Bool.not_eq_true'] at h
    exact h.1.2
  | and left right =>
    obtain ⟨hl, -, hr⟩ := isCanonical_and.1 h
    simp [hasOr, hl, hr.2]
  | or _ _ => simp [isOr] at hor

theorem isCanonical_or {left right : Condition} :
    (Condition.or left right).isCanonical = true ↔
      left.isCanonical = true ∧ right.isCanonical = true ∧ right.hasOr = false := by
  simp only [isCanonical, Bool.and_eq_true, Bool.not_eq_true']
  constructor
  · rintro ⟨⟨hor, hl⟩, hr⟩
    exact ⟨hl, hr, hasOr_eq_false_of_isCanonical hr hor⟩
  · rintro ⟨hl, hr, hor⟩
    refine ⟨⟨?_, hl⟩, hr⟩
    cases right with
    | or _ _ => simp [hasOr] at hor
    | _ => rfl

/-! ## The conditions of sentences -/

/-- A negation of the grammar with its condition. -/
inductive IsTerm : Condition → List String → Prop
  | truthy {token : String} {operand : Operand} :
      Stands token operand → IsTerm (.truthy operand) [token]
  | compare {ltoken rtoken : String} {left right : Operand} (op : Comparison) :
      Stands ltoken left → Stands rtoken right →
        IsTerm (.compare op left right) [ltoken, op.symbol, rtoken]
  | not {condition : Condition} {tokens : List String} :
      IsTerm condition tokens → IsTerm (.not condition) ("not" :: tokens)

/-- A conjunction of the grammar with its condition. -/
inductive IsPhrase : Condition → List String → Prop
  | term {condition : Condition} {tokens : List String} :
      IsTerm condition tokens → IsPhrase condition tokens
  | and {left right : Condition} {ltokens rtokens : List String} :
      IsPhrase left ltokens → IsTerm right rtokens →
        IsPhrase (.and left right) (ltokens ++ "and" :: rtokens)

/-- A sentence of the grammar with its condition. -/
inductive IsSentence : Condition → List String → Prop
  | phrase {condition : Condition} {tokens : List String} :
      IsPhrase condition tokens → IsSentence condition tokens
  | or {left right : Condition} {ltokens rtokens : List String} :
      IsSentence left ltokens → IsPhrase right rtokens →
        IsSentence (.or left right) (ltokens ++ "or" :: rtokens)

variable {condition : Condition} {tokens : List String}

theorem IsTerm.flattens (h : IsTerm condition tokens) : Flattens Stands condition tokens := by
  induction h with
  | truthy hx => exact .truthy hx
  | compare op hx hy => exact .compare op hx hy
  | not _ ih => exact .not ih

theorem IsTerm.isTight (h : IsTerm condition tokens) : IsTight condition := by
  induction h with
  | truthy _ => exact isTight_truthy _
  | compare op _ _ => exact isTight_compare op _ _
  | not _ ih => exact (isTight_not _).2 ih

theorem IsTerm.of_flattens (h : Flattens Stands condition tokens) (htight : IsTight condition) :
    IsTerm condition tokens := by
  induction h with
  | truthy hx => exact .truthy hx
  | compare op hx hy => exact .compare op hx hy
  | not _ ih => exact .not (ih htight)
  | and _ _ _ _ => exact absurd htight.1 (by simp [hasAnd])
  | or _ _ _ _ => exact absurd htight.2 (by simp [hasOr])

theorem IsPhrase.flattens (h : IsPhrase condition tokens) : Flattens Stands condition tokens := by
  induction h with
  | term h => exact h.flattens
  | and _ hr ih => exact ih.and hr.flattens

theorem IsPhrase.hasOr_eq_false (h : IsPhrase condition tokens) : condition.hasOr = false := by
  induction h with
  | term h => exact h.isTight.2
  | and _ hr ih => simp [hasOr, ih, hr.isTight.2]

theorem IsPhrase.isCanonical (h : IsPhrase condition tokens) : condition.isCanonical = true := by
  induction h with
  | term h => exact h.isTight.isCanonical
  | and hl hr ih => exact isCanonical_and.2 ⟨hl.hasOr_eq_false, ih, hr.isTight⟩

theorem IsPhrase.of_flattens (h : Flattens Stands condition tokens)
    (hcanonical : condition.isCanonical = true) (hor : condition.hasOr = false) :
    IsPhrase condition tokens := by
  induction h with
  | truthy hx => exact .term (.truthy hx)
  | compare op hx hy => exact .term (.compare op hx hy)
  | not h _ => exact .term (.of_flattens (.not h) (isTight_of_isCanonical hcanonical hor rfl))
  | and _ hr ihl _ =>
    obtain ⟨hlor, hl, hright⟩ := isCanonical_and.1 hcanonical
    exact .and (ihl hl hlor) (.of_flattens hr hright)
  | or _ _ _ _ => simp [hasOr] at hor

theorem IsSentence.flattens (h : IsSentence condition tokens) :
    Flattens Stands condition tokens := by
  induction h with
  | phrase h => exact h.flattens
  | or _ hr ih => exact ih.or hr.flattens

theorem IsSentence.isCanonical (h : IsSentence condition tokens) :
    condition.isCanonical = true := by
  induction h with
  | phrase h => exact h.isCanonical
  | or _ hr ih => exact isCanonical_or.2 ⟨ih, hr.isCanonical, hr.hasOr_eq_false⟩

theorem IsSentence.of_flattens (h : Flattens Stands condition tokens)
    (hcanonical : condition.isCanonical = true) : IsSentence condition tokens := by
  induction h with
  | truthy hx => exact .phrase (.term (.truthy hx))
  | compare op hx hy => exact .phrase (.term (.compare op hx hy))
  | not h _ =>
    have hor := hasOr_eq_false_of_isCanonical hcanonical rfl
    exact .phrase (.of_flattens (.not h) hcanonical hor)
  | and hl hr _ _ =>
    have hor := hasOr_eq_false_of_isCanonical hcanonical rfl
    exact .phrase (.of_flattens (.and hl hr) hcanonical hor)
  | or _ hr ihl _ =>
    obtain ⟨hl, hright, hror⟩ := isCanonical_or.1 hcanonical
    exact .or (ihl hl) (.of_flattens hr hright hror)

/-- The conditions of sentences are the canonical ones, with the tokens they are made of. -/
theorem isSentence_iff :
    IsSentence condition tokens ↔
      Flattens Stands condition tokens ∧ condition.isCanonical = true :=
  ⟨fun h => ⟨h.flattens, h.isCanonical⟩, fun h => .of_flattens h.1 h.2⟩

/-! ## Sentences have conditions -/

namespace Grammar

theorem isKeyword_eq_false_iff {token : String} :
    isKeyword token = false ↔ token ∉ keywords := by
  have hsymbol : (Comparison.ofSymbol? token).isSome = true ↔
      ∃ op ∈ Comparison.all, op.symbol = token := by
    simp [Comparison.ofSymbol?, List.find?_isSome]
  rw [← Bool.not_eq_true]
  apply not_congr
  simp only [isKeyword, Bool.or_eq_true, beq_iff_eq, hsymbol]
  simp [keywords, Comparison.all, Comparison.symbol, eq_comm, or_assoc]

theorem exists_stands {token : String} :
    (∃ operand, Stands token operand) ↔ IsOperand token := by
  unfold Stands IsOperand
  rw [isKeyword_eq_false_iff]
  exact exists_and_left

theorem exists_isTerm : (∃ condition, IsTerm condition tokens) ↔ IsNegation tokens := by
  constructor
  · rintro ⟨condition, h⟩
    induction h with
    | truthy hx => exact .comparison (.operand (exists_stands.1 ⟨_, hx⟩))
    | compare op hx hy =>
      exact .comparison (.compare op (exists_stands.1 ⟨_, hx⟩) (exists_stands.1 ⟨_, hy⟩))
    | not _ ih => exact .not ih
  · intro h
    induction h with
    | comparison h =>
      cases h with
      | operand hx =>
        obtain ⟨x, hx⟩ := exists_stands.2 hx
        exact ⟨_, .truthy hx⟩
      | compare op hx hy =>
        obtain ⟨x, hx⟩ := exists_stands.2 hx
        obtain ⟨y, hy⟩ := exists_stands.2 hy
        exact ⟨_, .compare op hx hy⟩
    | not _ ih =>
      obtain ⟨condition, h⟩ := ih
      exact ⟨_, h.not⟩

theorem exists_isPhrase : (∃ condition, IsPhrase condition tokens) ↔ IsConjunction tokens := by
  constructor
  · rintro ⟨condition, h⟩
    induction h with
    | term h => exact .single (exists_isTerm.1 ⟨_, h⟩)
    | and _ hr ih => exact ih.concat (exists_isTerm.1 ⟨_, hr⟩)
  · intro h
    refine h.induction (motive := fun ts => ∃ condition, IsPhrase condition ts) ?_ ?_
    · intro phrase hphrase
      obtain ⟨condition, h⟩ := exists_isTerm.2 hphrase
      exact ⟨condition, .term h⟩
    · rintro before phrase ⟨left, hleft⟩ hphrase
      obtain ⟨right, hright⟩ := exists_isTerm.2 hphrase
      exact ⟨_, hleft.and hright⟩

theorem exists_isSentence : (∃ condition, IsSentence condition tokens) ↔ IsDisjunction tokens := by
  constructor
  · rintro ⟨condition, h⟩
    induction h with
    | phrase h => exact .single (exists_isPhrase.1 ⟨_, h⟩)
    | or _ hr ih => exact ih.concat (exists_isPhrase.1 ⟨_, hr⟩)
  · intro h
    refine h.induction (motive := fun ts => ∃ condition, IsSentence condition ts) ?_ ?_
    · intro phrase hphrase
      obtain ⟨condition, h⟩ := exists_isPhrase.2 hphrase
      exact ⟨condition, .phrase h⟩
    · rintro before phrase ⟨left, hleft⟩ hphrase
      obtain ⟨right, hright⟩ := exists_isPhrase.2 hphrase
      exact ⟨_, hleft.or hright⟩

end Grammar

end Interpolation.Condition
