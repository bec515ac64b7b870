import Interpolation.Tag.Basic
import Interpolation.Text.Ends

/-!
# The calls that a tag makes

Any compiler can be made to note its calls and its answers, also one whose answers depend on what it
was asked before.  A tag makes the calls of its plan one after another, up to the first that fails:
the condition, what stands in place of the value, and the value.  If none fails, these parts of the
tag are the answers.
-/

namespace Interpolation

open Compiler (Call Note)

/-! ## Calls one after another -/

section Run

variable {σ α β : Type} {first : ExceptT ParseError (StateM σ) α}
  {next : α → ExceptT ParseError (StateM σ) β} {state final : σ}

theorem run_bind_of_ok {a : α} (h : first.run.run state = (.ok a, final)) :
    (first >>= next).run.run state = (next a).run.run final := by
  rw [ExceptT.run_bind, StateT.run_bind, h]
  rfl

theorem run_bind_of_error {error : ParseError}
    (h : first.run.run state = (.error error, final)) :
    (first >>= next).run.run state = (.error error, final) := by
  rw [ExceptT.run_bind, StateT.run_bind, h]
  rfl

end Run

/-- The note tells of an answer at an origin. -/
inductive Compiler.Note.IsAnswer {ρ κ : Type} (origin : Option Origin) : Note ρ κ → Prop
  | operand (raw : String) (a : ρ) : IsAnswer origin (.operand raw origin (.ok a))
  | condition (tokens : List String) (a : κ) : IsAnswer origin (.condition tokens origin (.ok a))

/-- The note tells of a failure at an origin. -/
inductive Compiler.Note.IsFailure {ρ κ : Type} (origin : Option Origin) (error : ParseError) :
    Note ρ κ → Prop
  | operand (raw : String) : IsFailure origin error (.operand raw origin (.error error))
  | condition (tokens : List String) :
      IsFailure origin error (.condition tokens origin (.error error))

/-- The calls were made at an origin until one failed with the error of the result, or all of them
were made and answered, and the answers have led to the result. -/
inductive Answers {ρ κ α : Type} (origin : Option Origin) (post : List (Note ρ κ) → α → Prop)
    (calls : List Call) (notes : List (Note ρ κ)) (result : Except ParseError α) : Prop
  | all (a : α) (result_eq : result = .ok a) (calls_eq : calls = notes.map Note.call)
      (answers : ∀ note ∈ notes, note.IsAnswer origin) (holds : post notes a)
  | upTo (before : List (Note ρ κ)) (last : Note ρ κ) (after : List Call) (error : ParseError)
      (result_eq : result = .error error) (notes_eq : notes = before ++ [last])
      (calls_eq : calls = before.map Note.call ++ last.call :: after)
      (answers : ∀ note ∈ before, note.IsAnswer origin) (fails : last.IsFailure origin error)

/-- In every state, the first action does what the second does, and notes that it makes the
calls. -/
def Makes {σ ρ κ α : Type} (origin : Option Origin) (post : List (Note ρ κ) → α → Prop)
    (calls : List Call) (noting : ExceptT ParseError (StateM (σ × List (Note ρ κ))) α)
    (plain : ExceptT ParseError (StateM σ) α) : Prop :=
  ∀ state earlier, ∃ result final notes,
    noting.run.run (state, earlier) = (result, final, earlier ++ notes) ∧
    plain.run.run state = (result, final) ∧ Answers origin post calls notes result

section Makes

variable {σ ρ κ α β : Type} {origin : Option Origin} {calls others : List Call}

theorem makes_noted (note : Except ParseError α → Note ρ κ) {call : Call}
    (hcall : ∀ answer, (note answer).call = call) (hanswer : ∀ a, (note (.ok a)).IsAnswer origin)
    (hfailure : ∀ error, (note (.error error)).IsFailure origin error)
    (action : ExceptT ParseError (StateM σ) α) :
    Makes origin (fun notes a => notes = [note (.ok a)]) [call] (Compiler.noted note action)
      action := by
  intro state earlier
  rcases haction : action.run.run state with ⟨result, final⟩
  have hnoted : (Compiler.noted note action).run.run (state, earlier) =
      (result, final, earlier ++ [note result]) := by
    change ((action.run.run state).1, (action.run.run state).2,
      earlier ++ [note (action.run.run state).1]) = _
    rw [haction]
  refine ⟨result, final, _, hnoted, rfl, ?_⟩
  cases result with
  | ok a =>
    refine .all a rfl ?_ (List.forall_mem_singleton.2 (hanswer a)) rfl
    rw [List.map_singleton, hcall]
  | error error =>
    refine .upTo [] _ [] error rfl rfl ?_ (List.forall_mem_nil _) (hfailure error)
    rw [hcall]
    rfl

theorem makes_pure {a : α} {post : List (Note ρ κ) → α → Prop} (h : post [] a) :
    Makes origin post [] (pure a) (pure a : ExceptT ParseError (StateM σ) α) := by
  intro state earlier
  refine ⟨.ok a, state, [], ?_, rfl, .all a rfl rfl (List.forall_mem_nil _) h⟩
  rw [List.append_nil]
  rfl

theorem Makes.bind {post : List (Note ρ κ) → α → Prop} {post' : List (Note ρ κ) → β → Prop}
    {first : ExceptT ParseError (StateM (σ × List (Note ρ κ))) α}
    {first' : ExceptT ParseError (StateM σ) α}
    {next : α → ExceptT ParseError (StateM (σ × List (Note ρ κ))) β}
    {next' : α → ExceptT ParseError (StateM σ) β} (h : Makes origin post calls first first')
    (hnext : ∀ notes a, post notes a →
      Makes origin (fun more => post' (notes ++ more)) others (next a) (next' a)) :
    Makes origin post' (calls ++ others) (first >>= next) (first' >>= next') := by
  intro state earlier
  obtain ⟨result, final, notes, hfirst, hfirst', hanswers⟩ := h state earlier
  cases hanswers with
  | all a hresult hcalls hnotes hpost =>
    subst hresult
    obtain ⟨result, last, more, hrun, hrun', hanswers⟩ :=
      hnext notes a hpost final (earlier ++ notes)
    refine ⟨result, last, notes ++ more, ?_, ?_, ?_⟩
    · rw [run_bind_of_ok hfirst, hrun, List.append_assoc]
    · rw [run_bind_of_ok hfirst', hrun']
    · cases hanswers with
      | all b hresult hcalls' hmore hpost' =>
        refine .all b hresult ?_ (List.forall_mem_append.2 ⟨hnotes, hmore⟩) hpost'
        rw [hcalls, hcalls', List.map_append]
      | upTo before failed after error hresult hmore hcalls' hbefore hfails =>
        refine .upTo (notes ++ before) failed after error hresult ?_ ?_
          (List.forall_mem_append.2 ⟨hnotes, hbefore⟩) hfails
        · rw [hmore, List.append_assoc]
        · rw [hcalls, hcalls', List.map_append, List.append_assoc]
  | upTo before failed after error hresult hnotes hcalls hbefore hfails =>
    subst hresult
    refine ⟨.error error, final, notes, run_bind_of_error hfirst, run_bind_of_error hfirst', ?_⟩
    refine .upTo before failed (after ++ others) error rfl hnotes ?_ hbefore hfails
    rw [hcalls, List.append_assoc, List.cons_append]

end Makes

namespace Tag.Outline

variable {m : Type → Type} [Monad m] [LawfulMonad m] {ρ κ : Type} (compiler : Compiler m ρ κ)
  (origin : Option Origin) (value : String) (tokens : List String) (raw : String) (ignored : Nat)

theorem compile_plain :
    compile compiler origin ⟨value, none, ignored⟩ = do
      let shown ← compiler.operand value origin
      return { value := shown, branch := none, origin } := by
  simp [compile]

theorem compile_conditional :
    compile compiler origin ⟨value, some ⟨tokens, none⟩, ignored⟩ = do
      let condition ← compiler.condition tokens origin
      let shown ← compiler.operand value origin
      return { value := shown, branch := some { condition, otherwise := none }, origin } := by
  simp [compile]

theorem compile_choice :
    compile compiler origin ⟨value, some ⟨tokens, some raw⟩, ignored⟩ = do
      let condition ← compiler.condition tokens origin
      let other ← compiler.operand raw origin
      let shown ← compiler.operand value origin
      return { value := shown, branch := some { condition, otherwise := some other }, origin } := by
  simp [compile]

end Tag.Outline

/-! ## The plan of a tag -/

namespace Tag

variable {σ ρ κ : Type} {origin : Option Origin} {components : List String} {calls : List Call}

/-- The calls that a tag with the given components makes if none of them fails. -/
inductive Plan : List String → List Call → Prop
  | plain {value : String} {rest : List String} :
      rest.head? ≠ some "if" → Plan (value :: rest) [.operand value]
  | conditional {value : String} {tokens : List String} :
      "else" ∉ tokens → Plan (value :: "if" :: tokens) [.condition tokens, .operand value]
  | choice {value : String} {tokens rest : List String} :
      "else" ∉ tokens →
        Plan (value :: "if" :: (tokens ++ "else" :: rest))
          [.condition tokens, .operand (" ".intercalate rest), .operand value]

theorem exists_plan (h : components ≠ []) : ∃ calls, Plan components calls := by
  obtain ⟨value, rest, rfl⟩ := List.exists_cons_of_ne_nil h
  by_cases hif : rest.head? = some "if"
  · obtain ⟨tokens, rfl⟩ := List.head?_eq_some_iff.1 hif
    by_cases helse : "else" ∈ tokens
    · obtain ⟨condition, rest, rfl, hcondition⟩ := List.eq_append_cons_of_mem helse
      exact ⟨_, .choice hcondition⟩
    · exact ⟨_, .conditional helse⟩
  · exact ⟨_, .plain hif⟩

/-- The tag stands at the origin, and its parts are the answers that are noted: a condition and
something in place of the value where the components have them, and the value. -/
inductive IsMadeOf (origin : Option Origin) : List String → List (Note ρ κ) → Tag ρ κ → Prop
  | plain {value : String} {rest : List String} (shown : ρ) :
      rest.head? ≠ some "if" →
        IsMadeOf origin (value :: rest) [.operand value origin (.ok shown)]
          { value := shown, branch := none, origin }
  | conditional {value : String} {tokens : List String} (condition : κ) (shown : ρ) :
      "else" ∉ tokens →
        IsMadeOf origin (value :: "if" :: tokens)
          [.condition tokens origin (.ok condition), .operand value origin (.ok shown)]
          { value := shown, branch := some { condition, otherwise := none }, origin }
  | choice {value : String} {tokens rest : List String} (condition : κ) (other shown : ρ) :
      "else" ∉ tokens →
        IsMadeOf origin (value :: "if" :: (tokens ++ "else" :: rest))
          [.condition tokens origin (.ok condition),
            .operand (" ".intercalate rest) origin (.ok other),
            .operand value origin (.ok shown)]
          { value := shown, branch := some { condition, otherwise := some other }, origin }

theorem IsMadeOf.origin_eq {notes : List (Note ρ κ)} {tag : Tag ρ κ}
    (h : IsMadeOf origin components notes tag) : tag.origin = origin := by
  cases h <;> rfl

theorem IsMadeOf.branch_isSome_iff {notes : List (Note ρ κ)} {tag : Tag ρ κ}
    (h : IsMadeOf origin components notes tag) :
    tag.branch.isSome = true ↔ components[1]? = some "if" := by
  cases h with
  | plain shown hif => simp [← List.head?_eq_getElem?, hif]
  | conditional condition shown helse => simp
  | choice condition other shown helse => simp

theorem IsMadeOf.otherwise_isSome_iff {notes : List (Note ρ κ)} {tag : Tag ρ κ}
    (h : IsMadeOf origin components notes tag) :
    (tag.branch.bind Branch.otherwise).isSome = true ↔
      components[1]? = some "if" ∧ "else" ∈ components.drop 2 := by
  cases h with
  | plain shown hif => simp [← List.head?_eq_getElem?, hif]
  | conditional condition shown helse => simp [helse]
  | choice condition other shown helse => simp

theorem branchOf_else {condition : List String} (h : "else" ∉ condition) (rest : List String) :
    Outline.branchOf (condition ++ "else" :: rest) =
      ⟨condition, some (" ".intercalate rest)⟩ := by
  have hcondition : ∀ token ∈ condition, decide (token ≠ "else") = true := by
    intro token htoken
    exact decide_eq_true fun helse => h (helse ▸ htoken)
  have hrest : ∀ token ∈ ("else" :: rest).head?, decide (token ≠ "else") = false := by simp
  rw [Outline.branchOf, takeWhile_append_of_head hcondition hrest,
    dropWhile_append_of_head hcondition hrest]

theorem branchOf_of_not_mem {condition : List String} (h : "else" ∉ condition) :
    Outline.branchOf condition = ⟨condition, none⟩ := by
  have hcondition : ∀ token ∈ condition, decide (token ≠ "else") = true := by
    intro token htoken
    exact decide_eq_true fun helse => h (helse ▸ htoken)
  have hend : ∀ token ∈ ([] : List String).head?, decide (token ≠ "else") = false := by simp
  have htake := takeWhile_append_of_head hcondition hend
  have hdrop := dropWhile_append_of_head hcondition hend
  rw [List.append_nil] at htake hdrop
  rw [Outline.branchOf, htake, hdrop]

theorem ofComponents?_plain {value : String} {rest : List String} (h : rest.head? ≠ some "if") :
    Outline.ofComponents? (value :: rest) = some ⟨value, none, rest.length⟩ := by
  rw [Outline.ofComponents?]
  rintro tokens rfl
  exact h rfl

section

variable {m : Type → Type} [Monad m] [MonadExceptOf ParseError m] (compiler : Compiler m ρ κ)

theorem ofComponents_eq {outline : Outline} (h : Outline.ofComponents? components = some outline) :
    ofComponents compiler components origin = outline.compile compiler origin := by
  rw [ofComponents, h]

theorem ofComponents_plain [LawfulMonad m] {value : String} {rest : List String}
    (h : rest.head? ≠ some "if") :
    ofComponents compiler (value :: rest) origin = do
      let shown ← compiler.operand value origin
      return { value := shown, branch := none, origin } := by
  rw [ofComponents_eq compiler (ofComponents?_plain h), Outline.compile_plain]

theorem ofComponents_conditional [LawfulMonad m] {value : String} {tokens : List String}
    (h : "else" ∉ tokens) :
    ofComponents compiler (value :: "if" :: tokens) origin = do
      let condition ← compiler.condition tokens origin
      let shown ← compiler.operand value origin
      return { value := shown, branch := some { condition, otherwise := none }, origin } := by
  have houtline : Outline.ofComponents? (value :: "if" :: tokens) =
      some ⟨value, some ⟨tokens, none⟩, 0⟩ := by
    rw [Outline.ofComponents?, branchOf_of_not_mem h]
  rw [ofComponents_eq compiler houtline, Outline.compile_conditional]

theorem ofComponents_choice [LawfulMonad m] {value : String} {tokens rest : List String}
    (h : "else" ∉ tokens) :
    ofComponents compiler (value :: "if" :: (tokens ++ "else" :: rest)) origin = do
      let condition ← compiler.condition tokens origin
      let other ← compiler.operand (" ".intercalate rest) origin
      let shown ← compiler.operand value origin
      return { value := shown, branch := some { condition, otherwise := some other }, origin } := by
  have houtline : Outline.ofComponents? (value :: "if" :: (tokens ++ "else" :: rest)) =
      some ⟨value, some ⟨tokens, some (" ".intercalate rest)⟩, 0⟩ := by
    rw [Outline.ofComponents?, branchOf_else h]
  rw [ofComponents_eq compiler houtline, Outline.compile_choice]

end

section

variable (compiler : Compiler (ExceptT ParseError (StateM σ)) ρ κ)

theorem makes_operand (raw : String) :
    Makes origin (fun notes a => notes = [.operand raw origin (.ok a)]) [.operand raw]
      (compiler.noting.operand raw origin) (compiler.operand raw origin) :=
  makes_noted (.operand raw origin) (fun _ => rfl) (.operand raw) (fun _ => .operand raw) _

theorem makes_condition (tokens : List String) :
    Makes origin (fun notes a => notes = [.condition tokens origin (.ok a)]) [.condition tokens]
      (compiler.noting.condition tokens origin) (compiler.condition tokens origin) :=
  makes_noted (.condition tokens origin) (fun _ => rfl) (.condition tokens)
    (fun _ => .condition tokens) _

theorem makes_ofComponents (h : Plan components calls) :
    Makes origin (IsMadeOf origin components) calls
      (ofComponents compiler.noting components origin)
      (ofComponents compiler components origin) := by
  cases h with
  | @plain value rest hif =>
    rw [ofComponents_plain compiler.noting hif, ofComponents_plain compiler hif]
    refine (makes_operand compiler value).bind ?_
    rintro _ shown rfl
    exact makes_pure (.plain shown hif)
  | @conditional value tokens helse =>
    rw [ofComponents_conditional compiler.noting helse, ofComponents_conditional compiler helse]
    refine (makes_condition compiler tokens).bind ?_
    rintro _ condition rfl
    refine (makes_operand compiler value).bind ?_
    rintro _ shown rfl
    exact makes_pure (.conditional condition shown helse)
  | @choice value tokens rest helse =>
    rw [ofComponents_choice compiler.noting helse, ofComponents_choice compiler helse]
    refine (makes_condition compiler tokens).bind ?_
    rintro _ condition rfl
    refine (makes_operand compiler _).bind ?_
    rintro _ other rfl
    refine (makes_operand compiler value).bind ?_
    rintro _ shown rfl
    exact makes_pure (.choice condition other shown helse)

end

/-- A tag makes the calls of its plan, at its origin, until one fails; then the tag cannot be read,
with the error of that call.  If none fails, the parts of the tag are the answers, and it has a
condition and something in place of its value where its components have.  Without an `if` in second
place only the first component counts, and without any component nothing is called.  What the
compiler answers may depend on what it was asked before. -/
theorem ofComponents_makes_plan {σ ρ κ : Type}
    (compiler : Compiler (ExceptT ParseError (StateM σ)) ρ κ) (components : List String)
    (origin : Option Origin) (state : σ) :
    ∃ result final notes,
      (ofComponents compiler.noting components origin).run.run (state, []) =
        (result, final, notes) ∧
      (ofComponents compiler components origin).run.run state = (result, final) ∧
      (components = [] → notes = [] ∧ ∃ error, result = .error error ∧
        error.reason = "Missing variable name" ∧ error.origin = origin) ∧
      (components ≠ [] → ∃ calls, Plan components calls ∧
        Answers origin (IsMadeOf origin components) calls notes result) ∧
      (∀ tag, result = .ok tag → tag.origin = origin ∧
        (tag.branch.isSome = true ↔ components[1]? = some "if") ∧
        ((tag.branch.bind Branch.otherwise).isSome = true ↔
          components[1]? = some "if" ∧ "else" ∈ components.drop 2)) ∧
      (components[1]? ≠ some "if" →
        ofComponents compiler components origin =
          ofComponents compiler (components.take 1) origin) := by
  have htake (h : components[1]? ≠ some "if") :
      ofComponents compiler components origin =
        ofComponents compiler (components.take 1) origin := by
    cases components with
    | nil => rfl
    | cons value rest =>
      rw [List.getElem?_cons_succ, ← List.head?_eq_getElem?] at h
      rw [List.take_succ_cons, List.take_zero, ofComponents_plain compiler h,
        ofComponents_plain compiler (show ([] : List String).head? ≠ some "if" by simp)]
  by_cases hne : components = []
  · subst hne
    refine ⟨.error ⟨.noName, origin⟩, state, [], rfl, rfl, fun _ => ⟨rfl, _, rfl, rfl, rfl⟩,
      fun h => absurd rfl h, fun tag htag => ?_, htake⟩
    cases htag
  · obtain ⟨calls, hplan⟩ := exists_plan hne
    obtain ⟨result, final, notes, hnoting, hplain, hanswers⟩ :=
      @makes_ofComponents _ _ _ origin _ _ compiler hplan state []
    refine ⟨result, final, notes, hnoting, hplain, fun h => absurd h hne,
      fun _ => ⟨calls, hplan, hanswers⟩, fun tag htag => ?_, htake⟩
    cases hanswers with
    | upTo before last after error hresult hnotes hcalls hbefore hfails =>
      cases htag.symm.trans hresult
    | all other hresult hcalls hnotes hmade =>
      cases htag.symm.trans hresult
      exact ⟨hmade.origin_eq, hmade.branch_isSome_iff, hmade.otherwise_isSome_iff⟩

/-- A compiler that can read one operand, and no more. -/
def readingOnce : Compiler (ExceptT ParseError (StateM Bool)) String (List String) where
  operand raw origin :=
    .mk fun spent => (if spent then .error ⟨.noOperand, origin⟩ else .ok raw, true)
  condition tokens _ := pure tokens

theorem ofComponents_makes_plan_same_operand_twice :
    (∃ calls, Plan ["a", "if", "b", "else", "a"] calls ∧
      Answers none (IsMadeOf none ["a", "if", "b", "else", "a"]) calls
        [.condition ["b"] none (.ok ["b"]), .operand "a" none (.ok "a"),
          .operand "a" none (.error ⟨.noOperand, none⟩)]
        (.error ⟨.noOperand, none⟩ : Except ParseError (Tag String (List String)))) ∧
    ∃ calls, Plan ["a", "if", "b"] calls ∧
      Answers none (IsMadeOf none ["a", "if", "b"]) calls
        [.condition ["b"] none (.ok ["b"]), .operand "a" none (.ok "a")]
        (.ok ⟨"a", some ⟨["b"], none⟩, none⟩ : Except ParseError (Tag String (List String))) := by
  constructor
  · obtain ⟨result, final, notes, hnoting, -, -, hanswers, -⟩ :=
      ofComponents_makes_plan readingOnce ["a", "if", "b", "else", "a"] none false
    obtain ⟨calls, hplan, hanswers⟩ := hanswers (List.cons_ne_nil _ _)
    cases hnoting
    exact ⟨calls, hplan, hanswers⟩
  · obtain ⟨result, final, notes, hnoting, -, -, hanswers, -⟩ :=
      ofComponents_makes_plan readingOnce ["a", "if", "b"] none false
    obtain ⟨calls, hplan, hanswers⟩ := hanswers (List.cons_ne_nil _ _)
    cases hnoting
    exact ⟨calls, hplan, hanswers⟩

end Tag

end Interpolation
