import Interpolation.Context
import Mathlib.Data.List.Induction

/-!
# The history of a context

A context is changed by bindings and by scopes that open and close.  What a name means is told by
the history of these changes alone: the latest binding of the name in the innermost scope that is
still open.  From the change that opens a scope to the one that closes it, nothing changes in the
scopes around it.
-/

namespace Interpolation

/-- A change to a context.  A scope with bindings lasts, as one without, up to the `pop` that
matches the change that opened it. -/
inductive Change
  | insert (name : String) (value : Value)
  | push
  | within (bindings : List (String × Value))
  | pop

namespace Change

/-- The context with one more change. -/
def apply (context : Context) : Change → Context
  | insert name value => context.insert name value
  | push => context.push
  | within bindings => context.within bindings
  | pop => context.pop

/-- Whether the change opens a scope. -/
def opens : Change → Bool
  | push | within _ => true
  | insert .. | pop => false

/-- What the change binds the name to. -/
def binding? (name : String) : Change → Option Value
  | insert other value => if name = other then some value else none
  | within bindings => bindings.reverse.lookup name
  | push | pop => none

/-- How many scopes are open after the change, if so many were open before it.  The last one is
never closed. -/
def depthAfter (depth : Nat) : Change → Nat
  | insert .. => depth
  | push | within _ => depth + 1
  | pop => max 1 (depth - 1)

/-- Whether the change closes a scope, unless it is the last one. -/
def closes : Change → Bool
  | pop => true
  | insert .. | push | within _ => false

theorem depth_apply (context : Context) (change : Change) :
    (change.apply context).depth = change.depthAfter context.depth := by
  cases change with
  | insert name value => rfl
  | push => rfl
  | within bindings => rfl
  | pop =>
    obtain ⟨innermost, _ | ⟨scope, enclosing⟩⟩ := context
    · rfl
    · simp [apply, Context.pop, Context.depth, Context.scopes, depthAfter]

end Change

/-! ## The times of a history -/

/-- Changes one after another. -/
abbrev History := List Change

namespace History

variable (history : History)

/-- How many scopes are open after so many changes of the history. -/
def depthAt (time : Nat) : Nat := (history.take time).foldl Change.depthAfter 1

/-- The scope that is innermost after the change at an index has been open ever since. -/
def IsOpen (index : Nat) : Prop :=
  ∀ time, index < time → time ≤ history.length →
    history.depthAt (index + 1) ≤ history.depthAt time

/-- The change at an index binds a name, in a scope that is still open. -/
structure Binds (name : String) (index : Nat) (value : Value) : Prop where
  binding : history[index]?.bind (Change.binding? name) = some value
  isOpen : history.IsOpen index

/-- The change at an index is the latest to bind a name in the innermost open scope that binds
it. -/
structure Decides (name : String) (index : Nat) (value : Value) : Prop
    extends history.Binds name index value where
  innermost : ∀ other v, history.Binds name other v →
    history.depthAt (other + 1) ≤ history.depthAt (index + 1)
  latest : ∀ other v, history.Binds name other v →
    history.depthAt (other + 1) = history.depthAt (index + 1) → other ≤ index

/-- How many changes of the history open a scope. -/
def opened : Nat := history.countP Change.opens

/-- How many changes of the history close a scope. -/
def closed : Nat := history.countP Change.closes

/-- No more scopes are closed than opened, and in the end as many. -/
structure IsBalanced : Prop where
  closed_le : ∀ start, start <+: history → closed start ≤ opened start
  closed_eq : history.closed = history.opened

theorem opened_cons (change : Change) (history : History) :
    opened (change :: history) = opened [change] + opened history := by
  rw [← List.singleton_append, opened, List.countP_append, ← opened, ← opened]

theorem closed_cons (change : Change) (history : History) :
    closed (change :: history) = closed [change] + closed history := by
  rw [← List.singleton_append, closed, List.countP_append, ← closed, ← closed]

end History

namespace Context

/-- The context after a history of changes. -/
def run (context : Context) (history : History) : Context := history.foldl Change.apply context

/-- A context as it is made: without bindings, or with the members of a JSON object. -/
inductive IsFresh : Context → Prop
  | empty : IsFresh .empty
  | ofJson {ν : Type} [JsonNumber ν] {json : Json ν} {context : Context} :
      ofJson? json = some context → IsFresh context

theorem run_concat (context : Context) (history : History) (change : Change) :
    context.run (history ++ [change]) = change.apply (context.run history) := by
  simp [run]

theorem run_append (context : Context) (history others : History) :
    context.run (history ++ others) = (context.run history).run others := by
  simp [run]

theorem IsFresh.depth_eq_one {context : Context} (h : context.IsFresh) : context.depth = 1 := by
  cases h with
  | empty => rfl
  | ofJson h =>
    unfold ofJson? at h
    split at h
    · cases h
      rfl
    · cases h

/-! ## Scopes that open and close -/

/-- Scopes `outer` around the innermost ones are not touched by a change that does not close the
last of these. -/
theorem scopes_apply {context : Context} {inner outer : List Scope} {change : Change}
    (h : context.scopes = inner ++ outer) (hne : inner ≠ [])
    (hchange : change = .pop → 1 < inner.length) :
    ∃ inner', (change.apply context).scopes = inner' ++ outer ∧
      inner'.length + History.closed [change] = inner.length + History.opened [change] := by
  obtain ⟨scope, inner, rfl⟩ := List.exists_cons_of_ne_nil hne
  obtain ⟨innermost, enclosing⟩ := context
  obtain ⟨rfl, rfl⟩ := List.cons.inj h
  cases change with
  | insert name value => exact ⟨((name, value) :: innermost) :: inner, rfl, rfl⟩
  | push => exact ⟨[] :: innermost :: inner, rfl, rfl⟩
  | within bindings => exact ⟨Scope.ofBindings bindings :: innermost :: inner, rfl, rfl⟩
  | pop =>
    obtain _ | ⟨next, inner⟩ := inner
    · exact absurd (hchange rfl) (Nat.lt_irrefl 1)
    · exact ⟨next :: inner, rfl, rfl⟩

/-- The same of changes one after another, none of which closes the last of the innermost scopes. -/
theorem scopes_run {context : Context} {inner outer : List Scope} {history : History}
    (h : context.scopes = inner ++ outer)
    (hhistory : ∀ start, start <+: history →
      History.closed start < inner.length + History.opened start) :
    ∃ inner', (context.run history).scopes = inner' ++ outer ∧
      inner'.length + history.closed = inner.length + history.opened := by
  induction history generalizing context inner with
  | nil => exact ⟨inner, h, rfl⟩
  | cons change history ih =>
    have hne : inner ≠ [] := by
      rintro rfl
      exact absurd (hhistory [] List.nil_prefix) (Nat.lt_irrefl 0)
    have hchange : change = .pop → 1 < inner.length := by
      rintro rfl
      exact hhistory [.pop] ((List.prefix_cons_inj _).2 List.nil_prefix)
    obtain ⟨middle, hmiddle, hlength⟩ := scopes_apply h hne hchange
    have hrest : ∀ start, start <+: history →
        History.closed start < middle.length + History.opened start := by
      intro start hstart
      have hlt := hhistory (change :: start) ((List.prefix_cons_inj change).2 hstart)
      rw [History.closed_cons, History.opened_cons] at hlt
      omega
    obtain ⟨inner', hinner', hlength'⟩ := ih hmiddle hrest
    refine ⟨inner', hinner', ?_⟩
    rw [History.closed_cons, History.opened_cons]
    omega

theorem pop_of_depth_eq_one {context : Context} (h : context.depth = 1) : context.pop = context := by
  obtain ⟨innermost, _ | ⟨scope, enclosing⟩⟩ := context
  · rfl
  · cases h

theorem pop_of_scopes {context outer : Context} {scope : Scope}
    (h : context.scopes = scope :: outer.scopes) : context.pop = outer := by
  obtain ⟨innermost, enclosing⟩ := context
  obtain ⟨rfl, rfl⟩ := List.cons.inj h
  rfl

/-- What opens a scope and what closes it leave the context as it was, whatever happens in
between. -/
theorem run_scope (context : Context) {opening : Change} {inside : History}
    (hopening : opening.opens) (hinside : inside.IsBalanced) :
    context.run (opening :: inside ++ [.pop]) = context := by
  obtain ⟨scope, hscope⟩ : ∃ scope, (opening.apply context).scopes = [scope] ++ context.scopes := by
    cases opening with
    | insert name value => cases hopening
    | push => exact ⟨[], rfl⟩
    | within bindings => exact ⟨Scope.ofBindings bindings, rfl⟩
    | pop => cases hopening
  obtain ⟨inner, hinner, hlength⟩ := scopes_run hscope fun start hstart => by
    have hle := hinside.closed_le start hstart
    rw [List.length_singleton]
    omega
  rw [hinside.closed_eq, List.length_singleton, Nat.add_right_cancel_iff] at hlength
  obtain ⟨last, rfl⟩ := List.length_eq_one_iff.1 hlength
  rw [run_concat]
  exact pop_of_scopes hinner

/-! ## Names -/

/-- The value of a name in the outermost of some scopes, so many of them. -/
def outermost? (scopes : List Scope) (depth : Nat) (name : String) : Option Value :=
  (scopes.drop (scopes.length - depth)).findSome? fun scope => scope.lookup name

/-- The innermost scope is either left out or looked at first. -/
theorem outermost?_cons (scope : Scope) (scopes : List Scope) (depth : Nat) (name : String) :
    outermost? (scope :: scopes) depth name =
      (if depth ≤ scopes.length then none else scope.lookup name).or
        (outermost? scopes depth name) := by
  rw [outermost?, outermost?, List.length_cons]
  split
  · next hle => rw [Nat.succ_sub hle, List.drop_succ_cons, Option.none_or]
  · next hlt =>
    have hall : scopes.length + 1 - depth = 0 := by omega
    have hall' : scopes.length - depth = 0 := by omega
    rw [hall, hall', List.drop_zero, List.drop_zero, List.findSome?_cons]
    cases scope.lookup name <;> rfl

theorem outermost?_scopes (context : Context) (name : String) :
    outermost? context.scopes context.depth name = context.get? name := by
  rw [outermost?, depth, Nat.sub_self, List.drop_zero, get?]

theorem outermost?_min (context : Context) (depth : Nat) (name : String) :
    outermost? context.scopes (min depth context.depth) name =
      outermost? context.scopes depth name := by
  have hdrop : context.scopes.length - min depth context.scopes.length =
      context.scopes.length - depth := by omega
  rw [outermost?, Context.depth, hdrop, outermost?]

/-- What one change does to the value of a name: only the innermost scope can bind it anew. -/
theorem outermost?_apply (context : Context) (change : Change) (name : String) {depth : Nat}
    (h : depth ≤ (change.apply context).depth) :
    outermost? (change.apply context).scopes depth name =
      (if depth = (change.apply context).depth then change.binding? name else none).or
        (outermost? context.scopes depth name) := by
  obtain ⟨innermost, enclosing⟩ := context
  cases change with
  | insert other value =>
    have hle : depth ≤ enclosing.length + 1 := h
    change outermost? (((other, value) :: innermost) :: enclosing) depth name =
      (if depth = enclosing.length + 1 then _ else none).or
        (outermost? (innermost :: enclosing) depth name)
    rw [outermost?_cons, outermost?_cons, Entries.lookup_cons, Change.binding?]
    grind
  | push =>
    change outermost? ([] :: innermost :: enclosing) depth name = _
    rw [outermost?_cons]
    simp [Change.binding?, scopes]
  | within bindings =>
    have hle : depth ≤ enclosing.length + 2 := h
    change outermost? (bindings.reverse :: innermost :: enclosing) depth name =
      (if depth = enclosing.length + 2 then _ else none).or
        (outermost? (innermost :: enclosing) depth name)
    rw [outermost?_cons, Change.binding?]
    grind
  | pop =>
    rw [Change.binding?, ite_self, Option.none_or]
    obtain _ | ⟨scope, enclosing⟩ := enclosing
    · rfl
    · have hle : depth ≤ (scope :: enclosing).length := h
      exact ((outermost?_cons innermost _ depth name).trans (by rw [if_pos hle]; rfl)).symm

end Context

/-! ## One more change -/

namespace History

variable {history : History} {change : Change} {name : String} {index : Nat} {value : Value}

theorem depthAt_concat_of_le {time : Nat} (h : time ≤ history.length) (change : Change) :
    depthAt (history ++ [change]) time = depthAt history time := by
  rw [depthAt, depthAt, List.take_append_of_le_length h]

theorem depthAt_concat_length (history : History) (change : Change) :
    depthAt (history ++ [change]) (history.length + 1) =
      change.depthAfter (history.depthAt history.length) := by
  have hall : (history ++ [change]).take (history.length + 1) = history ++ [change] :=
    List.take_of_length_le (by simp)
  rw [depthAt, depthAt, hall, List.take_length, List.foldl_append]
  rfl

theorem Binds.lt_length (h : history.Binds name index value) : index < history.length := by
  rw [← Nat.not_le]
  intro hle
  have hbinding := h.binding
  rw [List.getElem?_eq_none hle] at hbinding
  cases hbinding

theorem Binds.depthAt_le (h : history.Binds name index value) :
    history.depthAt (index + 1) ≤ history.depthAt history.length :=
  h.isOpen _ h.lt_length (Nat.le_refl _)

/-- An earlier binding in an open scope is no further in than a later one. -/
theorem Binds.depthAt_mono {other : Nat} {v : Value} (h : history.Binds name index value)
    (hother : history.Binds name other v) (hle : index ≤ other) :
    history.depthAt (index + 1) ≤ history.depthAt (other + 1) :=
  h.isOpen _ (Nat.lt_succ_of_le hle) hother.lt_length

theorem binds_concat_iff :
    Binds (history ++ [change]) name index value ↔
      (history.Binds name index value ∧
        history.depthAt (index + 1) ≤ depthAt (history ++ [change]) (history.length + 1)) ∨
      index = history.length ∧ change.binding? name = some value := by
  constructor
  · intro h
    have hlt := h.lt_length
    rw [List.length_append, List.length_singleton] at hlt
    have hbinding := h.binding
    rcases Nat.lt_or_eq_of_le (Nat.le_of_lt_succ hlt) with hindex | rfl
    · refine .inl ⟨⟨?_, fun time hindex' htime => ?_⟩, ?_⟩
      · rwa [List.getElem?_append_left hindex] at hbinding
      · have hopen := h.isOpen time hindex' (by simp; omega)
        rwa [depthAt_concat_of_le hindex, depthAt_concat_of_le htime] at hopen
      · have hopen := h.isOpen (history.length + 1) (by omega) (by simp)
        rwa [depthAt_concat_of_le hindex] at hopen
    · rw [List.getElem?_concat_length] at hbinding
      exact .inr ⟨rfl, hbinding⟩
  · rintro (⟨h, hdepth⟩ | ⟨rfl, hbinding⟩)
    · have hindex : index + 1 ≤ history.length := h.lt_length
      refine ⟨?_, fun time hindex' htime => ?_⟩
      · rw [List.getElem?_append_left hindex]
        exact h.binding
      · rw [List.length_append, List.length_singleton] at htime
        rw [depthAt_concat_of_le hindex]
        rcases Nat.lt_or_eq_of_le htime with hlt | rfl
        · rw [depthAt_concat_of_le (Nat.le_of_lt_succ hlt)]
          exact h.isOpen time hindex' (Nat.le_of_lt_succ hlt)
        · exact hdepth
    · refine ⟨?_, fun time hindex htime => ?_⟩
      · rw [List.getElem?_concat_length]
        exact hbinding
      · rw [List.length_append, List.length_singleton] at htime
        obtain rfl : time = history.length + 1 := Nat.le_antisymm htime hindex
        exact Nat.le_refl _

/-- The change at an index binds a name in one of the outermost scopes, so many of them, which is
still open. -/
structure BindsUpTo (history : History) (depth : Nat) (name : String) (index : Nat) (value : Value) :
    Prop extends history.Binds name index value where
  depthAt_le : history.depthAt (index + 1) ≤ depth

theorem bindsUpTo_min_iff {depth : Nat} :
    history.BindsUpTo (min depth (history.depthAt history.length)) name index value ↔
      history.BindsUpTo depth name index value :=
  ⟨fun h => ⟨h.toBinds, Nat.le_trans h.depthAt_le (Nat.min_le_left _ _)⟩,
    fun h => ⟨h.toBinds, Nat.le_min.2 ⟨h.depthAt_le, h.toBinds.depthAt_le⟩⟩⟩

theorem bindsUpTo_concat_iff {depth : Nat}
    (hdepth : depth ≤ depthAt (history ++ [change]) (history.length + 1)) :
    BindsUpTo (history ++ [change]) depth name index value ↔
      history.BindsUpTo depth name index value ∨
      index = history.length ∧ depth = depthAt (history ++ [change]) (history.length + 1) ∧
        change.binding? name = some value := by
  constructor
  · rintro ⟨hbinds, hle⟩
    rcases binds_concat_iff.1 hbinds with ⟨hold, -⟩ | ⟨rfl, hbinding⟩
    · rw [depthAt_concat_of_le hold.lt_length] at hle
      exact .inl ⟨hold, hle⟩
    · exact .inr ⟨rfl, Nat.le_antisymm hdepth hle, hbinding⟩
  · rintro (⟨hold, hle⟩ | ⟨rfl, rfl, hbinding⟩)
    · refine ⟨binds_concat_iff.2 (.inl ⟨hold, Nat.le_trans hle hdepth⟩), ?_⟩
      rwa [depthAt_concat_of_le hold.lt_length]
    · exact ⟨binds_concat_iff.2 (.inr ⟨rfl, hbinding⟩), Nat.le_refl _⟩

/-- Only a binding in the last of these scopes is a new one. -/
theorem bindsUpTo_concat_of_unbound {depth : Nat}
    (hdepth : depth ≤ depthAt (history ++ [change]) (history.length + 1))
    (h : depth = depthAt (history ++ [change]) (history.length + 1) →
      change.binding? name = none) :
    BindsUpTo (history ++ [change]) depth name index value ↔
      history.BindsUpTo depth name index value := by
  rw [bindsUpTo_concat_iff hdepth, or_iff_left]
  rintro ⟨-, hfull, hvalue⟩
  rw [h hfull] at hvalue
  cases hvalue

end History

namespace Context

theorem depth_run {context : Context} (h : context.depth = 1) (history : History) :
    (context.run history).depth = history.depthAt history.length := by
  induction history using List.reverseRecOn with
  | nil => exact h
  | append_singleton history change ih =>
    rw [run_concat, Change.depth_apply, ih, List.length_append, List.length_singleton,
      History.depthAt_concat_length]

/-- The outermost scopes, however many, bind a name to what the latest change does that is in one of
them; if there is none, the name means what it did before the history. -/
theorem exists_latest {context : Context} (hcontext : context.depth = 1) (history : History)
    (name : String) {depth : Nat} (hpos : 0 < depth) (hdepth : depth ≤ (context.run history).depth) :
    (∃ index value, history.BindsUpTo depth name index value ∧
      (∀ other v, history.BindsUpTo depth name other v → other ≤ index) ∧
      outermost? (context.run history).scopes depth name = some value) ∨
    (∀ index value, ¬ history.BindsUpTo depth name index value) ∧
      outermost? (context.run history).scopes depth name = context.get? name := by
  induction history using List.reverseRecOn generalizing depth with
  | nil =>
    have hone : depth = context.depth := by
      rw [hcontext]
      exact Nat.le_antisymm (hcontext ▸ hdepth) hpos
    refine .inr ⟨fun index value h => absurd h.lt_length (Nat.not_lt_zero index), ?_⟩
    rw [hone]
    exact outermost?_scopes context name
  | append_singleton history change ih =>
    have hnew : (context.run (history ++ [change])).depth =
        History.depthAt (history ++ [change]) (history.length + 1) := by
      rw [depth_run hcontext, List.length_append, List.length_singleton]
    have hopen : depth ≤ (change.apply (context.run history)).depth := by
      rwa [← run_concat]
    have hscopes := outermost?_apply (context.run history) change name hopen
    rw [← run_concat, hnew] at hscopes
    rw [hnew] at hdepth
    by_cases hunbound : depth = History.depthAt (history ++ [change]) (history.length + 1) →
        change.binding? name = none
    · have hbefore := @ih (min depth (context.run history).depth)
        (Nat.lt_min.2 ⟨hpos, depth_pos _⟩) (Nat.min_le_right _ _)
      rw [outermost?_min, depth_run hcontext] at hbefore
      simp only [History.bindsUpTo_min_iff] at hbefore
      rw [hscopes, ite_eq_right_iff.2 hunbound, Option.none_or]
      simp only [History.bindsUpTo_concat_of_unbound hdepth hunbound]
      exact hbefore
    · obtain ⟨hfull, hbound⟩ := Classical.not_imp.1 hunbound
      obtain ⟨value, hvalue⟩ := Option.ne_none_iff_exists'.1 hbound
      refine .inl ⟨history.length, value,
        (History.bindsUpTo_concat_iff hdepth).2 (.inr ⟨rfl, hfull, hvalue⟩), ?_, ?_⟩
      · intro other v hother
        have hlt := hother.lt_length
        rw [List.length_append, List.length_singleton] at hlt
        exact Nat.le_of_lt_succ hlt
      · rw [hscopes, if_pos hfull, hvalue, Option.some_or]

/-- There is always an open scope, and the last one is not closed.  A name has the value of the
latest binding in the innermost open scope that binds it, or else the value it had before, and no
binding in a scope that has been closed counts.  What happens from the change that opens a scope to
the one that closes it leaves no trace, nor does a function that is run within a scope: it sees the
scope as `Change.within` opens it, and the context is then as after the `pop` that closes it. -/
theorem run_latest_binding_and_restored {context : Context} (h : context.IsFresh)
    (history : History) :
    (1 ≤ (context.run history).depth ∧
      (context.run history).depth = history.depthAt history.length) ∧
    ((context.run history).depth = 1 → (context.run history).pop = context.run history) ∧
    (∀ name,
      (∃ index value, history.Decides name index value ∧
        (context.run history).get? name = some value) ∨
      (∀ index value, ¬ history.Binds name index value) ∧
        (context.run history).get? name = context.get? name) ∧
    (∀ before opening inside after, history = before ++ (opening :: inside ++ [.pop]) ++ after →
      opening.opens → History.IsBalanced inside →
      context.run (before ++ (opening :: inside ++ [.pop])) = context.run before) ∧
    ∀ (bindings : List (String × Value)) (α : Type) (f : Context → α),
      (context.run history).withScope bindings f =
          (f (context.run (history ++ [.within bindings])),
            context.run (history ++ [.within bindings, .pop])) ∧
        context.run (history ++ [.within bindings, .pop]) = context.run history := by
  have hdepth := depth_run h.depth_eq_one history
  refine ⟨⟨depth_pos _, hdepth⟩, pop_of_depth_eq_one, fun name => ?_, ?_, ?_⟩
  · have hlatest := exists_latest h.depth_eq_one history name (depth_pos (context.run history))
      (Nat.le_refl _)
    rw [outermost?_scopes, hdepth] at hlatest
    rcases hlatest with ⟨index, value, hbinds, hlast, hvalue⟩ | ⟨hnone, hvalue⟩
    · have hle : ∀ other v, history.Binds name other v → other ≤ index :=
        fun other v hother => hlast other v ⟨hother, hother.depthAt_le⟩
      exact .inl ⟨index, value, ⟨hbinds.toBinds,
        fun other v hother => hother.depthAt_mono hbinds.toBinds (hle other v hother),
        fun other v hother _ => hle other v hother⟩, hvalue⟩
    · exact .inr ⟨fun index value hbinds => hnone index value ⟨hbinds, hbinds.depthAt_le⟩, hvalue⟩
  · rintro before opening inside after - hopening hinside
    rw [run_append, run_scope _ hopening hinside]
  · intro bindings α f
    rw [run_append, run_append, withScope_eq]
    exact ⟨rfl, pop_within _ bindings⟩

theorem run_latest_binding_and_restored_after_pop_of_last :
    let json : Json StoredNumber := .object [("y", .bool true), ("x", .number (.natural 1))]
    let context : Context := { innermost := [("x", .int 1), ("y", .bool true)] }
    let inside : History := [.push, .insert "x" .null, .pop, .insert "y" .null]
    let scope : History := .within [("x", .int 2), ("x", .int 3)] :: inside ++ [.pop]
    let history : History :=
      [.pop] ++ scope ++ [.push, .insert "x" (.int 4), .push, .insert "x" (.int 5), .pop]
    ofJson? json = some context ∧
      (context.run history).depth = 2 ∧
      (∃ index value, history.Decides "x" index value ∧
        (context.run history).get? "x" = some value) ∧
      context.run ([.pop] ++ scope) = context.run [.pop] := by
  intro json context inside scope history
  have hfresh : ofJson? json = some context := rfl
  have hbalanced : inside.IsBalanced := by
    refine ⟨fun start hstart => ?_, rfl⟩
    have hclosed : ∀ n ≤ 4, History.closed (inside.take n) ≤ History.opened (inside.take n) := by
      decide
    rw [List.prefix_iff_eq_take.1 hstart]
    exact hclosed start.length hstart.length_le
  have hopen : ∀ time ≤ history.length, 8 < time → history.depthAt 9 ≤ history.depthAt time := by
    decide
  have hbinds : history.Binds "x" 8 (.int 4) := ⟨rfl, fun time hlt hle => hopen time hle hlt⟩
  obtain ⟨⟨-, hdepth⟩, -, hget, hscope, -⟩ :=
    run_latest_binding_and_restored (.ofJson hfresh) history
  exact ⟨hfresh, hdepth, (hget "x").resolve_right fun hnone => hnone.1 8 (.int 4) hbinds,
    hscope [.pop] _ inside _ rfl rfl hbalanced⟩

end Context

end Interpolation
