import Interpolation.Proofs.Render.Parts

/-!
# The names of a template

A template reads a context through the first names of its paths alone.  Contexts that give these
names the same values are rendered alike (`AgreeOn`), so that nothing is lost when a context is cut
down to one scope with the bindings that the template can see (`Context.visible`).
-/

namespace Interpolation

/-! ## Names -/

/-- The name that an operand begins with, if it is a path. -/
def Operand.names : Operand → List String
  | .literal _ => []
  | .path p => [Path.root p]

/-- The names in the operands of a condition, whether they are evaluated or not. -/
def Condition.names : Condition → List String
  | .truthy operand => operand.names
  | .not condition => condition.names
  | .and left right | .or left right => left.names ++ right.names
  | .compare _ left right => left.names ++ right.names

/-- The names in a condition and in what is shown where it does not hold. -/
def Branch.names (branch : Branch Operand Condition) : List String :=
  branch.condition.names ++ branch.otherwise.toList.flatMap Operand.names

/-- The names in the value, the condition and the other value of a tag. -/
def Tag.names (tag : Tag Operand Condition) : List String :=
  tag.value.names ++ tag.branch.toList.flatMap Branch.names

/-- The names in a part. -/
def Part.names : Part → List String
  | .text .. => []
  | .tag t => t.names

namespace Context

/-- Two contexts give the same value, or none, to each of the names. -/
def AgreeOn (names : List String) (context other : Context) : Prop :=
  ∀ name ∈ names, context.get? name = other.get? name

theorem agreeOn_append {names others : List String} {context other : Context} :
    AgreeOn (names ++ others) context other ↔
      AgreeOn names context other ∧ AgreeOn others context other :=
  List.forall_mem_append

/-- A single scope with the values that a context gives to the names. -/
def visible (names : List String) (context : Context) : Context where
  innermost := names.filterMap fun name => (context.get? name).map (name, ·)

theorem get?_visible (names : List String) (context : Context) (name : String) :
    (context.visible names).get? name = if name ∈ names then context.get? name else none := by
  rw [get?_eq, visible, List.findSome?_nil, Option.or_none]
  induction names with
  | nil => rfl
  | cons first names ih =>
    cases hvalue : context.get? first with
    | none =>
      rw [List.filterMap_cons_none (by rw [hvalue]; rfl), ih]
      by_cases hname : name = first
      · subst hname
        rw [hvalue, ite_self, ite_self]
      · simp only [List.mem_cons, hname, false_or]
    | some value =>
      rw [List.filterMap_cons_some (by rw [hvalue]; rfl), Entries.lookup_cons, ih]
      by_cases hname : name = first
      · subst hname
        rw [if_pos rfl, if_pos List.mem_cons_self, hvalue]
      · simp only [List.mem_cons, hname, if_false, false_or]

theorem agreeOn_visible (names : List String) (context : Context) :
    AgreeOn names (context.visible names) context := by
  intro name hname
  rw [get?_visible, if_pos hname]

/-! ## Agreement -/

variable {context other : Context}

theorem AgreeOn.lookup?_eq {path : String} (h : AgreeOn [Path.root path] context other) :
    context.lookup? path = other.lookup? path := by
  rw [Context.lookup?_eq, Context.lookup?_eq, h _ List.mem_cons_self]

theorem AgreeOn.resolve_eq {operand : Operand} (h : AgreeOn operand.names context other) :
    operand.resolve context = operand.resolve other := by
  cases operand with
  | literal value => rfl
  | path p => exact h.lookup?_eq

theorem AgreeOn.eval_eq {condition : Condition} (h : AgreeOn condition.names context other) :
    condition.eval context = condition.eval other := by
  induction condition with
  | truthy operand => rw [Condition.eval, Condition.eval, AgreeOn.resolve_eq h]
  | not condition ih => rw [Condition.eval, Condition.eval, ih h]
  | and left right ihl ihr | or left right ihl ihr =>
    obtain ⟨hleft, hright⟩ := agreeOn_append.1 h
    rw [Condition.eval, Condition.eval, ihl hleft, ihr hright]
  | compare op left right =>
    obtain ⟨hleft, hright⟩ := agreeOn_append.1 h
    rw [Condition.eval, Condition.eval, AgreeOn.resolve_eq hleft, AgreeOn.resolve_eq hright]

theorem AgreeOn.render_resolved_eq {tag : Tag Operand Condition}
    (h : AgreeOn tag.names context other) :
    tag.resolved.render context = tag.resolved.render other := by
  obtain ⟨hvalue, hbranch⟩ := agreeOn_append.1 h
  rw [Tag.render_resolved, Tag.render_resolved, hvalue.resolve_eq]
  cases hcase : tag.branch with
  | none => rfl
  | some branch =>
    rw [hcase, Option.toList_some, List.flatMap_singleton] at hbranch
    obtain ⟨hcondition, hotherwise⟩ := agreeOn_append.1 hbranch
    have htest : branch.condition.test context = branch.condition.test other := by
      rw [Condition.test, Condition.test, hcondition.eval_eq]
    have helse : branch.otherwise.bind (Operand.resolve · context) =
        branch.otherwise.bind (Operand.resolve · other) := by
      cases hoperand : branch.otherwise with
      | none => rfl
      | some operand =>
        rw [hoperand, Option.toList_some, List.flatMap_singleton] at hotherwise
        exact hotherwise.resolve_eq
    dsimp only
    rw [htest, helse]

theorem AgreeOn.result_eq {part : Part} (h : AgreeOn part.names context other) :
    part.result context = part.result other := by
  cases part with
  | text source trimming origin => rfl
  | tag t => exact h.render_resolved_eq

theorem AgreeOn.renderFrom_eq {parts : List Part}
    (h : AgreeOn (parts.flatMap Part.names) context other) (index : Nat) :
    Node.renderFrom index (parts.map Part.toNode) context =
      Node.renderFrom index (parts.map Part.toNode) other := by
  induction parts generalizing index with
  | nil => rw [List.map_nil, Node.renderFrom, Node.renderFrom]
  | cons part parts ih =>
    rw [List.flatMap_cons] at h
    obtain ⟨hpart, hparts⟩ := agreeOn_append.1 h
    rw [List.map_cons, Node.renderFrom, Node.renderFrom, Part.render_toNode, Part.render_toNode,
      hpart.result_eq, ih hparts]

end Context

/-- Parts are rendered alike, with the same events and the same text or failure, in two contexts
that give the same values to the names in them; in place of any context there could be a single
scope with the values of these names. -/
theorem Part.renderAll_of_agreeOn_names (parts : List Part) :
    (∀ context other : Context, context.AgreeOn (parts.flatMap Part.names) other →
      Node.renderAll (parts.map Part.toNode) context =
        Node.renderAll (parts.map Part.toNode) other) ∧
    ∀ context : Context,
      Node.renderAll (parts.map Part.toNode) (context.visible (parts.flatMap Part.names)) =
        Node.renderAll (parts.map Part.toNode) context :=
  ⟨fun _ _ h => h.renderFrom_eq 0, fun context => (context.agreeOn_visible _).renderFrom_eq 0⟩

theorem Part.renderAll_of_agreeOn_names_shadowed :
    let user : Value := .map [("age", .text "36"), ("name", .text "Ada")]
    let parts : List Part := [.text "Hello " .nothing none, .tag {
      value := .path "user.name"
      branch := some {
        condition := .or (.compare .isIn (.literal (.text "ada")) (.path "friends"))
          (.compare .greater (.path "user.age") (.literal (.int 30)))
        otherwise := some (.path "guest") }
      origin := some .start }]
    let context : Context := { innermost := [("user", user), ("guest", .null)] }
    let other : Context := {
      innermost := [("name", .int 1)]
      enclosing := [[("guest", .null), ("user", user)], [], [("user", .null), ("age", .int 40)]] }
    context.AgreeOn (parts.flatMap Part.names) other ∧
      Node.renderAll (parts.map Part.toNode) context =
        Node.renderAll (parts.map Part.toNode) other := by
  intro user parts context other
  have hagree : context.AgreeOn (parts.flatMap Part.names) other := by
    have hnames : parts.flatMap Part.names = ["user", "friends", "user", "guest"] := by decide
    rw [hnames]
    intro name hname
    simp only [List.mem_cons, List.not_mem_nil, or_false] at hname
    rcases hname with rfl | rfl | rfl | rfl <;> rfl
  exact ⟨hagree, (Part.renderAll_of_agreeOn_names parts).1 context other hagree⟩

end Interpolation
