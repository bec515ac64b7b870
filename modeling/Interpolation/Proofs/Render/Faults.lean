import Interpolation.Proofs.Condition.Checks
import Interpolation.Proofs.Failure
import Interpolation.Proofs.Render.Parts

/-!
# The only way in which parts fail

A list of parts fails if and only if a condition in it makes a faulty comparison: an ordering of
values that are not both numbers.  The first part with such a condition gives the place of the
failure, and the first such comparison in it the reason.
-/

namespace Interpolation

/-- The comparisons that the condition of the part makes, if it has one. -/
def Part.checks (part : Part) (context : Context) : List Check :=
  match part with
  | .text .. => []
  | .tag t => t.branch.toList.flatMap (·.condition.checks context)

/-- The comparisons in the condition of the part, whether they are made or not. -/
def Part.comparisons : Part → List Comparison
  | .text .. => []
  | .tag t => t.branch.toList.flatMap (·.condition.comparisons)

namespace Part

theorem op_mem_comparisons {part : Part} {context : Context} {check : Check}
    (h : check ∈ part.checks context) : check.op ∈ part.comparisons := by
  cases part with
  | text source trimming origin => cases h
  | tag t =>
    obtain ⟨branch, hbranch, hcheck⟩ := List.mem_flatMap.1 h
    exact List.mem_flatMap.2 ⟨branch, hbranch, Condition.op_mem_comparisons hcheck⟩

/-- A part fails at the first faulty comparison that it makes, and gives a text if there is none. -/
theorem result_eq_of_find? (part : Part) (context : Context) :
    match (part.checks context).find? Check.isFaulty with
    | some check => part.result context = .error ⟨.notNumeric check.op, none⟩
    | none => ∃ text, part.result context = .ok text := by
  cases part with
  | text source trimming origin => exact ⟨_, rfl⟩
  | tag t =>
    rw [result, Tag.render_resolved, checks]
    cases t.branch with
    | none => exact ⟨_, rfl⟩
    | some branch =>
      rw [Option.toList_some, List.flatMap_singleton]
      dsimp only
      rw [Condition.test, Condition.eval_eq]
      cases (branch.condition.checks context).find? Check.isFaulty with
      | none => exact ⟨_, rfl⟩
      | some check => rfl

theorem result_eq_error {part : Part} {context : Context} {before after : List Check}
    {check : Check} (h : part.checks context = before ++ check :: after)
    (hbefore : ∀ earlier ∈ before, earlier.isFaulty = false) (hcheck : check.isFaulty = true) :
    part.result context = .error ⟨.notNumeric check.op, none⟩ := by
  have hfind : (part.checks context).find? Check.isFaulty = some check := by
    refine List.find?_eq_some_iff_append.2 ⟨hcheck, before, after, h, fun earlier hearlier => ?_⟩
    rw [hbefore earlier hearlier]
    rfl
  have hresult := part.result_eq_of_find? context
  rw [hfind] at hresult
  exact hresult

/-- The outcome of the part in a list, where a failure is placed at it. -/
def outcome (context : Context) (part : Part) : Outcome :=
  Outcome.orAt part.origin (part.result context)

theorem exists_outcome_eq_ok_iff (part : Part) (context : Context) :
    (∃ text, part.outcome context = .ok text) ↔
      ∀ check ∈ part.checks context, check.isFaulty = false := by
  have hresult := part.result_eq_of_find? context
  rw [outcome]
  cases hfind : (part.checks context).find? Check.isFaulty with
  | some check =>
    rw [hfind] at hresult
    have hfaulty : check.isFaulty = true := List.find?_some hfind
    constructor
    · rintro ⟨text, htext⟩
      rw [hresult] at htext
      cases htext
    · intro h
      rw [h check (List.mem_of_find?_eq_some hfind)] at hfaulty
      cases hfaulty
  | none =>
    rw [hfind] at hresult
    obtain ⟨text, htext⟩ := hresult
    constructor
    · intro _ check hcheck
      exact Bool.eq_false_iff.2 (List.find?_eq_none.1 hfind check hcheck)
    · intro _
      exact ⟨text, by rw [htext]; rfl⟩

variable (parts : List Part) (context : Context)

theorem result_renderAll_parts :
    (Node.renderAll (parts.map toNode) context).result =
      Outcome.joinAll (parts.map (outcome context)) :=
  result_renderFrom parts 0 context

theorem exists_result_renderAll_eq_ok_iff :
    (∃ text, (Node.renderAll (parts.map toNode) context).result = .ok text) ↔
      ∀ part ∈ parts, ∀ check ∈ part.checks context, check.isFaulty = false := by
  rw [result_renderAll_parts, Outcome.joinAll_eq_ok_iff, List.forall_mem_map]
  simp only [exists_outcome_eq_ok_iff]

/-- Parts fail if and only if a condition in them, read from left to right and no further than it
takes to decide it, orders values that are not both numbers.  The failure names the first such
comparison of the first such part, and has the place of that part.  Without an ordering in any
condition there is no failure. -/
theorem renderAll_fails_iff_faulty :
    ((∃ error, (Node.renderAll (parts.map toNode) context).result = .error error) ↔
      ∃ part ∈ parts, ∃ check ∈ part.checks context, check.isFaulty = true) ∧
    (∀ before part after checks check others, parts = before ++ part :: after →
      part.checks context = checks ++ check :: others →
      (∀ earlier ∈ before, ∀ c ∈ earlier.checks context, c.isFaulty = false) →
      (∀ c ∈ checks, c.isFaulty = false) → check.isFaulty = true →
      ∃ error : RenderError,
        (Node.renderAll (parts.map toNode) context).result = .error error ∧
          error.reason = "'" ++ check.op.symbol ++ "' requires numeric operands" ∧
          error.origin = part.origin) ∧
    ((∀ part ∈ parts, ∀ op ∈ part.comparisons, op.isOrdering = false) →
      ∃ text, (Node.renderAll (parts.map toNode) context).result = .ok text) := by
  refine ⟨?_, ?_, fun h => ?_⟩
  · have hfails : (∃ error, (Node.renderAll (parts.map toNode) context).result = .error error) ↔
        ¬ ∃ text, (Node.renderAll (parts.map toNode) context).result = .ok text := by
      cases (Node.renderAll (parts.map toNode) context).result <;> simp
    rw [hfails, exists_result_renderAll_eq_ok_iff]
    simp
  · intro before part after checks check others hparts hchecks hbefore hearlier hcheck
    refine ⟨⟨.notNumeric check.op, part.origin⟩, ?_, RenderFault.reason_notNumeric check.op, rfl⟩
    rw [result_renderAll_parts, hparts, List.map_append, List.map_cons, outcome,
      result_eq_error hchecks hearlier hcheck]
    refine Outcome.joinAll_of_failure fun outcome houtcome => ?_
    obtain ⟨earlier, hmem, rfl⟩ := List.mem_map.1 houtcome
    exact (exists_outcome_eq_ok_iff earlier context).2 (hbefore earlier hmem)
  · rw [exists_result_renderAll_eq_ok_iff]
    intro part hpart check hcheck
    rw [Check.isFaulty, h part hpart check.op (op_mem_comparisons hcheck), Bool.false_and]

theorem renderAll_fails_iff_faulty_second_tag :
    let context : Context := { innermost := [("name", .text "Ada"), ("n", .int 4)] }
    let skipped : Part := .tag {
      value := .path "name"
      branch := some {
        condition := .and (.truthy (.path "missing")) (.compare .less (.path "name") (.path "n"))
        otherwise := none } }
    let failing : Part := .tag {
      value := .path "name"
      branch := some {
        condition := .or (.compare .equal (.path "name") (.path "n"))
          (.not (.compare .greaterOrEqual (.path "n") (.path "missing")))
        otherwise := some (.literal (.text "nobody")) }
      origin := some .start }
    ∃ error : RenderError,
      (Node.renderAll ([.text "ok " .nothing none, skipped, failing].map toNode) context).result =
          .error error ∧
        error.reason = "'>=' requires numeric operands" ∧ error.origin = some .start := by
  intro context skipped failing
  have hfails := (renderAll_fails_iff_faulty [.text "ok " .nothing none, skipped, failing]
    context).2.1
  refine hfails [_, _] failing [] [_] ⟨.greaterOrEqual, .int 4, .null⟩ [] rfl rfl ?_ ?_ rfl
  · rintro part (_ | ⟨_, _ | ⟨_, ⟨⟩⟩⟩) check hcheck
    · cases hcheck
    · cases hcheck
  · rintro check (_ | ⟨_, ⟨⟩⟩)
    rfl

end Part

end Interpolation
