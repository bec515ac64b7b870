import Interpolation.Proofs.Condition.Breaks
import Interpolation.Proofs.Tag.Calls

/-!
# Tags at an origin

What a tag is read as, or why it cannot be read, does not depend on where it stands.  The tag and
the failure alike have the origin that is given to the reader.  The failure is that of the first
call that fails, whether an operand or a token anywhere in the condition is at fault.
-/

namespace Interpolation

namespace Tag

/-- The tag at another origin. -/
def placed {ρ κ : Type} (origin : Option Origin) (tag : Tag ρ κ) : Tag ρ κ := { tag with origin }

/-- Components are read alike at every origin, but for the origin of the tag. -/
theorem isPlaced_ofComponents (components : List String) :
    IsPlaced fun origin => placed none <$> ofComponents .standard components origin := by
  by_cases hne : components = []
  · subst hne
    exact ⟨.error .noName, fun _ => rfl⟩
  · obtain ⟨calls, hplan⟩ := exists_plan hne
    cases hplan with
    | @plain value rest hif =>
      simp only [ofComponents_plain .standard hif, map_bind, map_pure]
      exact (Operand.isPlaced_read value).bind fun shown => ⟨.ok ⟨shown, none, none⟩, fun _ => rfl⟩
    | @conditional value tokens helse =>
      simp only [ofComponents_conditional .standard helse, map_bind, map_pure]
      exact (Condition.isPlaced_read tokens).bind fun condition =>
        (Operand.isPlaced_read value).bind fun shown =>
          ⟨.ok ⟨shown, some ⟨condition, none⟩, none⟩, fun _ => rfl⟩
    | @choice value tokens rest helse =>
      simp only [ofComponents_choice .standard helse, map_bind, map_pure]
      exact (Condition.isPlaced_read tokens).bind fun condition =>
        (Operand.isPlaced_read _).bind fun other =>
          (Operand.isPlaced_read value).bind fun shown =>
            ⟨.ok ⟨shown, some ⟨condition, some other⟩, none⟩, fun _ => rfl⟩

theorem origin_of_read {components : List String} {origin : Option Origin}
    {tag : Tag Operand Condition} (h : (read components origin).result = .ok tag) :
    tag.origin = origin := by
  unfold read ofComponents at h
  dsimp only at h
  split at h
  · cases h
  · obtain ⟨branch, -, hvalue⟩ := bind_eq_ok_iff.1 h
    obtain ⟨value, -, htag⟩ := bind_eq_ok_iff.1 hvalue
    cases htag
    rfl

theorem read_eq_ok_placed {components : List String} {origin : Option Origin}
    {tag : Tag Operand Condition} (h : (read components origin).result = .ok tag)
    (other : Option Origin) : (read components other).result = .ok (tag.placed other) := by
  have hparts : placed none <$> ofComponents .standard components origin =
      .ok (tag.placed none) := map_eq_ok_iff.2 ⟨tag, h, rfl⟩
  obtain ⟨tag', htag', hsame⟩ :=
    map_eq_ok_iff.1 ((isPlaced_ofComponents components).eq_ok hparts other)
  have horigin : tag'.origin = other := origin_of_read htag'
  calc ofComponents .standard components other
      = .ok ((tag'.placed none).placed tag'.origin) := htag'
    _ = .ok (tag.placed other) := by
      rw [hsame, horigin]
      rfl

end Tag

/-! ## Calls that fail -/

open Compiler (Call)
open Condition (Progress)

/-- What a call of the standard compiler fails with at every origin: an operand that cannot be read,
a token that cannot follow those before it in a condition, or tokens that end before the condition
does. -/
inductive Compiler.Call.Fails : Call → ParseFault → Prop
  | operand {raw : String} {fault : ParseFault} :
      (∀ origin, Operand.read raw origin = .error ⟨fault, origin⟩) → Fails (.operand raw) fault
  | token {before after : List String} {token : String} {progress : Progress}
      {fault : ParseFault} :
      Progress.Moves .start before progress →
      (∀ origin, progress.step origin token = .error ⟨fault, origin⟩) →
        Fails (.condition (before ++ token :: after)) fault
  | ending {tokens : List String} {progress : Progress} {fault : ParseFault} :
      Progress.Moves .start tokens progress →
      (∀ origin, progress.finish origin = .error ⟨fault, origin⟩) →
        Fails (.condition tokens) fault

namespace Compiler.Call

theorem fails_operand_iff (raw : String) (origin : Option Origin) (fault : ParseFault) :
    Fails (.operand raw) fault ↔ Operand.read raw origin = .error ⟨fault, origin⟩ := by
  constructor
  · rintro ⟨h⟩
    exact h origin
  · exact fun h => .operand ((Operand.isPlaced_read raw).eq_error h)

theorem fails_condition_iff (tokens : List String) (origin : Option Origin) (fault : ParseFault) :
    Fails (.condition tokens) fault ↔ Condition.read tokens origin = .error ⟨fault, origin⟩ := by
  constructor
  · intro h
    cases h with
    | token hmoves hstep =>
      exact Condition.read_of_step_eq_error (Progress.run_eq_ok_iff.2 hmoves) (hstep origin) _
    | ending hmoves hfinish =>
      exact Condition.read_of_finish_eq_error (Progress.run_eq_ok_iff.2 hmoves) (hfinish origin)
  · intro h
    obtain ⟨progress, hrun, hfinish⟩ | ⟨before, token, after, progress, rfl, hrun, hstep⟩ :=
      Condition.read_eq_error h
    · exact .ending (Progress.run_eq_ok_iff.1 hrun) (progress.isPlaced_finish.eq_error hfinish)
    · exact .token (Progress.run_eq_ok_iff.1 hrun) ((progress.isPlaced_step token).eq_error hstep)

end Compiler.Call

/-- The first of the calls that fails, fails with the fault. -/
inductive FirstFails : List Call → ParseFault → Prop
  | head {call : Call} {calls : List Call} {fault : ParseFault} :
      call.Fails fault → FirstFails (call :: calls) fault
  | tail {call : Call} {calls : List Call} {fault : ParseFault} :
      (∀ other, ¬ call.Fails other) → FirstFails calls fault → FirstFails (call :: calls) fault

/-- The action fails just where the first of the calls that fails makes it fail, at the origin. -/
def FailsBy {α : Type} (origin : Option Origin) (calls : List Call)
    (action : Except ParseError α) : Prop :=
  ∀ error, action = .error error ↔ error.origin = origin ∧ FirstFails calls error.fault

section FailsBy

variable {α β : Type} {origin : Option Origin} {call : Call} {calls : List Call}

theorem failsBy_pure (a : α) : FailsBy origin [] (pure a : Except ParseError α) := by
  intro error
  constructor
  · intro h
    cases h
  · rintro ⟨-, ⟨⟩⟩

theorem FailsBy.bind {reader : Option Origin → Except ParseError α}
    {next : α → Except ParseError β} (hreader : IsPlaced reader)
    (hcall : ∀ fault, call.Fails fault ↔ reader origin = .error ⟨fault, origin⟩)
    (hnext : ∀ a, FailsBy origin calls (next a)) :
    FailsBy origin (call :: calls) (reader origin >>= next) := by
  intro error
  cases hread : reader origin with
  | error first =>
    obtain ⟨fault, place⟩ := first
    obtain rfl : place = origin := hreader.origin_of_error hread
    have hfails : call.Fails fault := (hcall fault).2 hread
    constructor
    · intro h
      cases h
      exact ⟨rfl, .head hfails⟩
    · rintro ⟨rfl, hfirst⟩
      cases hfirst with
      | head h =>
        have hsame := hread.symm.trans ((hcall _).1 h)
        exact congrArg Except.error (Except.error.inj hsame)
      | tail hnone _ => exact absurd hfails (hnone fault)
  | ok a =>
    have hnone (fault : ParseFault) : ¬ call.Fails fault := by
      rw [hcall, hread]
      intro h
      cases h
    refine (hnext a error).trans (and_congr_right fun _ => ⟨.tail hnone, fun hfirst => ?_⟩)
    cases hfirst with
    | head h => exact absurd h (hnone _)
    | tail _ h => exact h

theorem failsBy_operand {next : Operand → Except ParseError β} (raw : String)
    (hnext : ∀ operand, FailsBy origin calls (next operand)) :
    FailsBy origin (.operand raw :: calls) (Operand.read raw origin >>= next) :=
  .bind (Operand.isPlaced_read raw) (Call.fails_operand_iff raw origin) hnext

theorem failsBy_condition {next : Condition → Except ParseError β} (tokens : List String)
    (hnext : ∀ condition, FailsBy origin calls (next condition)) :
    FailsBy origin (.condition tokens :: calls) (Condition.read tokens origin >>= next) :=
  .bind (Condition.isPlaced_read tokens) (Call.fails_condition_iff tokens origin) hnext

end FailsBy

namespace Tag

variable {origin : Option Origin} {components : List String} {calls : List Call}

theorem failsBy_ofComponents (h : Plan components calls) :
    FailsBy origin calls (ofComponents .standard components origin) := by
  cases h with
  | @plain value rest hif =>
    rw [ofComponents_plain .standard hif]
    exact failsBy_operand value fun shown => failsBy_pure _
  | @conditional value tokens helse =>
    rw [ofComponents_conditional .standard helse]
    exact failsBy_condition tokens fun condition =>
      failsBy_operand value fun shown => failsBy_pure _
  | @choice value tokens rest helse =>
    rw [ofComponents_choice .standard helse]
    exact failsBy_condition tokens fun condition =>
      failsBy_operand _ fun other => failsBy_operand value fun shown => failsBy_pure _

/-- Why components are no tag: there are none, or a call that is made for them fails. -/
inductive Refuses : List String → ParseFault → Prop
  | noName : Refuses [] .noName
  | call {components : List String} {calls : List Call} {fault : ParseFault} :
      Plan components calls → FirstFails calls fault → Refuses components fault

theorem read_eq_error_iff {error : ParseError} :
    (read components origin).result = .error error ↔
      error.origin = origin ∧ Refuses components error.fault := by
  constructor
  · intro h
    by_cases hne : components = []
    · subst hne
      cases h
      exact ⟨rfl, .noName⟩
    · obtain ⟨calls, hplan⟩ := exists_plan hne
      obtain ⟨horigin, hfirst⟩ := (failsBy_ofComponents hplan error).1 h
      exact ⟨horigin, .call hplan hfirst⟩
  · rintro ⟨rfl, hrefuses⟩
    obtain ⟨fault, origin⟩ := error
    cases hrefuses with
    | noName => rfl
    | call hplan hfirst => exact (failsBy_ofComponents hplan _).2 ⟨rfl, hfirst⟩

/-- At two origins the same components are either both read, as tags with the same parts, or both
refused, for the same reason, and the tag or the error stands at the origin that was given.  Why
components are refused, wherever among them the fault is, does not depend on the origin. -/
theorem read_alike_at_all_origins (components : List String) (origin other : Option Origin) :
    ((∃ tag tag', (read components origin).result = .ok tag ∧
        (read components other).result = .ok tag' ∧ tag'.value = tag.value ∧
        tag'.branch = tag.branch ∧ tag.origin = origin ∧ tag'.origin = other) ∨
      ∃ error error', (read components origin).result = .error error ∧
        (read components other).result = .error error' ∧ error'.reason = error.reason ∧
        error.origin = origin ∧ error'.origin = other) ∧
    ∀ error, (read components origin).result = .error error ↔
      error.origin = origin ∧ Refuses components error.fault := by
  refine ⟨?_, fun error => read_eq_error_iff⟩
  cases hread : (read components origin).result with
  | ok tag =>
    exact .inl ⟨tag, tag.placed other, rfl, read_eq_ok_placed hread other, rfl, rfl,
      origin_of_read hread, rfl⟩
  | error error =>
    obtain ⟨horigin, hrefuses⟩ := read_eq_error_iff.1 hread
    exact .inr ⟨error, ⟨error.fault, other⟩, rfl, read_eq_error_iff.2 ⟨rfl, hrefuses⟩, rfl,
      horigin, rfl⟩

theorem read_alike_at_all_origins_path_behind_not :
    (read ["a", "if", "not", "b..c", "else", "d"] none).result =
        .error ⟨.invalidPath "b..c", none⟩ ∧
      (read ["a", "if", "not", "b..c", "else", "d"] (some .start)).result =
        .error ⟨.invalidPath "b..c", some .start⟩ := by
  have hfails : (Call.condition (["not"] ++ ["b..c"])).Fails (.invalidPath "b..c") :=
    .token (.cons (.not {} none) (.refl _)) fun _ => rfl
  have hrefuses : Refuses ["a", "if", "not", "b..c", "else", "d"] (.invalidPath "b..c") :=
    .call (@Plan.choice "a" ["not", "b..c"] ["d"] (by decide)) (.head hfails)
  exact ⟨((read_alike_at_all_origins _ none none).2 _).2 ⟨rfl, hrefuses⟩,
    ((read_alike_at_all_origins _ (some .start) none).2 _).2 ⟨rfl, hrefuses⟩⟩

end Tag

end Interpolation
