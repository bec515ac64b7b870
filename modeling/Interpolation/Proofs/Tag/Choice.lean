import Interpolation.Proofs.Condition.Moves
import Interpolation.Proofs.Render.Parts
import Interpolation.Proofs.Tag.Calls
import Interpolation.Proofs.Tag.Literals

/-!
# Choices between quoted texts

What stands between quotes is never looked into.  A tag that shows one of two quoted texts, and
compares a path with a third to choose, shows the texts as they are, whatever is in them.
-/

namespace Interpolation

open Operand (isQuote)

/-- A text with a quote to put around it, which does not occur in it. -/
structure Quotation where
  quote : Char
  text : String
  isQuote_quote : isQuote quote
  quote_not_mem : quote ∉ text.toList

/-- The text between its quotes. -/
def Quotation.written (quotation : Quotation) : String :=
  String.singleton quotation.quote ++ quotation.text ++ String.singleton quotation.quote

/-! ## Words -/

namespace Tag

/-- A component of a tag that can have others behind it. -/
structure IsWord (text : List Char) : Prop where
  ne_nil : text ≠ []
  unbroken : Unbroken text
  closed : Closed text

theorem AreWords.of_isWord {pieces : List (List Char)} (h : ∀ piece ∈ pieces, IsWord piece) :
    AreWords pieces where
  ne_nil piece hpiece := (h piece hpiece).ne_nil
  unbroken piece hpiece := (h piece hpiece).unbroken
  closed piece hpiece := (h piece (List.dropLast_subset pieces hpiece)).closed

theorem isWord_of_plain {text : List Char} (hne : text ≠ [])
    (h : ∀ c ∈ text, isSpace c = false ∧ isQuote c = false) : IsWord text := by
  suffices hplain : Unbroken text ∧ Closed text from ⟨hne, hplain.1, hplain.2⟩
  clear hne
  induction text with
  | nil => exact ⟨unbroken_nil, closed_nil⟩
  | cons c text ih =>
    obtain ⟨⟨hspace, hquote⟩, htext⟩ := List.forall_mem_cons.1 h
    obtain ⟨hunbroken, hclosed⟩ := ih htext
    exact ⟨(unbroken_plain_iff hquote text).2 ⟨hspace, hunbroken⟩,
      (closed_plain_iff hquote text).2 hclosed⟩

theorem IsWord.trimSpace_eq {text : List Char} (h : IsWord text) : trimSpace text = text := by
  rw [trimSpace_of_unbroken h.unbroken, dropEndWhile_of_closed h.unbroken h.closed]

end Tag

namespace Quotation

open Tag

variable (quotation : Quotation)

theorem toList_written :
    quotation.written.toList = quotation.quote :: (quotation.text.toList ++ [quotation.quote]) := by
  simp [written]

theorem isWord_written : IsWord quotation.written.toList := by
  obtain ⟨quote, text, hquote, hmem⟩ := quotation
  rw [toList_written]
  exact ⟨List.cons_ne_nil _ _, (unbroken_closed_iff hquote hmem []).2 unbroken_nil,
    (closed_closed_iff hquote hmem []).2 closed_nil⟩

theorem read_written (origin : Option Origin) :
    Operand.read quotation.written origin = .ok (.literal (.text quotation.text)) := by
  refine Operand.read_eq_text_iff.2 ⟨quotation.quote, quotation.isQuote_quote, ?_⟩
  rw [quotation.isWord_written.trimSpace_eq, toList_written]

/-- A quotation is neither a keyword nor any other word without quotes. -/
theorem written_ne {word : String} (h : word.toList.all (!isQuote ·)) :
    quotation.written ≠ word := by
  rintro rfl
  have hquote := List.all_eq_true.1 h quotation.quote (by simp [toList_written])
  rw [quotation.isQuote_quote] at hquote
  cases hquote

theorem stands_written :
    Condition.Stands quotation.written (.literal (.text quotation.text)) := by
  refine ⟨Condition.Grammar.isKeyword_eq_false_iff.2 fun hmem => ?_, quotation.read_written⟩
  have hkeywords : ∀ word ∈ Condition.Grammar.keywords, word.toList.all (!isQuote ·) := by decide
  exact quotation.written_ne (hkeywords _ hmem) rfl

end Quotation

/-! ## The choice -/

theorem Value.ofOption_beq_text_iff {value : Option Value} {text : String} :
    (Value.ofOption value == .text text) = true ↔ value = some (.text text) := by
  cases value with
  | none => simp [Value.ofOption, BEq.beq, Value.equal]
  | some value => cases value <;> simp [Value.ofOption, BEq.beq, Value.equal]

namespace Tag

theorem Outline.compile_standard {value raw : String} {tokens : List String}
    {operand otherwise : Operand} {condition : Condition} {origin : Option Origin}
    (hcondition : Condition.read tokens origin = .ok condition)
    (hotherwise : Operand.read raw origin = .ok otherwise)
    (hvalue : Operand.read value origin = .ok operand) (ignored : Nat) :
    Outline.compile .standard origin ⟨value, some ⟨tokens, some raw⟩, ignored⟩ =
      .ok ⟨operand, some ⟨condition, some otherwise⟩, origin⟩ := by
  simp only [Outline.compile, Compiler.standard, Option.mapM_some, hcondition, hotherwise, hvalue]
  rfl

variable (shown other fallback : Quotation) (path : String)

/-- The contents of a tag that compares a path with a text to choose what it shows. -/
def choice : String :=
  shown.written ++ " if " ++ path ++ " == " ++ other.written ++ " else " ++ fallback.written

theorem components_choice (hpath : IsWord path.toList) :
    components (choice shown other fallback path) =
      [shown.written, "if", path, "==", other.written, "else", fallback.written] := by
  have hchoice : choice shown other fallback path = " ".intercalate
      [shown.written, "if", path, "==", other.written, "else", fallback.written] := by
    simp [choice, ← String.toList_inj]
  rw [hchoice]
  refine components_intercalate (.of_isWord ?_)
  simp only [List.map_cons, List.map_nil, List.forall_mem_cons]
  have hif : IsWord "if".toList := ⟨by decide, by decide +kernel, by decide +kernel⟩
  have hequal : IsWord "==".toList := ⟨by decide, by decide +kernel, by decide +kernel⟩
  have helse : IsWord "else".toList := ⟨by decide, by decide +kernel, by decide +kernel⟩
  exact ⟨shown.isWord_written, hif, hpath, hequal, other.isWord_written, helse,
    fallback.isWord_written, by simp⟩

/-- What `choice` is read as. -/
def chosen (origin : Option Origin) : Tag Operand Condition where
  value := .literal (.text shown.text)
  branch := some {
    condition := .compare .equal (.path path) (.literal (.text other.text))
    otherwise := some (.literal (.text fallback.text)) }
  origin := origin

theorem render_chosen (origin : Option Origin) (context : Context) :
    ((Node.ofTag (chosen shown other fallback path origin)).render context).result =
      .ok (if Value.ofOption (context.lookup? path) == .text other.text then shown.text
        else fallback.text) := by
  have htest : (Condition.compare .equal (.path path) (.literal (.text other.text))).test context =
      .ok (Value.ofOption (context.lookup? path) == .text other.text) := rfl
  rw [Node.ofTag, Node.render, Rendering.silent, render_resolved]
  simp only [chosen, htest, Except.map]
  rw [apply_ite Value.displayOption]
  rfl

/-- A tag that compares a path with a quoted text shows one of two other quoted texts, as they are:
the first if the path leads to just the text it is compared with, the second if it leads to anything
else or nowhere.  It makes no difference what stands between the quotes. -/
theorem read_choice_and_render (origin : Option Origin)
    (hplain : ∀ c ∈ path.toList, isSpace c = false ∧ isQuote c = false)
    (hkeyword : Condition.isKeyword path = false) (helse : path ≠ "else")
    (hpath : ∃ p, Operand.read path origin = .ok (.path p)) :
    ∃ tag, (Tag.read (components (choice shown other fallback path)) origin).result = .ok tag ∧
      tag.origin = origin ∧ ∀ context,
        (context.lookup? path = some (.text other.text) →
          ((Node.ofTag tag).render context).result = .ok shown.text) ∧
        (context.lookup? path ≠ some (.text other.text) →
          ((Node.ofTag tag).render context).result = .ok fallback.text) := by
  obtain ⟨p, hp⟩ := hpath
  have hne : path.toList ≠ [] := by
    intro hnil
    rw [String.toList_eq_nil_iff.1 hnil] at hp
    cases hp
  have hword : IsWord path.toList := isWord_of_plain hne hplain
  have hread : Operand.read path origin = .ok (.path path) := by
    have heq := Operand.eq_of_read_eq_path hp
    rw [hword.trimSpace_eq, String.ofList_toList] at heq
    rw [hp, heq]
  have hcondition : Condition.read [path, "==", other.written] origin =
      .ok (.compare .equal (.path path) (.literal (.text other.text))) :=
    Condition.read_compare .equal ⟨hkeyword, Condition.reads_of_read hread⟩ other.stands_written
  have hbranch : Outline.branchOf [path, "==", other.written, "else", fallback.written] =
      ⟨[path, "==", other.written], some fallback.written⟩ := by
    have hother : other.written ≠ "else" := other.written_ne rfl
    exact @branchOf_else [path, "==", other.written]
      (by simp [Ne.symm helse, Ne.symm hother]) [fallback.written]
  refine ⟨chosen shown other fallback path origin, ?_, rfl, fun context => ?_⟩
  · rw [components_choice shown other fallback path hword, Tag.read, ofComponents,
      Outline.ofComponents?]
    dsimp only
    rw [hbranch]
    exact Outline.compile_standard hcondition (fallback.read_written origin)
      (shown.read_written origin) 0
  · have hrender := render_chosen shown other fallback path origin context
    constructor
    · intro hlookup
      rw [hrender, Value.ofOption_beq_text_iff.2 hlookup]
      rfl
    · intro hlookup
      rw [hrender, Bool.eq_false_iff.2 (mt Value.ofOption_beq_text_iff.1 hlookup)]
      rfl

theorem read_choice_and_render_words_of_conditions :
    ∃ tag, (Tag.read
        (components "'a  \"if\"\n' if if == \" 'not' \" else 'else  or 1.5 '") none).result = .ok tag ∧
      ((Node.ofTag tag).render { innermost := [("if", .text " 'not' ")] }).result =
        .ok "a  \"if\"\n" ∧
      ((Node.ofTag tag).render .empty).result = .ok "else  or 1.5 " := by
  have hchoice := read_choice_and_render ⟨'\'', "a  \"if\"\n", rfl, by decide⟩
    ⟨'"', " 'not' ", rfl, by decide⟩ ⟨'\'', "else  or 1.5 ", rfl, by decide⟩ "if" none
    (List.forall_mem_cons.2 ⟨⟨rfl, rfl⟩, List.forall_mem_singleton.2 ⟨rfl, rfl⟩⟩) rfl (by decide)
    ⟨"if", rfl⟩
  obtain ⟨tag, hread, -, hrender⟩ := hchoice
  exact ⟨tag, hread, (hrender _).1 rfl, (hrender .empty).2 nofun⟩

end Tag

end Interpolation
