import Interpolation.Proofs.Operand
import Interpolation.Proofs.Tag.Components

/-!
# Text literals among components

A component that is a single closed segment is a literal with the quoted text.  Other components can
be literals too: only the first and the last character count, so that the quote may stand between
them as well, and white space after the last one is left out, which can only be there if a quote is
not closed.
-/

namespace Interpolation

open Operand (isQuote)

namespace Tag

theorem segments_eq_closed_iff {text body : List Char} {quote : Char} :
    segments text = [.closed quote body] ↔
      isQuote quote ∧ quote ∉ body ∧ text = quote :: (body ++ [quote]) := by
  constructor
  · intro h
    induction text using segmentInduction with
    | nil => rw [segments_nil] at h; cases h
    | plain c text hc => rw [segments_plain hc] at h; cases h
    | closed c inside rest hc hinside =>
      rw [segments_closed hc hinside, List.cons.injEq, Segment.closed.injEq] at h
      obtain ⟨⟨rfl, rfl⟩, hrest⟩ := h
      rw [← written_segments rest, hrest]
      exact ⟨hc, hinside, rfl⟩
    | unclosed c inside hc hinside => rw [segments_unclosed hc hinside] at h; cases h
  · rintro ⟨hquote, hbody, rfl⟩
    rw [segments_closed hquote hbody, segments_nil]

/-! ## White space at the ends of a component -/

theorem isSpace_eq_false_of_unbroken {c : Char} {text : List Char} (h : Unbroken (c :: text)) :
    isSpace c = false := by
  rw [Bool.eq_false_iff]
  intro hspace
  rw [Unbroken, segments_space hspace] at h
  have hgap : isSpace c = false := h _ List.mem_cons_self
  rw [hgap] at hspace
  cases hspace

theorem isSpace_eq_false_of_isQuote {c : Char} (h : isQuote c) : isSpace c = false := by
  rw [Bool.eq_false_iff]
  intro hspace
  rw [not_isQuote_of_isSpace hspace] at h
  cases h

/-- Only a quote that is not closed keeps white space at the end of a component. -/
theorem dropEndWhile_of_closed {text : List Char} (h : Unbroken text) (hclosed : Closed text) :
    dropEndWhile isSpace text = text := by
  induction text using segmentInduction with
  | nil => rfl
  | plain c text hc ih =>
    obtain ⟨hspace, hunbroken⟩ := (unbroken_plain_iff hc text).1 h
    have htext := ih hunbroken ((closed_plain_iff hc text).1 hclosed)
    exact (dropEndWhile_append_cons hspace [] text).trans (congrArg (c :: ·) htext)
  | closed quote body text hquote hbody ih =>
    have htext := ih ((unbroken_closed_iff hquote hbody text).1 h)
      ((closed_closed_iff hquote hbody text).1 hclosed)
    have hspace : isSpace quote = false := isSpace_eq_false_of_isQuote hquote
    rw [← List.cons_append, dropEndWhile_append_cons hspace, htext]
  | unclosed quote body hquote hbody => exact absurd hclosed (not_closed_unclosed hquote hbody)

theorem unbroken_of_mem_components {contents component : String}
    (h : component ∈ components contents) : Unbroken component.toList :=
  (areWords_components contents).unbroken _ (List.mem_map_of_mem h)

/-- What stands behind a closed quote in a component is not white space. -/
theorem eq_of_dropEndWhile_eq_closed {text body : List Char} {quote : Char} (h : Unbroken text)
    (hquote : isQuote quote) (hbody : quote ∉ body)
    (htext : dropEndWhile isSpace text = quote :: (body ++ [quote])) :
    text = quote :: (body ++ [quote]) := by
  obtain ⟨spaces, hspaces, hspace⟩ := exists_eq_dropEndWhile_append isSpace text
  rw [htext, List.cons_append, List.append_assoc, List.singleton_append] at hspaces
  rw [hspaces] at h
  have hunbroken : Unbroken spaces := (unbroken_closed_iff hquote hbody spaces).1 h
  cases spaces with
  | nil => exact hspaces
  | cons c spaces =>
    have hc := isSpace_eq_false_of_unbroken hunbroken
    rw [hspace c List.mem_cons_self] at hc
    cases hc

theorem trimSpace_of_unbroken {text : List Char} (h : Unbroken text) :
    trimSpace text = dropEndWhile isSpace text := by
  cases text with
  | nil => rfl
  | cons c text =>
    have hc : isSpace c = false := isSpace_eq_false_of_unbroken h
    rw [trimSpace, List.dropWhile_cons_of_neg (Bool.not_eq_true _ ▸ hc)]

/-- A component is a text literal if and only if, without white space at its end, it begins and ends
with the same quote, and the literal is what stands between the two.  It is a single closed segment
just if the quote does not stand between them, too; and there is no white space at its end unless a
quote is not closed. -/
theorem read_component_eq_text_iff (contents component text : String) (origin : Option Origin)
    (h : component ∈ components contents) :
    (Operand.read component origin = .ok (.literal (.text text)) ↔
      ∃ quote, isQuote quote ∧
        dropEndWhile isSpace component.toList = quote :: (text.toList ++ [quote])) ∧
    (∀ quote, segments component.toList = [.closed quote text.toList] ↔
      isQuote quote ∧ quote ∉ text.toList ∧
        dropEndWhile isSpace component.toList = quote :: (text.toList ++ [quote])) ∧
    (Closed component.toList → dropEndWhile isSpace component.toList = component.toList) := by
  have hunbroken : Unbroken component.toList := unbroken_of_mem_components h
  refine ⟨?_, fun quote => ?_, dropEndWhile_of_closed hunbroken⟩
  · rw [Operand.read_eq_text_iff, trimSpace_of_unbroken hunbroken]
  · rw [segments_eq_closed_iff]
    constructor
    · rintro ⟨hquote, hbody, htext⟩
      have hspace : isSpace quote = false := isSpace_eq_false_of_isQuote hquote
      refine ⟨hquote, hbody, ?_⟩
      rw [htext, ← List.cons_append, dropEndWhile_append_cons hspace, dropEndWhile_nil]
    · rintro ⟨hquote, hbody, htext⟩
      exact ⟨hquote, hbody, eq_of_dropEndWhile_eq_closed hunbroken hquote hbody htext⟩

theorem read_component_eq_text_glued :
    Operand.read "'a'\"b' " none = .ok (.literal (.text "a'\"b")) ∧
      segments "'it\"s'".toList = [.closed '\'' "it\"s".toList] := by
  have hglued := read_component_eq_text_iff "'a'\"b' " "'a'\"b' " "a'\"b" none (by decide +kernel)
  have hclosed := read_component_eq_text_iff "x 'it\"s'" "'it\"s'" "it\"s" none
    (by decide +kernel)
  exact ⟨hglued.1.2 ⟨'\'', rfl, by decide +kernel⟩,
    (hclosed.2.1 '\'').2 ⟨rfl, by decide +kernel, by decide +kernel⟩⟩

/-- A component can be a literal and yet more than one segment. -/
theorem read_component_of_two_quotes :
    "'a'b'" ∈ components "'a'b'" ∧
      ¬ ((∃ text, Operand.read "'a'b'" none = .ok (.literal (.text text))) ↔
        ∃ quote body, segments "'a'b'".toList = [.closed quote body]) := by
  refine ⟨by decide +kernel, fun h => ?_⟩
  obtain ⟨quote, body, hsegments⟩ := h.1 ⟨"a'b", rfl⟩
  obtain ⟨-, hbody, htext⟩ := segments_eq_closed_iff.1 hsegments
  obtain ⟨rfl, hrest⟩ := List.cons.inj htext
  have hinside : body = ['a', '\'', 'b'] := (List.append_inj_left' hrest rfl).symm
  exact hbody (hinside ▸ by decide)

end Tag

end Interpolation
