import Interpolation.Operand

/-!
# Segments

A text is read from the left as segments: a quote takes everything up to the next quote of its kind,
or to the end if there is none, and any other character stands alone.  White space that stands alone
is a gap.  A text whose quotes are all closed is read apart from what follows it.
-/

namespace Interpolation.Tag

open Operand (isQuote)

/-- A character outside quotes, or a quote with the text that it quotes. -/
inductive Segment
  | plain (c : Char)
  | closed (quote : Char) (body : List Char)
  | unclosed (quote : Char) (body : List Char)
  deriving DecidableEq

namespace Segment

def text : Segment → List Char
  | plain c => [c]
  | closed quote body => quote :: body ++ [quote]
  | unclosed quote body => quote :: body

/-- Whether the segment is white space outside quotes. -/
def isGap : Segment → Bool
  | plain c => isSpace c
  | _ => false

/-- Whether the segment is a quote that is not closed. -/
def isUnclosed : Segment → Bool
  | unclosed .. => true
  | _ => false

theorem text_ne_nil (segment : Segment) : segment.text ≠ [] := by
  cases segment <;> simp [text]

end Segment

/-- The segments of a text. -/
def segments : List Char → List Segment
  | [] => []
  | c :: text =>
    if isQuote c then
      if c ∈ text then
        .closed c (text.takeWhile (· != c)) :: segments (text.dropWhile (· != c)).tail
      else [.unclosed c text]
    else .plain c :: segments text
  termination_by text => text.length
  decreasing_by
  · have hrest := (List.dropWhile_sublist (· != c) (l := text)).length_le
    rw [List.length_tail, List.length_cons]
    omega
  · exact Nat.lt_succ_self _

/-- The text of segments. -/
def written (read : List Segment) : List Char := read.flatMap Segment.text

/-- All quotes of the text are closed. -/
def Closed (text : List Char) : Prop := ∀ segment ∈ segments text, segment.isUnclosed = false

/-- The text has no white space outside quotes. -/
def Unbroken (text : List Char) : Prop := ∀ segment ∈ segments text, segment.isGap = false

instance : DecidablePred Closed := fun text =>
  inferInstanceAs (Decidable (∀ segment ∈ segments text, _))

instance : DecidablePred Unbroken := fun text =>
  inferInstanceAs (Decidable (∀ segment ∈ segments text, _))

/-! ## Reading -/

theorem segments_nil : segments [] = [] := by
  rw [segments]

theorem segments_plain {c : Char} (h : isQuote c = false) (text : List Char) :
    segments (c :: text) = .plain c :: segments text := by
  rw [segments, if_neg (by simp [h])]

theorem bne_of_not_mem {quote : Char} {body : List Char} (h : quote ∉ body) :
    ∀ c ∈ body, (c != quote) = true := by
  intro c hc
  rw [bne_iff_ne]
  rintro rfl
  exact h hc

theorem dropWhile_bne {quote : Char} {body : List Char} (h : quote ∉ body) (text : List Char) :
    (body ++ quote :: text).dropWhile (· != quote) = quote :: text := by
  rw [List.dropWhile_append_of_pos (bne_of_not_mem h), List.dropWhile_cons_of_neg (by simp)]

theorem takeWhile_bne {quote : Char} {body : List Char} (h : quote ∉ body) (text : List Char) :
    (body ++ quote :: text).takeWhile (· != quote) = body := by
  rw [List.takeWhile_append_of_pos (bne_of_not_mem h), List.takeWhile_cons_of_neg (by simp),
    List.append_nil]

theorem segments_closed {quote : Char} {body : List Char} (h : isQuote quote) (hbody : quote ∉ body)
    (text : List Char) :
    segments (quote :: (body ++ quote :: text)) = .closed quote body :: segments text := by
  rw [segments, if_pos h, if_pos List.mem_append_cons_self, takeWhile_bne hbody,
    dropWhile_bne hbody, List.tail_cons]

theorem segments_unclosed {quote : Char} {body : List Char} (h : isQuote quote)
    (hbody : quote ∉ body) : segments (quote :: body) = [.unclosed quote body] := by
  rw [segments, if_pos h, if_neg hbody]

/-- A text is empty, or it begins with a character outside quotes or with a quote that is closed, or
it is a quote that is not. -/
@[elab_as_elim]
theorem segmentInduction {motive : List Char → Prop} (nil : motive [])
    (plain : ∀ c text, isQuote c = false → motive text → motive (c :: text))
    (closed : ∀ quote body text, isQuote quote → quote ∉ body → motive text →
      motive (quote :: (body ++ quote :: text)))
    (unclosed : ∀ quote body, isQuote quote → quote ∉ body → motive (quote :: body))
    (text : List Char) : motive text := by
  induction text using segments.induct with
  | case1 => exact nil
  | case2 quote text hquote hmem ih =>
    obtain ⟨body, rest, rfl, hbody⟩ := List.eq_append_cons_of_mem hmem
    rw [dropWhile_bne hbody] at ih
    exact closed quote body rest hquote hbody ih
  | case3 quote body hquote hbody => exact unclosed quote body hquote hbody
  | case4 c text hc ih => exact plain c text (Bool.eq_false_iff.2 hc) ih

theorem written_segments (text : List Char) : written (segments text) = text := by
  induction text using segmentInduction with
  | nil => rw [segments_nil]; rfl
  | plain c text hc ih =>
    rw [segments_plain hc]
    exact congrArg (c :: ·) ih
  | closed quote body text hquote hbody ih =>
    rw [segments_closed hquote hbody, written, List.flatMap_cons, ← written, ih]
    simp [Segment.text]
  | unclosed quote body hquote hbody =>
    rw [segments_unclosed hquote hbody]
    simp [written, Segment.text]

theorem written_eq_nil_iff {read : List Segment} : written read = [] ↔ read = [] := by
  rw [written, List.flatMap_eq_nil_iff]
  refine ⟨fun h => List.eq_nil_iff_forall_not_mem.2 fun segment hsegment => ?_, ?_⟩
  · exact segment.text_ne_nil (h segment hsegment)
  · rintro rfl
    simp

/-! ## Closed texts -/

theorem closed_nil : Closed [] := by
  simp [Closed, segments_nil]

theorem closed_plain_iff {c : Char} (h : isQuote c = false) (text : List Char) :
    Closed (c :: text) ↔ Closed text := by
  simp [Closed, segments_plain h, Segment.isUnclosed]

theorem closed_closed_iff {quote : Char} {body : List Char} (h : isQuote quote)
    (hbody : quote ∉ body) (text : List Char) :
    Closed (quote :: (body ++ quote :: text)) ↔ Closed text := by
  simp [Closed, segments_closed h hbody, Segment.isUnclosed]

theorem not_closed_unclosed {quote : Char} {body : List Char} (h : isQuote quote)
    (hbody : quote ∉ body) : ¬ Closed (quote :: body) := by
  simp [Closed, segments_unclosed h hbody, Segment.isUnclosed]

/-- Closed quotes do not reach into what follows. -/
theorem segments_append {before : List Char} (h : Closed before) (after : List Char) :
    segments (before ++ after) = segments before ++ segments after := by
  induction before using segmentInduction with
  | nil => rw [segments_nil]; rfl
  | plain c text hc ih =>
    rw [List.cons_append, segments_plain hc, segments_plain hc, ih ((closed_plain_iff hc text).1 h)]
    rfl
  | closed quote body text hquote hbody ih =>
    have happend : quote :: (body ++ quote :: text) ++ after =
        quote :: (body ++ quote :: (text ++ after)) := by simp
    rw [happend, segments_closed hquote hbody, segments_closed hquote hbody,
      ih ((closed_closed_iff hquote hbody text).1 h)]
    rfl
  | unclosed quote body hquote hbody => exact absurd h (not_closed_unclosed hquote hbody)

/-! ## Gaps -/

theorem not_isQuote_of_isSpace {c : Char} (h : isSpace c) : isQuote c = false := by
  rw [Bool.eq_false_iff]
  intro hquote
  simp only [isQuote, Bool.or_eq_true, beq_iff_eq] at hquote
  rcases hquote with rfl | rfl <;> exact absurd h (by decide)

theorem segments_space {c : Char} (h : isSpace c) (text : List Char) :
    segments (c :: text) = .plain c :: segments text :=
  segments_plain (not_isQuote_of_isSpace h) text

theorem unbroken_nil : Unbroken [] := by
  simp [Unbroken, segments_nil]

theorem unbroken_plain_iff {c : Char} (h : isQuote c = false) (text : List Char) :
    Unbroken (c :: text) ↔ isSpace c = false ∧ Unbroken text := by
  simp [Unbroken, segments_plain h, Segment.isGap]

theorem unbroken_closed_iff {quote : Char} {body : List Char} (h : isQuote quote)
    (hbody : quote ∉ body) (text : List Char) :
    Unbroken (quote :: (body ++ quote :: text)) ↔ Unbroken text := by
  simp [Unbroken, segments_closed h hbody, Segment.isGap]

theorem unbroken_unclosed {quote : Char} {body : List Char} (h : isQuote quote)
    (hbody : quote ∉ body) : Unbroken (quote :: body) := by
  simp [Unbroken, segments_unclosed h hbody, Segment.isGap]

/-- The text in front of the first gap of a text has all its quotes closed. -/
theorem unbroken_or_exists_gap (text : List Char) :
    Unbroken text ∨ ∃ before c after, text = before ++ c :: after ∧ Unbroken before ∧
      Closed before ∧ isSpace c := by
  induction text using segmentInduction with
  | nil => exact .inl unbroken_nil
  | plain c text hc ih =>
    by_cases hspace : isSpace c
    · exact .inr ⟨[], c, text, rfl, unbroken_nil, closed_nil, hspace⟩
    · have hc' : isSpace c = false := Bool.eq_false_iff.2 hspace
      rcases ih with ih | ⟨before, d, after, rfl, hunbroken, hclosed, hd⟩
      · exact .inl ((unbroken_plain_iff hc text).2 ⟨hc', ih⟩)
      · exact .inr ⟨c :: before, d, after, rfl, (unbroken_plain_iff hc before).2 ⟨hc', hunbroken⟩,
          (closed_plain_iff hc before).2 hclosed, hd⟩
  | closed quote body text hquote hbody ih =>
    rcases ih with ih | ⟨before, d, after, rfl, hunbroken, hclosed, hd⟩
    · exact .inl ((unbroken_closed_iff hquote hbody text).2 ih)
    · exact .inr ⟨quote :: (body ++ quote :: before), d, after, by simp,
        (unbroken_closed_iff hquote hbody before).2 hunbroken,
        (closed_closed_iff hquote hbody before).2 hclosed, hd⟩
  | unclosed quote body hquote hbody => exact .inl (unbroken_unclosed hquote hbody)

end Interpolation.Tag
