import Interpolation.Proofs.Source.Position
import Interpolation.Text.Ends
import Mathlib.Data.Prod.Lex

/-!
# Offsets, rows and columns

The row and column of an offset count the line breaks among the characters that start before it, and
the characters after the last of these.  They grow with the offset, and an offset that does not fall
inside a character can be told from them: it is the length of the lines before the row and of the
characters before the column.
-/

namespace Interpolation

namespace Position

/-- How many bytes some characters take. -/
def bytes (text : List Char) : ℕ := (String.ofList text).utf8ByteSize

@[simp] theorem bytes_nil : bytes [] = 0 := rfl

@[simp] theorem bytes_cons (c : Char) (text : List Char) :
    bytes (c :: text) = c.utf8Size + bytes text := utf8ByteSize_ofList_cons c text

@[simp] theorem bytes_append (text more : List Char) :
    bytes (text ++ more) = bytes text + bytes more := by
  rw [bytes, String.ofList_append, String.utf8ByteSize_append, bytes, bytes]

/-! ## The characters before an offset -/

/-- The first characters of a source, up to the last one that starts before a byte offset. -/
structure StartBefore (source before : List Char) (offset : ℕ) : Prop where
  isPrefix : before <+: source
  isPrefix_iff : ∀ front c, front ++ [c] <+: source →
    (front ++ [c] <+: before ↔ bytes front < offset)

variable {source before before' : List Char} {offset offset' : ℕ}

theorem StartBefore.isPrefix_of_le (h : StartBefore source before offset)
    (h' : StartBefore source before' offset') (hle : offset ≤ offset') : before <+: before' := by
  rcases List.eq_nil_or_concat before with rfl | ⟨front, c, rfl⟩
  · exact List.nil_prefix
  · rw [List.concat_eq_append] at h ⊢
    have hstart := (h.isPrefix_iff front c h.isPrefix).1 (List.prefix_refl _)
    exact (h'.isPrefix_iff front c h.isPrefix).2 (hstart.trans_le hle)

theorem startBefore_startingBefore (source : List Char) (offset : ℕ) :
    StartBefore source (startingBefore offset source) offset := by
  -- The offset changes from character to character: it is counted from the end of the one before.
  induction source generalizing offset with
  | nil => exact ⟨List.nil_prefix, fun front c h => absurd h (by simp)⟩
  | cons d source ih =>
    rw [startingBefore]
    split
    · next hzero =>
      subst hzero
      exact ⟨List.nil_prefix, fun front c _ => iff_of_false (by simp) (Nat.not_lt_zero _)⟩
    · next hpos =>
      obtain ⟨hpre, hiff⟩ := ih (offset - d.utf8Size)
      refine ⟨(List.prefix_cons_inj d).2 hpre, fun front c hfront => ?_⟩
      cases front with
      | nil =>
        obtain ⟨rfl, -⟩ := List.cons_prefix_cons.1 hfront
        exact iff_of_true (List.cons_prefix_cons.2 ⟨rfl, List.nil_prefix⟩) (Nat.pos_of_ne_zero hpos)
      | cons e front =>
        obtain ⟨rfl, htail⟩ := List.cons_prefix_cons.1 hfront
        rw [List.cons_append, List.prefix_cons_inj, hiff front c htail, bytes_cons]
        omega

theorem StartBefore.eq_startingBefore (h : StartBefore source before offset) :
    before = startingBefore offset source := by
  have hstarting := startBefore_startingBefore source offset
  have hpre := h.isPrefix_of_le hstarting le_rfl
  exact hpre.eq_of_length_le (hstarting.isPrefix_of_le h le_rfl).length_le

/-- An offset that does not fall inside a character. -/
def IsBoundary (source : String) (offset : ℕ) : Prop :=
  ∃ before rest, source = before ++ rest ∧ before.utf8ByteSize = offset

theorem IsBoundary.le {source : String} {offset : ℕ} (h : IsBoundary source offset) :
    offset ≤ source.utf8ByteSize := by
  obtain ⟨before, rest, rfl, rfl⟩ := h
  rw [String.utf8ByteSize_append]
  exact Nat.le_add_right _ _

/-- The characters that start before the offset end there. -/
theorem IsBoundary.exists_eq_append {source : String} {before : List Char} {offset : ℕ}
    (h : IsBoundary source offset) (hbefore : StartBefore source.toList before offset) :
    ∃ rest, source.toList = before ++ rest ∧ bytes before = offset := by
  obtain ⟨front, rest, rfl, rfl⟩ := h
  have hstarting := startingBefore_append front.toList rest.toList
  rw [String.ofList_toList, ← String.toList_append, ← hbefore.eq_startingBefore] at hstarting
  subst hstarting
  exact ⟨rest.toList, String.toList_append, by rw [bytes, String.ofList_toList]⟩

/-! ## Rows and columns grow -/

/-- The row and the column, in the order of the rows and, in one row, of the columns. -/
def cell (position : Position) : ℕ ×ₗ ℕ := toLex (position.row, position.column)

/-- The row and column behind some characters. -/
def cellBehind (text : List Char) : ℕ ×ₗ ℕ := toLex (text.count '\n', lastLine text)

theorem cellBehind_lt_concat (text : List Char) (c : Char) :
    cellBehind text < cellBehind (text ++ [c]) := by
  rw [cellBehind, cellBehind, Prod.Lex.toLex_lt_toLex, List.count_append, List.count_singleton,
    lastLine_concat]
  by_cases hc : c = '\n' <;> simp [hc]

theorem cellBehind_le_append (text more : List Char) :
    cellBehind text ≤ cellBehind (text ++ more) := by
  induction more using List.reverseRecOn with
  | nil => rw [List.append_nil]
  | append_singleton more c ih =>
    rw [← List.append_assoc]
    exact ih.trans (cellBehind_lt_concat _ c).le

theorem cellBehind_mono (h : before <+: before') : cellBehind before ≤ cellBehind before' := by
  obtain ⟨more, rfl⟩ := h
  exact cellBehind_le_append before more

theorem cellBehind_strictMono (h : before <+: before') (hne : before ≠ before') :
    cellBehind before < cellBehind before' := by
  obtain ⟨more, rfl⟩ := h
  cases more with
  | nil => exact absurd (List.append_nil before).symm hne
  | cons c more =>
    rw [List.append_cons]
    exact (cellBehind_lt_concat before c).trans_le (cellBehind_le_append _ more)

/-! ## The position of an offset -/

theorem at?_eq_none_iff {source : String} {offset : ℕ} :
    at? source offset = none ↔ source.utf8ByteSize < offset := by
  rw [at?]
  split
  · next hle => exact iff_of_false (Option.some_ne_none _) (Nat.not_lt.2 hle)
  · next hlt => exact iff_of_true rfl (Nat.lt_of_not_le hlt)

theorem at?_eq_some_iff {source : String} {offset : ℕ} {position : Position} :
    at? source offset = some position ↔ offset ≤ source.utf8ByteSize ∧
      ∃ before, StartBefore source.toList before offset ∧
        position = ⟨offset, before.count '\n', lastLine before⟩ := by
  rw [at?, Option.ite_none_right_eq_some, foldl_advance]
  refine and_congr_right fun _ => ?_
  constructor
  · intro h
    exact ⟨_, startBefore_startingBefore _ _, (Option.some.inj h).symm⟩
  · rintro ⟨before, hbefore, rfl⟩
    rw [← hbefore.eq_startingBefore]

/-! ## Lines -/

/-- A text is whole lines, each with its line break, and the start of one more line. -/
structure IsLines (text : List Char) (lines : List (List Char)) (start : List Char) : Prop where
  eq_append : text = lines.flatMap (· ++ ['\n']) ++ start
  not_mem_lines : ∀ line ∈ lines, '\n' ∉ line
  not_mem_start : '\n' ∉ start

theorem exists_isLines (text : List Char) : ∃ lines start, IsLines text lines start := by
  induction text using List.reverseRecOn with
  | nil => exact ⟨[], [], rfl, by simp, List.not_mem_nil⟩
  | append_singleton text c ih =>
    obtain ⟨lines, start, rfl, hlines, hstart⟩ := ih
    by_cases hc : c = '\n'
    · subst hc
      refine ⟨lines ++ [start], [], by simp, ?_, List.not_mem_nil⟩
      exact List.forall_mem_append.2 ⟨hlines, List.forall_mem_singleton.2 hstart⟩
    · refine ⟨lines, start ++ [c], by simp, hlines, ?_⟩
      rw [List.mem_append, List.mem_singleton, not_or]
      exact ⟨hstart, Ne.symm hc⟩

theorem count_flatMap_break {lines : List (List Char)} (h : ∀ line ∈ lines, '\n' ∉ line) :
    (lines.flatMap (· ++ ['\n'])).count '\n' = lines.length := by
  induction lines with
  | nil => rfl
  | cons line lines ih =>
    obtain ⟨hline, hlines⟩ := List.forall_mem_cons.1 h
    rw [List.flatMap_cons, List.count_append, List.count_append, List.count_eq_zero.2 hline,
      ih hlines, List.count_singleton_self, List.length_cons]
    omega

theorem splitOn_flatMap_break {lines : List (List Char)} (h : ∀ line ∈ lines, '\n' ∉ line)
    (rest : List Char) :
    (lines.flatMap (· ++ ['\n']) ++ rest).splitOn '\n' = lines ++ rest.splitOn '\n' := by
  induction lines with
  | nil => rfl
  | cons line lines ih =>
    obtain ⟨hline, hlines⟩ := List.forall_mem_cons.1 h
    rw [List.flatMap_cons, List.append_assoc, List.append_assoc, List.singleton_append,
      List.splitOn_append_cons_self_of_not_mem hline, ih hlines, List.cons_append]

/-- What comes before the first line break of a text starts its first line. -/
theorem exists_splitOn_eq_cons {start : List Char} (h : '\n' ∉ start) (rest : List Char) :
    ∃ line others, (start ++ rest).splitOn '\n' = (start ++ line) :: others := by
  by_cases hrest : '\n' ∈ rest
  · obtain ⟨line, others, rfl, hline⟩ := List.eq_append_cons_of_mem hrest
    have hwhole : '\n' ∉ start ++ line := by
      rw [List.mem_append, not_or]
      exact ⟨h, hline⟩
    rw [← List.append_assoc, List.splitOn_append_cons_self_of_not_mem hwhole]
    exact ⟨line, _, rfl⟩
  · have hwhole : '\n' ∉ start ++ rest := by
      rw [List.mem_append, not_or]
      exact ⟨h, hrest⟩
    exact ⟨rest, [], List.splitOn_eq_singleton hwhole⟩

namespace IsLines

variable {text start : List Char} {lines : List (List Char)}

theorem count_eq (h : IsLines text lines start) : text.count '\n' = lines.length := by
  rw [h.eq_append, List.count_append, count_flatMap_break h.not_mem_lines,
    List.count_eq_zero.2 h.not_mem_start, Nat.add_zero]

theorem lastLine_eq (h : IsLines text lines start) : lastLine text = start.length := by
  have hstart : ∀ c ∈ start.reverse, decide (c ≠ '\n') = true := fun c hc =>
    decide_eq_true fun hbreak => h.not_mem_start (hbreak ▸ List.mem_reverse.1 hc)
  -- Read backwards, the whole lines begin with a line break.
  have hlines : ∀ c ∈ (lines.flatMap (· ++ ['\n'])).reverse.head?, decide (c ≠ '\n') = false := by
    rcases List.eq_nil_or_concat lines with rfl | ⟨lines, line, rfl⟩
    · exact nofun
    · simp
  rw [lastLine, h.eq_append, List.reverse_append, takeWhile_append_of_head hstart hlines,
    List.length_reverse]

/-- The lines of a text that goes on with more characters. -/
theorem exists_splitOn_eq (h : IsLines text lines start) (rest : List Char) :
    ∃ line others, (text ++ rest).splitOn '\n' = lines ++ (start ++ line) :: others := by
  obtain ⟨line, others, hsplit⟩ := exists_splitOn_eq_cons h.not_mem_start rest
  refine ⟨line, others, ?_⟩
  rw [h.eq_append, List.append_assoc, splitOn_flatMap_break h.not_mem_lines, hsplit]

end IsLines

/-- The offset of a column in a row: the bytes of the lines before the row, each with its line
break, and of the characters before the column. -/
def offset? (source : String) (row column : ℕ) : Option ℕ :=
  let lines := source.toList.splitOn '\n'
  lines[row]?.bind fun line =>
    if column ≤ line.length then
      some (bytes ((lines.take row).flatMap (· ++ ['\n'])) + bytes (line.take column))
    else
      none

theorem offset?_of_append {source : String} {before rest : List Char}
    (h : source.toList = before ++ rest) :
    offset? source (before.count '\n') (lastLine before) = some (bytes before) := by
  obtain ⟨lines, start, hlines⟩ := exists_isLines before
  obtain ⟨line, others, hsplit⟩ := hlines.exists_splitOn_eq rest
  have hrow : (lines ++ (start ++ line) :: others)[lines.length]? = some (start ++ line) := by
    rw [List.getElem?_append_right le_rfl, Nat.sub_self, List.getElem?_cons_zero]
  have hcolumn : start.length ≤ (start ++ line).length := by
    rw [List.length_append]
    exact Nat.le_add_right _ _
  rw [offset?, h, hsplit, hlines.count_eq, hlines.lastLine_eq, hrow, Option.bind_some,
    if_pos hcolumn, List.take_left, List.take_left, ← bytes_append, ← hlines.eq_append]

/-! ## Origins -/

theorem offset_eq_of_at? {source : String} {offset : ℕ} {position : Position}
    (h : at? source offset = some position) : position.offset = offset := by
  obtain ⟨-, before, -, rfl⟩ := at?_eq_some_iff.1 h
  rfl

end Position

namespace Origin

open Position

variable {source : String} {start stop : ℕ}

theorem ofOffsets_of_at? (file : ℕ) {first last : Position} (hstart : at? source start = some first)
    (hstop : at? source stop = some last) :
    ofOffsets file source start stop = ⟨file, first, last⟩ := by
  rw [ofOffsets, hstart, hstop]

theorem ofOffsets_of_at?_eq_none (file : ℕ) (h : at? source start = none ∨ at? source stop = none) :
    ofOffsets file source start stop = ⟨file, ⟨start, 0, 0⟩, ⟨stop, 0, 0⟩⟩ := by
  rw [ofOffsets]
  split
  · next hstart hstop =>
    rw [hstart, hstop] at h
    simp at h
  · rfl

theorem offset_ofOffsets (file : ℕ) (source : String) (start stop : ℕ) :
    (ofOffsets file source start stop).span.start.offset = start ∧
      (ofOffsets file source start stop).span.stop.offset = stop := by
  rw [ofOffsets]
  split
  · next hstart hstop => exact ⟨offset_eq_of_at? hstart, offset_eq_of_at? hstop⟩
  · exact ⟨rfl, rfl⟩

end Origin

namespace Position

/-- An offset has a position if it is not beyond the end of the source.  The row is the number of
line breaks among the characters that start before the offset, and the column the number of those
after the last of these.  Row and column grow with the offset, and strictly if it does not fall
inside a character; then it is the length of the lines before the row and of the characters before
the column.  An origin has these positions for its ends if both offsets are in range, else its rows
and columns are zero; its offsets are those that are given. -/
theorem at?_grows_and_inverts (source : String) :
    (∀ o, at? source o = none ↔ source.utf8ByteSize < o) ∧
    (∀ o p, at? source o = some p → p.offset = o ∧
      ∃ before, StartBefore source.toList before o ∧ p.row = before.count '\n' ∧
        p.column = lastLine before) ∧
    (∀ o o' p p', at? source o = some p → at? source o' = some p' →
      (o ≤ o' → p.cell ≤ p'.cell) ∧
      (IsBoundary source o → IsBoundary source o' → o < o' → p.cell < p'.cell)) ∧
    (∀ o, IsBoundary source o →
      ∃ p, at? source o = some p ∧ offset? source p.row p.column = some o) ∧
    ∀ file start stop,
      (∀ first last, at? source start = some first → at? source stop = some last →
        Origin.ofOffsets file source start stop = ⟨file, first, last⟩) ∧
      (at? source start = none ∨ at? source stop = none →
        Origin.ofOffsets file source start stop = ⟨file, ⟨start, 0, 0⟩, ⟨stop, 0, 0⟩⟩) ∧
      (Origin.ofOffsets file source start stop).span.start.offset = start ∧
      (Origin.ofOffsets file source start stop).span.stop.offset = stop := by
  refine ⟨fun o => at?_eq_none_iff, fun o p h => ?_, fun o o' p p' h h' => ?_, fun o ho => ?_,
    fun file start stop => ⟨fun first last => Origin.ofOffsets_of_at? file,
      Origin.ofOffsets_of_at?_eq_none file, Origin.offset_ofOffsets file source start stop⟩⟩
  · obtain ⟨-, before, hbefore, rfl⟩ := at?_eq_some_iff.1 h
    exact ⟨rfl, before, hbefore, rfl, rfl⟩
  · obtain ⟨-, before, hbefore, rfl⟩ := at?_eq_some_iff.1 h
    obtain ⟨-, before', hbefore', rfl⟩ := at?_eq_some_iff.1 h'
    refine ⟨fun hle => cellBehind_mono (hbefore.isPrefix_of_le hbefore' hle), fun ho ho' hlt => ?_⟩
    obtain ⟨-, -, hbytes⟩ := ho.exists_eq_append hbefore
    obtain ⟨-, -, hbytes'⟩ := ho'.exists_eq_append hbefore'
    refine cellBehind_strictMono (hbefore.isPrefix_of_le hbefore' hlt.le) ?_
    rintro rfl
    exact hlt.ne (hbytes.symm.trans hbytes')
  · have hbefore := startBefore_startingBefore source.toList o
    obtain ⟨rest, hsource, hbytes⟩ := ho.exists_eq_append hbefore
    refine ⟨_, at?_eq_some_iff.2 ⟨ho.le, _, hbefore, rfl⟩, ?_⟩
    rw [offset?_of_append hsource, hbytes]

theorem at?_grows_and_inverts_inside_character :
    let source := "é\nb"
    (at? source 1 = some ⟨1, 0, 1⟩ ∧ at? source 2 = some ⟨2, 0, 1⟩ ∧
      cell ⟨1, 0, 1⟩ ≤ cell ⟨2, 0, 1⟩) ∧
    (at? source 3 = some ⟨3, 1, 0⟩ ∧ IsBoundary source 2 ∧ IsBoundary source 3 ∧
      cell ⟨2, 0, 1⟩ < cell ⟨3, 1, 0⟩ ∧ offset? source 1 0 = some 3) ∧
    at? source 5 = none ∧ Origin.ofOffsets 7 source 3 5 = ⟨7, ⟨3, 0, 0⟩, ⟨5, 0, 0⟩⟩ := by
  intro source
  have hinside : at? source 1 = some ⟨1, 0, 1⟩ := by decide
  have hbehind : at? source 2 = some ⟨2, 0, 1⟩ := by decide
  have hnext : at? source 3 = some ⟨3, 1, 0⟩ := by decide
  have hbefore : IsBoundary source 2 := ⟨"é", "\nb", rfl, rfl⟩
  have hbreak : IsBoundary source 3 := ⟨"é\n", "b", rfl, rfl⟩
  obtain ⟨hnone, -, hgrows, hinverts, horigin⟩ := at?_grows_and_inverts source
  have hbeyond : at? source 5 = none := (hnone 5).2 (by decide)
  obtain ⟨p, hp, hoffset⟩ := hinverts 3 hbreak
  obtain rfl : ⟨3, 1, 0⟩ = p := Option.some.inj (hnext.symm.trans hp)
  exact ⟨⟨hinside, hbehind, (hgrows 1 2 _ _ hinside hbehind).1 (by decide)⟩,
    ⟨hnext, hbefore, hbreak, (hgrows 2 3 _ _ hbehind hnext).2 hbefore hbreak (by decide), hoffset⟩,
    hbeyond, (horigin 7 3 5).2.1 (.inr hbeyond)⟩

end Position

end Interpolation
