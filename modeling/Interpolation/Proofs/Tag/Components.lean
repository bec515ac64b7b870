import Interpolation.Tag.Components
import Interpolation.Proofs.Tag.Segments

/-!
# Components

The components of a text are its runs of segments without a gap.  Everything about them follows from
how they part at one gap (`words_gap`): which lists are components, that joining them with any white
space gives the same components again, and that no other character is lost.
-/

namespace Interpolation.Tag

open Operand (isQuote)

/-- The runs of segments between gaps. -/
def runs (text : List Char) : List (List Segment) :=
  ((segments text).splitOnP Segment.isGap).filter (!·.isEmpty)

/-- The texts of the runs. -/
def words (text : List Char) : List (List Char) := (runs text).map written

/-- What a text can be cut into: each piece has something in it and no gap, and only the last one
may have a quote that is not closed. -/
structure AreWords (pieces : List (List Char)) : Prop where
  ne_nil : ∀ piece ∈ pieces, piece ≠ []
  unbroken : ∀ piece ∈ pieces, Unbroken piece
  closed : ∀ piece ∈ pieces.dropLast, Closed piece

/-! ## Scanning -/

theorem quoteAfter_none {c : Char} (h : isQuote c = false) : quoteAfter none c = none := by
  simp [quoteAfter, h]

theorem scan_some {quote : Char} {body : List Char} (h : quote ∉ body) (text : List Char) :
    scan (some quote) (body ++ text) =
      (body ++ (scan (some quote) text).1, (scan (some quote) text).2) := by
  induction body with
  | nil => rfl
  | cons c body ih =>
    rw [List.mem_cons, not_or] at h
    have hquote : quoteAfter (some quote) c = some quote := if_neg (Ne.symm h.1)
    rw [List.cons_append, scan, hquote, ih h.2]
    rfl

theorem scan_quote {quote : Char} (h : isQuote quote) (text : List Char) :
    scan none (quote :: text) =
      (quote :: (scan (some quote) text).1, (scan (some quote) text).2) := by
  have hspace : isSpace quote = false := by
    rw [Bool.eq_false_iff]
    intro hspace
    rw [not_isQuote_of_isSpace hspace] at h
    nomatch h
  have hquote : quoteAfter none quote = some quote := if_pos h
  rw [scan, hquote]
  simp [hspace]

theorem scan_closed {quote : Char} {body : List Char} (h : isQuote quote) (hbody : quote ∉ body)
    (text : List Char) :
    scan none (quote :: (body ++ quote :: text)) =
      (quote :: (body ++ quote :: (scan none text).1), (scan none text).2) := by
  have hend : quoteAfter (some quote) quote = none := if_pos rfl
  rw [scan_quote h, scan_some hbody, scan, hend]
  rfl

theorem scan_unclosed {quote : Char} {body : List Char} (h : isQuote quote) (hbody : quote ∉ body) :
    scan none (quote :: body) = (quote :: body, []) := by
  have hscan := scan_some hbody []
  rw [List.append_nil] at hscan
  rw [scan_quote h, hscan, scan, List.append_nil]

theorem consComponent_written (first : List Segment) (rest : List (List Segment)) :
    consComponent (written first) ((rest.filter (!·.isEmpty)).map written) =
      ((first :: rest).filter (!·.isEmpty)).map written := by
  cases first with
  | nil => rfl
  | cons segment first =>
    have hne : written (segment :: first) ≠ [] := by
      rw [Ne, written_eq_nil_iff]
      exact List.cons_ne_nil _ _
    rw [consComponent, if_neg (by simpa using hne)]
    rfl

/-- The run at the head of the split may be empty: it is what is left of a component that the
scanner has begun. -/
theorem exists_splitOnP_segments (text : List Char) :
    ∃ first rest, (segments text).splitOnP Segment.isGap = first :: rest ∧
      scan none text = (written first, (rest.filter (!·.isEmpty)).map written) := by
  induction text using segmentInduction with
  | nil => exact ⟨[], [], by rw [segments_nil, List.splitOnP_nil], rfl⟩
  | plain c text hc ih =>
    obtain ⟨first, rest, hsplit, hscan⟩ := ih
    rw [segments_plain hc, List.splitOnP_cons_eq_if_modifyHead, hsplit, scan, quoteAfter_none hc,
      hscan]
    cases hspace : isSpace c with
    | true =>
      refine ⟨[], first :: rest, by simp [Segment.isGap, hspace], ?_⟩
      rw [← consComponent_written]
      rfl
    | false =>
      refine ⟨.plain c :: first, rest, by simp [Segment.isGap, hspace], ?_⟩
      simp [written, Segment.text]
  | closed quote body text hquote hbody ih =>
    obtain ⟨first, rest, hsplit, hscan⟩ := ih
    refine ⟨.closed quote body :: first, rest, ?_, ?_⟩
    · rw [segments_closed hquote hbody, List.splitOnP_cons_eq_if_modifyHead, hsplit]
      rfl
    · rw [scan_closed hquote hbody, hscan]
      simp [written, Segment.text]
  | unclosed quote body hquote hbody =>
    refine ⟨[.unclosed quote body], [], ?_, ?_⟩
    · rw [segments_unclosed hquote hbody, List.splitOnP_eq_singleton]
      simp [Segment.isGap]
    · rw [scan_unclosed hquote hbody]
      simp [written, Segment.text]

theorem components_eq (contents : String) :
    components contents = (words contents.toList).map String.ofList := by
  obtain ⟨first, rest, hsplit, hscan⟩ := exists_splitOnP_segments contents.toList
  rw [components, hscan, words, runs, hsplit, ← consComponent_written]

/-! ## Words -/

theorem words_nil : words [] = [] := by
  rw [words, runs, segments_nil, List.splitOnP_nil]
  rfl

/-- A gap parts the words. -/
theorem words_gap {before : List Char} {c : Char} (h : Closed before) (hc : isSpace c)
    (after : List Char) : words (before ++ c :: after) = words before ++ words after := by
  have hgap : Segment.isGap (.plain c) = true := hc
  rw [words, runs, segments_append h, segments_space hc, List.splitOnP_append_cons _ _ hgap,
    List.filter_append, List.map_append]
  rfl

/-- White space parts the words, however long it is; with nothing on one side of it, it need not be
there. -/
theorem words_spaces {before space after : List Char} (h : Closed before)
    (hspace : ∀ c ∈ space, isSpace c) (hends : space = [] → before = [] ∨ after = []) :
    words (before ++ space ++ after) = words before ++ words after := by
  induction space generalizing before with
  | nil =>
    rcases hends rfl with rfl | rfl
    · simp [words_nil]
    · simp [words_nil]
  | cons c space ih =>
    rw [List.forall_mem_cons] at hspace
    have hrest := ih closed_nil hspace.2 fun _ => .inl rfl
    rw [List.nil_append, words_nil, List.nil_append] at hrest
    rw [List.append_assoc, List.cons_append, words_gap h hspace.1, hrest]

theorem words_of_unbroken {text : List Char} (h : Unbroken text) (hne : text ≠ []) :
    words text = [text] := by
  have hsegments : segments text ≠ [] := by
    rw [Ne, ← written_eq_nil_iff, written_segments]
    exact hne
  have hruns : runs text = [segments text] := by
    rw [runs, List.splitOnP_eq_singleton h]
    exact List.filter_cons_of_pos (by simpa using hsegments)
  rw [words, hruns, List.map_singleton, written_segments]

namespace AreWords

theorem nil : AreWords [] := ⟨by simp, by simp, by simp⟩

theorem singleton {piece : List Char} (hne : piece ≠ []) (hunbroken : Unbroken piece) :
    AreWords [piece] :=
  ⟨by simpa using hne, by simpa using hunbroken, by simp⟩

theorem cons {piece : List Char} {pieces : List (List Char)} (h : AreWords pieces)
    (hne : piece ≠ []) (hunbroken : Unbroken piece) (hclosed : Closed piece) :
    AreWords (piece :: pieces) where
  ne_nil := List.forall_mem_cons.2 ⟨hne, h.ne_nil⟩
  unbroken := List.forall_mem_cons.2 ⟨hunbroken, h.unbroken⟩
  closed := by
    cases pieces with
    | nil => simp
    | cons next pieces =>
      rw [List.dropLast_cons_cons]
      exact List.forall_mem_cons.2 ⟨hclosed, h.closed⟩

theorem tail {piece next : List Char} {pieces : List (List Char)}
    (h : AreWords (piece :: next :: pieces)) : AreWords (next :: pieces) where
  ne_nil := (List.forall_mem_cons.1 h.ne_nil).2
  unbroken := (List.forall_mem_cons.1 h.unbroken).2
  closed := (List.forall_mem_cons.1 h.closed).2

theorem head_closed {piece next : List Char} {pieces : List (List Char)}
    (h : AreWords (piece :: next :: pieces)) : Closed piece :=
  h.closed piece List.mem_cons_self

end AreWords

theorem areWords_of_unbroken {text : List Char} (h : Unbroken text) : AreWords (words text) := by
  by_cases hne : text = []
  · rw [hne, words_nil]
    exact .nil
  · rw [words_of_unbroken h hne]
    exact .singleton hne h

theorem AreWords.append {before : List Char} {pieces : List (List Char)} (h : AreWords pieces)
    (hunbroken : Unbroken before) (hclosed : Closed before) :
    AreWords (words before ++ pieces) := by
  by_cases hne : before = []
  · rw [hne, words_nil]
    exact h
  · rw [words_of_unbroken hunbroken hne]
    exact h.cons hne hunbroken hclosed

/-- The first gap of a text leaves a shorter one to cut. -/
theorem areWords_words (text : List Char) : AreWords (words text) := by
  induction hlength : text.length using Nat.strongRecOn generalizing text with
  | ind length ih =>
    obtain hunbroken | ⟨before, c, after, rfl, hunbroken, hclosed, hc⟩ :=
      unbroken_or_exists_gap text
    · exact areWords_of_unbroken hunbroken
    · have hshorter : after.length < length := by
        rw [List.length_append, List.length_cons] at hlength
        omega
      have hafter : AreWords (words after) := ih after.length hshorter after rfl
      rw [words_gap hclosed hc]
      exact hafter.append hunbroken hclosed

theorem words_intercalate {pieces : List (List Char)} (h : AreWords pieces) :
    words ([' '].intercalate pieces) = pieces := by
  induction pieces with
  | nil => rw [List.intercalate_nil, words_nil]
  | cons piece pieces ih =>
    have hne : piece ≠ [] := h.ne_nil piece List.mem_cons_self
    have hunbroken : Unbroken piece := h.unbroken piece List.mem_cons_self
    cases pieces with
    | nil => rw [List.intercalate_singleton, words_of_unbroken hunbroken hne]
    | cons next pieces =>
      rw [List.intercalate_cons_cons, List.append_assoc, List.singleton_append,
        words_gap h.head_closed rfl, words_of_unbroken hunbroken hne, ih h.tail,
        List.singleton_append]

theorem flatten_runs (text : List Char) :
    (runs text).flatten = (segments text).filter (!·.isGap) := by
  rw [runs, List.flatten_filter_not_isEmpty]
  induction segments text with
  | nil => rw [List.splitOnP_nil]; rfl
  | cons segment read ih =>
    have hne := List.splitOnP_ne_nil Segment.isGap read
    obtain ⟨first, rest, hsplit⟩ := List.exists_cons_of_ne_nil hne
    rw [hsplit] at ih
    rw [List.splitOnP_cons_eq_if_modifyHead, hsplit, List.filter_cons, ← ih]
    cases segment.isGap with
    | true => rfl
    | false => rfl

theorem flatten_words (text : List Char) :
    (words text).flatten = written ((segments text).filter (!·.isGap)) := by
  rw [← flatten_runs, words, written, List.flatMap_def, List.map_flatten, List.flatten_flatten,
    List.map_map]
  rfl

/-! ## Components -/

theorem components_intercalate {pieces : List String} (h : AreWords (pieces.map String.toList)) :
    components (" ".intercalate pieces) = pieces := by
  have hwords : words (" ".intercalate pieces).toList = pieces.map String.toList := by
    rw [String.toList_intercalate]
    exact words_intercalate h
  rw [components_eq, hwords, List.map_map]
  simp

theorem areWords_components (contents : String) :
    AreWords ((components contents).map String.toList) := by
  have htoList : (components contents).map String.toList = words contents.toList := by
    rw [components_eq, List.map_map]
    simp
  rw [htoList]
  exact areWords_words contents.toList

theorem components_respaced {before space after : String} (h : Closed before.toList)
    (hspace : ∀ c ∈ space.toList, isSpace c) (hends : space = "" → before = "" ∨ after = "") :
    components (before ++ space ++ after) = components before ++ components after := by
  have hends' : space.toList = [] → before.toList = [] ∨ after.toList = [] := by
    simpa only [String.toList_eq_nil_iff] using hends
  rw [components_eq, components_eq, components_eq, String.toList_append, String.toList_append,
    words_spaces h hspace hends', List.map_append]

/-- The components of a text are its longest runs without white space outside quotes, and nothing
but that white space is lost.  The lists of components are those whose members have something in
them, no white space outside quotes and, except for the last, no open quote; joined with single
spaces they are cut into the same components.  Nor does other white space outside quotes matter. -/
theorem components_runs_and_respaced :
    (∀ contents : String,
      components contents = (runs contents.toList).map (fun run => String.ofList (written run)) ∧
      "" ∉ components contents ∧
      String.join (components contents) =
        String.ofList (written ((segments contents.toList).filter (!·.isGap))) ∧
      components (" ".intercalate (components contents)) = components contents) ∧
    (∀ pieces : List String, (∃ contents, components contents = pieces) ↔
      AreWords (pieces.map String.toList)) ∧
    (∀ pieces : List String, AreWords (pieces.map String.toList) →
      components (" ".intercalate pieces) = pieces) ∧
    ∀ before space other after : String, Closed before.toList →
      (∀ c ∈ space.toList, isSpace c) → (∀ c ∈ other.toList, isSpace c) →
      (space = "" ∨ other = "" → before = "" ∨ after = "") →
      components (before ++ space ++ after) = components (before ++ other ++ after) := by
  refine ⟨fun contents => ⟨?_, ?_, ?_, ?_⟩, fun pieces => ⟨?_, fun h => ?_⟩, ?_, ?_⟩
  · rw [components_eq, words, List.map_map]
    rfl
  · intro hmem
    exact (areWords_components contents).ne_nil _ (List.mem_map_of_mem hmem) rfl
  · rw [← String.toList_inj, String.toList_join, String.toList_ofList, ← flatten_words,
      components_eq, List.flatMap_map]
    simp
  · exact components_intercalate (areWords_components contents)
  · rintro ⟨contents, rfl⟩
    exact areWords_components contents
  · exact ⟨" ".intercalate pieces, components_intercalate h⟩
  · exact fun pieces h => components_intercalate h
  · intro before space other after hclosed hspace hother hends
    rw [components_respaced hclosed hspace fun h => hends (.inl h),
      components_respaced hclosed hother fun h => hends (.inr h)]

theorem components_respaced_open_quote :
    components (" ".intercalate ["a\"b 'c\"", "if", "'d \" e "]) =
      ["a\"b 'c\"", "if", "'d \" e "] ∧
    components ("a\"b 'c\"" ++ "\t\u00a0" ++ "if 'd \" e ") =
      components ("a\"b 'c\"" ++ " " ++ "if 'd \" e ") := by
  obtain ⟨-, -, hjoined, hrespaced⟩ := components_runs_and_respaced
  have hspace : ∀ c ∈ "\t\u00a0".toList, isSpace c := List.all_eq_true.1 rfl
  have hother : ∀ c ∈ " ".toList, isSpace c := List.all_eq_true.1 rfl
  exact ⟨hjoined _ ⟨by decide, by decide +kernel, by decide +kernel⟩,
    hrespaced _ _ _ _ (by decide +kernel) hspace hother (by decide)⟩

end Interpolation.Tag
