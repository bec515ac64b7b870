import Interpolation.Proofs.Trimming

/-!
# The order of trimming

What is taken from the start of a text and what is taken from its end stand apart, or they share
characters.  If they stand apart, either may be taken first.  If they share characters, a run at one
of the two ends leaves nothing of the text in either order; but two lines share only their line
break, and once the first of them is taken the other is a line no more.
-/

namespace Interpolation

variable {p : Char → Bool} {run mid rest : List Char}

theorem IsLongestRun.shorten (h : IsLongestRun p (run ++ rest) run) (hmid : mid <+: rest) :
    IsLongestRun p (run ++ mid) run where
  isPrefix := List.prefix_append run mid
  all := h.all
  longest other hother :=
    h.longest other (hother.trans ((List.prefix_append_right_inj run).2 hmid))

namespace Trim

variable {trim leading trailing : Trim} {text taken front shared : List Char}

/-! ## Ends that stand apart -/

/-- A class takes as much of a text when there is less behind it. -/
theorem Takes.shorten (h : Takes (taken ++ rest) trim taken) (hmid : mid <+: rest) :
    Takes (taken ++ mid) trim taken := by
  cases h with
  | nothing => exact .nothing
  | blanks h => exact .blanks (h.shorten hmid)
  | space h => exact .space (h.shorten hmid)
  | blankLine hblanks _ => exact .blankLine hblanks (List.prefix_append _ mid)
  | noBlankLine h =>
    exact .noBlankLine fun blanks hblanks hpre => h blanks hblanks (hpre.trans hmid)

theorem dropStart_append_of_takes (h : Takes (taken ++ (mid ++ rest)) trim taken) :
    trim.dropStart (taken ++ mid) = mid :=
  dropStart_eq_iff.2 ⟨taken, h.shorten (List.prefix_append mid rest), rfl⟩

theorem dropEnd_append_of_takes (h : Takes (rest ++ (mid ++ taken)).reverse trim taken.reverse) :
    trim.dropEnd (mid ++ taken) = mid := by
  rw [List.reverse_append, List.reverse_append, List.append_assoc] at h
  rw [dropEnd_eq_reverse, List.reverse_append, dropStart_append_of_takes h, List.reverse_reverse]

/-! ## Ends that share characters -/

/-- The class takes runs of the characters that satisfy `p`. -/
structure IsRun (trim : Trim) (p : Char → Bool) : Prop where
  dropStart_eq : trim.dropStart = List.dropWhile p
  blanks_of_newline : p '\n' = true → ∀ c, isBlank c = true → p c = true

theorem eq_blankLine_or_isRun (trim : Trim) : trim = .blankLine ∨ ∃ p, trim.IsRun p := by
  cases trim with
  | nothing =>
    refine .inr ⟨fun _ => false, funext fun text => ?_, fun h => absurd h Bool.false_ne_true⟩
    cases text <;> rfl
  | blanks => exact .inr ⟨isBlank, rfl, fun _ _ => id⟩
  | space => exact .inr ⟨isSpace, rfl, fun _ _ => isSpace_of_isBlank⟩
  | blankLine => exact .inl rfl

namespace IsRun

theorem eq_takeWhile (h : trim.IsRun p) (htakes : Takes text trim taken) :
    taken = text.takeWhile p := by
  have htext := htakes.eq_append_dropStart
  rw [h.dropStart_eq] at htext
  exact List.append_cancel_right (htext.symm.trans List.takeWhile_append_dropWhile.symm)

theorem all (h : trim.IsRun p) (htakes : Takes text trim taken) : ∀ c ∈ taken, p c = true := by
  rw [h.eq_takeWhile htakes]
  exact (isLongestRun_takeWhile p text).all

theorem dropStart_eq_nil (h : trim.IsRun p) (hall : ∀ c ∈ text, p c = true) :
    trim.dropStart text = [] := by
  rw [h.dropStart_eq, List.dropWhile_eq_nil_iff]
  exact hall

theorem dropEnd_eq_nil (h : trim.IsRun p) (hall : ∀ c ∈ text, p c = true) :
    trim.dropEnd text = [] := by
  rw [dropEnd_eq_reverse, h.dropStart_eq_nil fun c hc => hall c (List.mem_reverse.1 hc)]
  rfl

end IsRun

/-- What is taken with a line is its blanks and its line break. -/
theorem Takes.eq_concat_newline (h : Takes text .blankLine taken) (hne : taken ≠ []) :
    ∃ blanks : List Char, (∀ c ∈ blanks, isBlank c = true) ∧ taken = blanks ++ ['\n'] := by
  cases h with
  | blankLine hblanks _ => exact ⟨_, hblanks, rfl⟩
  | noBlankLine _ => exact absurd rfl hne

theorem Takes.eq_newline_cons (h : Takes text .blankLine taken.reverse) (hne : taken ≠ []) :
    ∃ blanks : List Char, (∀ c ∈ blanks, isBlank c = true) ∧ taken = '\n' :: blanks := by
  obtain ⟨blanks, hblanks, htaken⟩ := h.eq_concat_newline (List.reverse_ne_nil_iff.2 hne)
  refine ⟨blanks.reverse, fun c hc => hblanks c (List.mem_reverse.1 hc), ?_⟩
  rw [← List.reverse_reverse taken, htaken, List.reverse_append]
  rfl

/-- A run at the start leaves nothing of a text in which it meets what is taken from the end,
whether or not the end has been trimmed. -/
theorem drop_eq_nil_of_isRun (h : leading.IsRun p)
    (hstart : Takes (front ++ (shared ++ rest)) leading (front ++ shared))
    (hend : Takes (front ++ (shared ++ rest)).reverse trailing (shared ++ rest).reverse)
    (hne : shared ≠ []) : trailing.dropEnd rest = [] ∧ leading.dropStart front = [] := by
  have hall := h.all hstart
  obtain ⟨hfront, hshared⟩ := List.forall_mem_append.1 hall
  refine ⟨?_, h.dropStart_eq_nil hfront⟩
  obtain rfl | ⟨q, hq⟩ := trailing.eq_blankLine_or_isRun
  · -- The run has the line break in it, and so it has the blanks behind the line break too.
    obtain ⟨blanks, hblanks, hafter⟩ :=
      hend.eq_newline_cons (List.append_ne_nil_of_left_ne_nil hne rest)
    obtain ⟨c, shared, rfl⟩ := List.exists_cons_of_ne_nil hne
    obtain ⟨rfl, rfl⟩ := List.cons.inj hafter
    have hrest : ∀ c ∈ rest, p c = true := fun c hc =>
      h.blanks_of_newline (hshared '\n' List.mem_cons_self) c
        (hblanks c (List.mem_append_right shared hc))
    have hwhole := h.eq_takeWhile hstart
    rw [← List.append_assoc, List.takeWhile_eq_self_iff.2 (List.forall_mem_append.2 ⟨hall, hrest⟩)]
      at hwhole
    rw [List.append_right_eq_self.1 hwhole.symm]
    rfl
  · refine hq.dropEnd_eq_nil fun c hc => hq.all hend c ?_
    exact List.mem_reverse.2 (List.mem_append_right shared hc)

/-- A run at the end leaves nothing of such a text either. -/
theorem drop_eq_nil_of_isRun_reverse (h : trailing.IsRun p)
    (hstart : Takes (front ++ (shared ++ rest)) leading (front ++ shared))
    (hend : Takes (front ++ (shared ++ rest)).reverse trailing (shared ++ rest).reverse)
    (hne : shared ≠ []) : trailing.dropEnd rest = [] ∧ leading.dropStart front = [] := by
  have hend' : Takes (rest.reverse ++ (shared.reverse ++ front.reverse)) trailing
      (rest.reverse ++ shared.reverse) := by simpa using hend
  have hstart' : Takes (rest.reverse ++ (shared.reverse ++ front.reverse)).reverse leading
      (shared.reverse ++ front.reverse).reverse := by simpa using hstart
  obtain ⟨hfront, hrest⟩ := drop_eq_nil_of_isRun h hend' hstart' (List.reverse_ne_nil_iff.2 hne)
  rw [dropEnd_eq_reverse, List.reverse_reverse, List.reverse_eq_nil_iff] at hfront
  rw [dropEnd_eq_reverse, hrest]
  exact ⟨rfl, hfront⟩

/-- Two lines that share characters share their line break. -/
theorem two_lines_of_shared
    (hstart : Takes (front ++ (shared ++ rest)) .blankLine (front ++ shared))
    (hend : Takes (front ++ (shared ++ rest)).reverse .blankLine (shared ++ rest).reverse)
    (hne : shared ≠ []) :
    shared = ['\n'] ∧ (∀ c ∈ front, isBlank c = true) ∧ ∀ c ∈ rest, isBlank c = true := by
  obtain ⟨blanks, hblanks, hbefore⟩ :=
    hstart.eq_concat_newline (List.append_ne_nil_of_right_ne_nil front hne)
  obtain ⟨blanks', hblanks', hafter⟩ :=
    hend.eq_newline_cons (List.append_ne_nil_of_left_ne_nil hne rest)
  obtain ⟨c, shared, rfl⟩ := List.exists_cons_of_ne_nil hne
  obtain ⟨rfl, rfl⟩ := List.cons.inj hafter
  have hnewline : '\n' ∉ blanks := fun hmem => absurd (hblanks '\n' hmem) (by decide)
  obtain ⟨rfl, -, rfl⟩ :=
    (List.append_cons_inj_of_notMem hnewline List.not_mem_nil).1 hbefore.symm
  exact ⟨rfl, hblanks, hblanks'⟩

end Trim

namespace Trimming

open Trim (Takes)

variable (trimming : Trimming) {text before after front shared : List Char}

/-! ## Both orders -/

/-- The text without what the two classes take, first from its end and then from its start. -/
def applyEndFirst (text : List Char) : List Char :=
  trimming.leading.dropStart (trimming.trailing.dropEnd text)

variable {trimming}

theorem apply_of_takes (h : Takes (before ++ rest) trimming.leading before) :
    trimming.apply (before ++ rest) = trimming.trailing.dropEnd rest := by
  rw [apply, Trim.dropStart_eq_iff.2 ⟨before, h, rfl⟩]

theorem applyEndFirst_of_takes (h : Takes (rest ++ after).reverse trimming.trailing after.reverse) :
    trimming.applyEndFirst (rest ++ after) = trimming.leading.dropStart rest := by
  rw [applyEndFirst, ← List.append_cancel_right h.eq_dropEnd_append]

theorem apply_eq_applyEndFirst_of_apart
    (hstart : Takes (before ++ (mid ++ after)) trimming.leading before)
    (hend : Takes (before ++ (mid ++ after)).reverse trimming.trailing after.reverse) :
    trimming.apply (before ++ (mid ++ after)) =
      trimming.applyEndFirst (before ++ (mid ++ after)) := by
  have happly : trimming.apply (before ++ (mid ++ after)) = mid := by
    rw [apply_of_takes hstart, Trim.dropEnd_append_of_takes hend]
  rw [happly, ← List.append_assoc, applyEndFirst_of_takes (by rwa [List.append_assoc]),
    Trim.dropStart_append_of_takes hstart]

theorem apply_eq_applyEndFirst_of_nil
    (hstart : Takes (front ++ (shared ++ rest)) trimming.leading (front ++ shared))
    (hend : Takes (front ++ (shared ++ rest)).reverse trimming.trailing (shared ++ rest).reverse)
    (hnil : trimming.trailing.dropEnd rest = [] ∧ trimming.leading.dropStart front = []) :
    trimming.apply (front ++ (shared ++ rest)) =
      trimming.applyEndFirst (front ++ (shared ++ rest)) := by
  rw [applyEndFirst_of_takes hend, hnil.2, ← List.append_assoc,
    apply_of_takes (by rwa [List.append_assoc]), hnil.1]

theorem apply_eq_applyEndFirst_or_two_lines (trimming : Trimming) (text : List Char) :
    trimming.apply text = trimming.applyEndFirst text ∨
      trimming = smart ∧ ∃ blanks blanks' : List Char, (∀ c ∈ blanks, isBlank c = true) ∧
        (∀ c ∈ blanks', isBlank c = true) ∧ text = blanks ++ '\n' :: blanks' := by
  obtain ⟨leading, trailing⟩ := trimming
  obtain ⟨before, hstart⟩ := Trim.exists_takes leading text
  obtain ⟨after, hend⟩ := Trim.exists_takes_reverse trailing text
  have hbefore := hstart.eq_append_dropStart
  have hafter := hend.eq_dropEnd_append
  generalize leading.dropStart text = rest at hbefore
  generalize trailing.dropEnd text = front at hafter
  -- The middle is between the two ends, and what is shared is in both of them.
  obtain ⟨mid, rfl, rfl⟩ | ⟨shared, rfl, rfl⟩ :=
    List.append_eq_append_iff.1 (hbefore.symm.trans hafter)
  · subst hbefore
    exact .inl (apply_eq_applyEndFirst_of_apart hstart hend)
  · rw [List.append_assoc] at hbefore
    subst hbefore
    by_cases hne : shared = []
    · subst hne
      rw [List.append_nil] at hstart
      exact .inl (apply_eq_applyEndFirst_of_apart hstart hend)
    obtain rfl | ⟨p, hp⟩ := leading.eq_blankLine_or_isRun
    · obtain rfl | ⟨q, hq⟩ := trailing.eq_blankLine_or_isRun
      · obtain ⟨rfl, hfront, hrest⟩ := Trim.two_lines_of_shared hstart hend hne
        exact .inr ⟨rfl, front, rest, hfront, hrest, rfl⟩
      · exact .inl (apply_eq_applyEndFirst_of_nil hstart hend
          (Trim.drop_eq_nil_of_isRun_reverse hq hstart hend hne))
    · exact .inl (apply_eq_applyEndFirst_of_nil hstart hend
        (Trim.drop_eq_nil_of_isRun hp hstart hend hne))

theorem apply_two_lines {blanks blanks' : List Char} (h : ∀ c ∈ blanks, isBlank c = true)
    (h' : ∀ c ∈ blanks', isBlank c = true) :
    smart.apply (blanks ++ '\n' :: blanks') = blanks' := by
  rw [apply, smart, Trim.dropStart_blankLine_append h, Trim.dropEnd_blankLine_of_isBlank h']

theorem applyEndFirst_two_lines {blanks blanks' : List Char} (h : ∀ c ∈ blanks, isBlank c = true)
    (h' : ∀ c ∈ blanks', isBlank c = true) :
    smart.applyEndFirst (blanks ++ '\n' :: blanks') = blanks := by
  rw [applyEndFirst, smart, Trim.dropEnd_blankLine_append h', Trim.dropStart_blankLine_of_isBlank h]

/-- Which end is trimmed first makes a difference only to two lines of different blanks, both of
which are to be taken: the one that is not taken first is left. -/
theorem apply_ne_applyEndFirst_iff_two_lines :
    (∀ (trimming : Trimming) (text : List Char),
      trimming.apply text ≠ trimming.applyEndFirst text ↔
        trimming.leading = .blankLine ∧ trimming.trailing = .blankLine ∧
          ∃ blanks blanks' : List Char, (∀ c ∈ blanks, isBlank c = true) ∧
            (∀ c ∈ blanks', isBlank c = true) ∧ blanks ≠ blanks' ∧
            text = blanks ++ '\n' :: blanks') ∧
    ∀ blanks blanks' : List Char, (∀ c ∈ blanks, isBlank c = true) →
      (∀ c ∈ blanks', isBlank c = true) →
      smart.apply (blanks ++ '\n' :: blanks') = blanks' ∧
        smart.applyEndFirst (blanks ++ '\n' :: blanks') = blanks := by
  refine ⟨fun trimming text => ⟨fun hne => ?_, ?_⟩,
    fun _ _ h h' => ⟨apply_two_lines h h', applyEndFirst_two_lines h h'⟩⟩
  · obtain heq | ⟨rfl, blanks, blanks', h, h', rfl⟩ :=
      apply_eq_applyEndFirst_or_two_lines trimming text
    · exact absurd heq hne
    · rw [apply_two_lines h h', applyEndFirst_two_lines h h'] at hne
      exact ⟨rfl, rfl, blanks, blanks', h, h', hne.symm, rfl⟩
  · rintro ⟨hleading, htrailing, blanks, blanks', h, h', hne, rfl⟩
    obtain rfl : trimming = smart := congrArg₂ Trimming.mk hleading htrailing
    rw [apply_two_lines h h', applyEndFirst_two_lines h h']
    exact hne.symm

theorem apply_ne_applyEndFirst_iff_two_lines_empty_last :
    smart.apply [' ', '\t', '\n'] = [] ∧ smart.applyEndFirst [' ', '\t', '\n'] = [' ', '\t'] ∧
      smart.apply [' ', '\t', '\n'] ≠ smart.applyEndFirst [' ', '\t', '\n'] := by
  obtain ⟨hiff, hlines⟩ := apply_ne_applyEndFirst_iff_two_lines
  have hblanks : ∀ c ∈ [' ', '\t'], isBlank c = true := List.all_eq_true.1 rfl
  have hnone : ∀ c ∈ ([] : List Char), isBlank c = true := nofun
  obtain ⟨happly, hfirst⟩ := hlines [' ', '\t'] [] hblanks hnone
  exact ⟨happly, hfirst, (hiff smart _).2
    ⟨rfl, rfl, [' ', '\t'], [], hblanks, hnone, List.cons_ne_nil _ _, rfl⟩⟩

end Trimming

end Interpolation
