import Interpolation.Proofs.Text.Ends
import Interpolation.Trimming

/-!
# What trimming takes away

A class takes the longest run of its characters from the start of a text, or a whole line of
blanks, and the same from the end, read backwards.  All of this is white space, so the text from its
first to its last other character is always left.
-/

namespace Interpolation

/-- The longest start of a text in which all characters satisfy `p`. -/
structure IsLongestRun (p : Char → Bool) (text run : List Char) : Prop where
  isPrefix : run <+: text
  all : ∀ c ∈ run, p c = true
  longest : ∀ other, other <+: text → (∀ c ∈ other, p c = true) → other <+: run

variable {text run : List Char} {p : Char → Bool}

theorem isLongestRun_takeWhile (p : Char → Bool) (text : List Char) :
    IsLongestRun p text (text.takeWhile p) := by
  refine ⟨List.takeWhile_prefix p, List.all_eq_true.1 List.all_takeWhile, ?_⟩
  rintro other ⟨rest, rfl⟩ hother
  rw [List.takeWhile_append_of_pos hother]
  exact List.prefix_append _ _

theorem IsLongestRun.eq_takeWhile (h : IsLongestRun p text run) : run = text.takeWhile p := by
  have htake := isLongestRun_takeWhile p text
  have hpre := htake.longest run h.isPrefix h.all
  exact hpre.eq_of_length_le (h.longest _ htake.isPrefix htake.all).length_le

theorem IsLongestRun.eq_append_dropWhile (h : IsLongestRun p text run) :
    text = run ++ text.dropWhile p := by
  rw [h.eq_takeWhile, List.takeWhile_append_dropWhile]

namespace Trim

/-! ## The start of a text -/

/-- What a class takes from the start of a text. -/
inductive Takes (text : List Char) : Trim → List Char → Prop
  | nothing : Takes text .nothing []
  | blanks {run : List Char} : IsLongestRun isBlank text run → Takes text .blanks run
  | space {run : List Char} : IsLongestRun isSpace text run → Takes text .space run
  | blankLine {blanks : List Char} : (∀ c ∈ blanks, isBlank c = true) →
      blanks ++ ['\n'] <+: text → Takes text .blankLine (blanks ++ ['\n'])
  | noBlankLine : (∀ blanks : List Char, (∀ c ∈ blanks, isBlank c = true) →
      ¬ blanks ++ ['\n'] <+: text) → Takes text .blankLine []

theorem dropStart_blankLine_append {blanks : List Char} (h : ∀ c ∈ blanks, isBlank c = true)
    (rest : List Char) : dropStart .blankLine (blanks ++ '\n' :: rest) = rest := by
  have hhead : ∀ c ∈ ('\n' :: rest).head?, isBlank c = false := by
    rintro c ⟨⟩
    rfl
  rw [dropStart, dropWhile_append_of_head h hhead]
  rfl

theorem dropStart_blankLine_of_none (h : ∀ blanks : List Char, (∀ c ∈ blanks, isBlank c = true) →
    ¬ blanks ++ ['\n'] <+: text) : dropStart .blankLine text = text := by
  rw [dropStart]
  split
  · next rest hrest =>
    refine absurd ⟨rest, ?_⟩ (h (text.takeWhile isBlank) (isLongestRun_takeWhile isBlank text).all)
    rw [List.append_assoc, List.singleton_append, ← hrest, List.takeWhile_append_dropWhile]
  · rfl

theorem dropStart_blankLine_of_isBlank (h : ∀ c ∈ text, isBlank c = true) :
    dropStart .blankLine text = text := by
  refine dropStart_blankLine_of_none fun blanks _ hpre => ?_
  exact absurd (h '\n' (hpre.subset (List.mem_append_right blanks List.mem_cons_self))) (by decide)

theorem exists_takes (trim : Trim) (text : List Char) : ∃ taken, Takes text trim taken := by
  cases trim with
  | nothing => exact ⟨_, .nothing⟩
  | blanks => exact ⟨_, .blanks (isLongestRun_takeWhile isBlank text)⟩
  | space => exact ⟨_, .space (isLongestRun_takeWhile isSpace text)⟩
  | blankLine =>
    by_cases h : ∃ blanks : List Char, (∀ c ∈ blanks, isBlank c = true) ∧ blanks ++ ['\n'] <+: text
    · obtain ⟨blanks, hblanks, hpre⟩ := h
      exact ⟨_, .blankLine hblanks hpre⟩
    · exact ⟨_, .noBlankLine fun blanks hblanks hpre => h ⟨blanks, hblanks, hpre⟩⟩

variable {trim : Trim} {taken : List Char}

theorem Takes.eq_append_dropStart (h : Takes text trim taken) :
    text = taken ++ trim.dropStart text := by
  cases h with
  | nothing => rfl
  | blanks h | space h => exact h.eq_append_dropWhile
  | blankLine hblanks hpre =>
    obtain ⟨rest, rfl⟩ := hpre
    rw [List.append_assoc, List.singleton_append, dropStart_blankLine_append hblanks,
      List.append_cons]
  | noBlankLine h => exact (dropStart_blankLine_of_none h).symm

theorem Takes.isSpace (h : Takes text trim taken) : ∀ c ∈ taken, isSpace c = true := by
  cases h with
  | nothing | noBlankLine => exact nofun
  | blanks h => exact fun c hc => isSpace_of_isBlank (h.all c hc)
  | space h => exact h.all
  | blankLine hblanks _ =>
    refine List.forall_mem_append.2 ⟨fun c hc => isSpace_of_isBlank (hblanks c hc), ?_⟩
    exact List.forall_mem_singleton.2 isSpace_newline

theorem dropStart_eq_iff {rest : List Char} :
    trim.dropStart text = rest ↔ ∃ taken, Takes text trim taken ∧ text = taken ++ rest := by
  constructor
  · rintro rfl
    obtain ⟨taken, h⟩ := exists_takes trim text
    exact ⟨taken, h, h.eq_append_dropStart⟩
  · rintro ⟨taken, h, htext⟩
    exact List.append_cancel_left (h.eq_append_dropStart.symm.trans htext)

/-! ## The end of a text -/

theorem dropEnd_eq_reverse (trim : Trim) (text : List Char) :
    trim.dropEnd text = (trim.dropStart text.reverse).reverse := by
  cases trim with
  | nothing => exact (List.reverse_reverse text).symm
  | blanks => exact dropEndWhile_eq_rdropWhile isBlank text
  | space => exact dropEndWhile_eq_rdropWhile isSpace text
  | blankLine =>
    rw [dropEnd, dropStart, dropEndWhile_eq_rdropWhile, List.rdropWhile, List.getLast?_reverse]
    split
    · next hlast =>
      obtain ⟨rest, hrest⟩ := List.head?_eq_some_iff.1 hlast
      rw [hrest, List.reverse_cons, List.dropLast_concat]
      rfl
    · next hlast =>
      split
      · next rest hrest =>
        rw [hrest] at hlast
        exact absurd rfl hlast
      · exact (List.reverse_reverse text).symm

theorem dropEnd_blankLine_append {blanks : List Char} (h : ∀ c ∈ blanks, isBlank c = true)
    (front : List Char) : dropEnd .blankLine (front ++ '\n' :: blanks) = front := by
  have hreverse : (front ++ '\n' :: blanks).reverse = blanks.reverse ++ '\n' :: front.reverse := by
    simp
  have hblanks : ∀ c ∈ blanks.reverse, isBlank c = true := fun c hc => h c (List.mem_reverse.1 hc)
  rw [dropEnd_eq_reverse, hreverse, dropStart_blankLine_append hblanks, List.reverse_reverse]

theorem dropEnd_blankLine_of_isBlank (h : ∀ c ∈ text, isBlank c = true) :
    dropEnd .blankLine text = text := by
  rw [dropEnd_eq_reverse, dropStart_blankLine_of_isBlank fun c hc => h c (List.mem_reverse.1 hc),
    List.reverse_reverse]

theorem exists_takes_reverse (trim : Trim) (text : List Char) :
    ∃ taken : List Char, Takes text.reverse trim taken.reverse := by
  obtain ⟨taken, h⟩ := exists_takes trim text.reverse
  exact ⟨taken.reverse, by rwa [List.reverse_reverse]⟩

theorem Takes.eq_dropEnd_append (h : Takes text.reverse trim taken.reverse) :
    text = trim.dropEnd text ++ taken := by
  rw [dropEnd_eq_reverse, ← List.reverse_inj, List.reverse_append, List.reverse_reverse]
  exact h.eq_append_dropStart

theorem exists_eq_dropEnd_append (trim : Trim) (text : List Char) :
    ∃ taken, text = trim.dropEnd text ++ taken ∧ ∀ c ∈ taken, Interpolation.isSpace c = true := by
  obtain ⟨taken, h⟩ := exists_takes_reverse trim text
  exact ⟨taken, h.eq_dropEnd_append, fun c hc => h.isSpace c (List.mem_reverse.2 hc)⟩

end Trim

/-! ## Both ends -/

theorem IsTrimmed.append {before mid after core : List Char} (h : IsTrimmed mid core)
    (hspace : ∀ c ∈ before ++ after, isSpace c = true) :
    IsTrimmed (before ++ (mid ++ after)) core := by
  obtain ⟨⟨front, back, rfl, hinner⟩, hhead, hlast⟩ := h
  obtain ⟨hbefore, hafter⟩ := List.forall_mem_append.1 hspace
  obtain ⟨hfront, hback⟩ := List.forall_mem_append.1 hinner
  refine ⟨⟨before ++ front, back ++ after, by simp, ?_⟩, hhead, hlast⟩
  exact List.forall_mem_append.2
    ⟨List.forall_mem_append.2 ⟨hbefore, hfront⟩, List.forall_mem_append.2 ⟨hback, hafter⟩⟩

namespace Trimming

/-- Trimming takes only white space away, and only from the two ends. -/
theorem exists_eq_append_apply (trimming : Trimming) (text : List Char) :
    ∃ before after, text = before ++ (trimming.apply text ++ after) ∧
      ∀ c ∈ before ++ after, isSpace c = true := by
  obtain ⟨before, hbefore⟩ := Trim.exists_takes trimming.leading text
  obtain ⟨after, hafter, hspace⟩ :=
    Trim.exists_eq_dropEnd_append trimming.trailing (trimming.leading.dropStart text)
  refine ⟨before, after, ?_, List.forall_mem_append.2 ⟨hbefore.isSpace, hspace⟩⟩
  rw [apply, ← hafter]
  exact hbefore.eq_append_dropStart

/-- The text from the first to the last character that is not white space is left. -/
theorem infix_apply_of_isTrimmed (trimming : Trimming) {text core : List Char}
    (h : IsTrimmed text core) : core <:+: trimming.apply text := by
  obtain ⟨before, after, htext, hspace⟩ := exists_eq_append_apply trimming text
  -- Without white space around it, what is left is the core of the text: there is only one.
  have hinner := isTrimmed_trimSpace (trimming.apply text)
  have hcore := (hinner.append hspace).eq_trimSpace
  rw [← htext, ← h.eq_trimSpace] at hcore
  obtain ⟨front, back, happly, -⟩ := hinner.exists_eq
  rw [hcore] at happly
  exact ⟨front, back, by rw [List.append_assoc]; exact happly.symm⟩

theorem apply_smart {blanks blanks' : List Char} (h : ∀ c ∈ blanks, isBlank c = true)
    (h' : ∀ c ∈ blanks', isBlank c = true) (body : List Char) :
    smart.apply (blanks ++ '\n' :: (body ++ '\n' :: blanks')) = body := by
  rw [apply, smart, Trim.dropStart_blankLine_append h, Trim.dropEnd_blankLine_append h']

/-- From the start of a text a class takes what `Trim.Takes` says, and from its end the same of the
text read backwards.  With both ends trimmed one part of the text is left, in which nothing is
missing from the first to the last character that is not white space.  Of a body between two lines
of blanks, the body is left. -/
theorem ends_mirrored_and_core_kept :
    (∀ trim text rest, Trim.dropStart trim text = rest ↔
      ∃ taken, Trim.Takes text trim taken ∧ text = taken ++ rest) ∧
    (∀ trim text, Trim.dropEnd trim text = (Trim.dropStart trim text.reverse).reverse) ∧
    (∀ (trimming : Trimming) text,
      (∃ before after, text = before ++ (trimming.apply text ++ after) ∧
        ∀ c ∈ before ++ after, isSpace c = true) ∧
      ∀ core, IsTrimmed text core → core <:+: trimming.apply text) ∧
    ∀ blanks body blanks' : List Char, (∀ c ∈ blanks, isBlank c = true) →
      (∀ c ∈ blanks', isBlank c = true) →
      smart.apply (blanks ++ '\n' :: (body ++ '\n' :: blanks')) = body :=
  ⟨fun _ _ _ => Trim.dropStart_eq_iff, Trim.dropEnd_eq_reverse,
    fun trimming text => ⟨exists_eq_append_apply trimming text,
      fun _ => infix_apply_of_isTrimmed trimming⟩,
    fun _ body _ h h' => apply_smart h h' body⟩

theorem ends_mirrored_and_core_kept_two_line_breaks :
    let blanks := [' ', '\t']
    let text := blanks ++ '\n' :: '\n' :: blanks
    Trim.Takes text .blankLine (blanks ++ ['\n']) ∧
      Trim.dropStart .blankLine text = '\n' :: blanks ∧
      IsTrimmed (text ++ 'é' :: text) ['é'] ∧ ['é'] <:+: smart.apply (text ++ 'é' :: text) ∧
      smart.apply text = [] := by
  intro blanks text
  have hblanks : ∀ c ∈ blanks, isBlank c = true := List.all_eq_true.1 rfl
  have hspace : ∀ c ∈ text ++ text, isSpace c = true := List.all_eq_true.1 rfl
  have htakes : Trim.Takes text .blankLine (blanks ++ ['\n']) :=
    .blankLine hblanks ⟨'\n' :: blanks, rfl⟩
  have hletter : ∀ c ∈ some 'é', isSpace c = false := by
    rintro c ⟨⟩
    rfl
  have htrimmed : IsTrimmed (text ++ 'é' :: text) ['é'] :=
    ⟨⟨text, text, rfl, hspace⟩, hletter, hletter⟩
  obtain ⟨hstart, -, hkept, hsmart⟩ := ends_mirrored_and_core_kept
  exact ⟨htakes, (hstart .blankLine text _).2 ⟨_, htakes, rfl⟩, htrimmed,
    (hkept smart _).2 _ htrimmed, hsmart blanks [] blanks hblanks hblanks⟩

end Trimming

end Interpolation
