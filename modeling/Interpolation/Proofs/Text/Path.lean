import Interpolation.Text.Path

/-!
# The segments of a path

A path is its segments with dots between them, and none of them has a dot: there is no other way to
write a path like this.
-/

namespace Interpolation.Path

theorem cut_cons (c : Char) (text : List Char) :
    cut (c :: text) =
      if c = '.' then ([], (cut text).1 :: (cut text).2) else (c :: (cut text).1, (cut text).2) :=
  rfl

theorem cut_of_not_mem {piece : List Char} (h : '.' ∉ piece) : cut piece = (piece, []) := by
  induction piece with
  | nil => rfl
  | cons c piece ih =>
    rw [List.mem_cons, not_or] at h
    rw [cut_cons, ih h.2, if_neg (Ne.symm h.1)]

theorem cut_dot {piece : List Char} (h : '.' ∉ piece) (text : List Char) :
    cut (piece ++ '.' :: text) = (piece, (cut text).1 :: (cut text).2) := by
  induction piece with
  | nil => rw [List.nil_append, cut_cons, if_pos rfl]
  | cons c piece ih =>
    rw [List.mem_cons, not_or] at h
    rw [List.cons_append, cut_cons, ih h.2, if_neg (Ne.symm h.1)]

/-- A text has no dot, or it is a piece without one, a dot and another text. -/
@[elab_as_elim]
theorem cutInduction {motive : List Char → Prop} (last : ∀ piece, '.' ∉ piece → motive piece)
    (dot : ∀ piece text, '.' ∉ piece → motive text → motive (piece ++ '.' :: text))
    (text : List Char) : motive text := by
  induction hlength : text.length using Nat.strongRecOn generalizing text with
  | ind length ih =>
    by_cases hmem : '.' ∈ text
    · obtain ⟨piece, rest, rfl, hpiece⟩ := List.eq_append_cons_of_mem hmem
      have hshorter : rest.length < length := by
        rw [List.length_append, List.length_cons] at hlength
        omega
      exact dot piece rest hpiece (ih rest.length hshorter rest rfl)
    · exact last text hmem

theorem intercalate_cut (text : List Char) :
    ['.'].intercalate ((cut text).1 :: (cut text).2) = text := by
  induction text using cutInduction with
  | last piece hpiece => rw [cut_of_not_mem hpiece, List.intercalate_singleton]
  | dot piece text hpiece ih =>
    rw [cut_dot hpiece, List.intercalate_cons_cons, ih, List.append_assoc, List.singleton_append]

theorem not_mem_of_mem_cut (text : List Char) :
    ∀ piece ∈ (cut text).1 :: (cut text).2, '.' ∉ piece := by
  induction text using cutInduction with
  | last piece hpiece =>
    rw [cut_of_not_mem hpiece]
    exact List.forall_mem_singleton.2 hpiece
  | dot piece text hpiece ih =>
    rw [cut_dot hpiece]
    exact List.forall_mem_cons.2 ⟨hpiece, ih⟩

theorem splitOn_eq (text : List Char) : text.splitOn '.' = (cut text).1 :: (cut text).2 := by
  calc text.splitOn '.'
      = (['.'].intercalate ((cut text).1 :: (cut text).2)).splitOn '.' := by rw [intercalate_cut]
    _ = (cut text).1 :: (cut text).2 :=
        List.splitOn_intercalate _ (not_mem_of_mem_cut text) (List.cons_ne_nil _ _)

theorem cut_intercalate {pieces : List (List Char)} (hne : pieces ≠ [])
    (h : ∀ piece ∈ pieces, '.' ∉ piece) :
    (cut (['.'].intercalate pieces)).1 :: (cut (['.'].intercalate pieces)).2 = pieces := by
  rw [← splitOn_eq]
  exact List.splitOn_intercalate _ h hne

theorem hasGap_ofList (text : List Char) :
    hasGap (String.ofList text) = true ↔ [] ∈ text.splitOn '.' := by
  rw [splitOn_eq, hasGap, segments, String.toList_ofList]
  simp

/-- The segments of a path, in order. -/
def names (path : String) : List String := (segments path).1 :: (segments path).2

theorem names_eq (path : String) :
    names path = ((cut path.toList).1 :: (cut path.toList).2).map String.ofList := rfl

theorem intercalate_names (path : String) : ".".intercalate (names path) = path := by
  rw [← String.toList_inj, String.toList_intercalate, names_eq, List.map_map]
  simp [Function.comp_def, intercalate_cut]

theorem not_mem_of_mem_names {path name : String} (h : name ∈ names path) : '.' ∉ name.toList := by
  rw [names_eq] at h
  obtain ⟨piece, hpiece, rfl⟩ := List.mem_map.1 h
  rw [String.toList_ofList]
  exact not_mem_of_mem_cut path.toList piece hpiece

theorem names_intercalate {parts : List String} (hne : parts ≠ [])
    (h : ∀ part ∈ parts, '.' ∉ part.toList) : names (".".intercalate parts) = parts := by
  have htext : (".".intercalate parts).toList = ['.'].intercalate (parts.map String.toList) :=
    String.toList_intercalate
  have hparts : parts.map String.toList ≠ [] := by simpa using hne
  rw [names_eq, htext, cut_intercalate hparts (List.forall_mem_map.2 h), List.map_map]
  simp

theorem names_of_not_mem {name : String} (h : '.' ∉ name.toList) : names name = [name] := by
  rw [names_eq, cut_of_not_mem h]
  simp

/-- Two paths with a dot between them have the segments of both. -/
theorem names_append_dot (p q : String) : names (p ++ "." ++ q) = names p ++ names q := by
  have htext : (p ++ "." ++ q).toList = p.toList ++ '.' :: q.toList := by simp
  rw [names_eq, names_eq, names_eq, ← splitOn_eq, ← splitOn_eq, ← splitOn_eq, htext,
    List.splitOn_append_cons_self, List.map_append]

theorem root_append_dot (p q : String) : root (p ++ "." ++ q) = root p :=
  (List.cons.inj (names_append_dot p q)).1

end Interpolation.Path
