import Mathlib.Data.List.Induction
import Interpolation.Source.Origin

/-!
# Positions behind a text

The position that an offset has in a source depends on the text before the offset only: its bytes,
its line breaks and the characters after the last of these.
-/

namespace Interpolation

namespace Position

theorem utf8ByteSize_ofList_cons (c : Char) (text : List Char) :
    (String.ofList (c :: text)).utf8ByteSize = c.utf8Size + (String.ofList text).utf8ByteSize := by
  rw [← String.utf8ByteSize_singleton, ← String.utf8ByteSize_append, String.singleton_eq_ofList,
    ← String.ofList_append, List.singleton_append]

theorem startingBefore_append (before rest : List Char) :
    startingBefore (String.ofList before).utf8ByteSize (before ++ rest) = before := by
  induction before with
  | nil => cases rest <;> rfl
  | cons c before ih =>
    have hpos : c.utf8Size + (String.ofList before).utf8ByteSize ≠ 0 := by
      have := c.utf8Size_pos
      omega
    rw [utf8ByteSize_ofList_cons, List.cons_append, startingBefore, if_neg hpos,
      Nat.add_sub_cancel_left, ih]

/-- The number of characters after the last line break, all of them if there is none. -/
def lastLine (text : List Char) : Nat := (text.reverse.takeWhile (· ≠ '\n')).length

theorem lastLine_concat (text : List Char) (c : Char) :
    lastLine (text ++ [c]) = if c = '\n' then 0 else lastLine text + 1 := by
  rw [lastLine, List.reverse_concat, List.takeWhile_cons]
  by_cases hc : c = '\n' <;> simp [hc, lastLine]

theorem foldl_advance (text : List Char) :
    text.foldl advance (0, 0) = (text.count '\n', lastLine text) := by
  induction text using List.reverseRecOn with
  | nil => rfl
  | append_singleton text c ih =>
    rw [List.foldl_append, ih, List.foldl_cons, List.foldl_nil, List.count_append,
      List.count_singleton, lastLine_concat, advance]
    by_cases hc : c = '\n' <;> simp [hc]

/-- The position behind a text. -/
def behind (text : String) : Position :=
  ⟨text.utf8ByteSize, text.toList.count '\n', lastLine text.toList⟩

theorem at?_append (before rest : String) :
    at? (before ++ rest) before.utf8ByteSize = some (behind before) := by
  have hle : before.utf8ByteSize ≤ (before ++ rest).utf8ByteSize := by
    rw [String.utf8ByteSize_append]
    exact Nat.le_add_right _ _
  have hstarting := startingBefore_append before.toList rest.toList
  rw [String.ofList_toList] at hstarting
  rw [at?, if_pos hle, String.toList_append, hstarting, foldl_advance]
  rfl

end Position

namespace Origin

/-- The origin of a text behind another. -/
def behind (file : Nat) (before text : String) : Origin :=
  ⟨file, .behind before, .behind (before ++ text)⟩

theorem ofOffsets_append (file : Nat) (before text rest : String) :
    ofOffsets file (before ++ text ++ rest) before.utf8ByteSize
      (before.utf8ByteSize + text.utf8ByteSize) = behind file before text := by
  have hstart : Position.at? (before ++ text ++ rest) before.utf8ByteSize =
      some (.behind before) := by
    rw [String.append_assoc, Position.at?_append]
  rw [ofOffsets, hstart, ← String.utf8ByteSize_append, Position.at?_append]
  rfl

end Origin

end Interpolation
