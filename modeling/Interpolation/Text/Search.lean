/-!
# Searching a text

`occursIn` decides whether one list is a contiguous part of another, and `splitAtPair` finds the
first place where a character stands twice in a row.
-/

namespace Interpolation

/-- Whether the first list is a contiguous part of the second. -/
def occursIn {α : Type} [BEq α] (part : List α) : List α → Bool
  | [] => part.isEmpty
  | a :: l => part.isPrefixOf (a :: l) || occursIn part l

/-- What stands before and after the first two of a character in a row. -/
def splitAtPair (c : Char) : List Char → Option (List Char × List Char)
  | a :: b :: text =>
    if a = c ∧ b = c then some ([], text)
    else (splitAtPair c (b :: text)).map fun (before, after) => (a :: before, after)
  | _ => none

theorem eq_of_splitAtPair {c : Char} :
    ∀ {text before after : List Char}, splitAtPair c text = some (before, after) →
      text = before ++ c :: c :: after
  | [], _, _, h => by simp [splitAtPair] at h
  | [_], _, _, h => by simp [splitAtPair] at h
  | a :: b :: text, before, after, h => by
    unfold splitAtPair at h
    split at h
    · next hab =>
      obtain ⟨rfl, rfl⟩ := hab
      obtain ⟨rfl, rfl⟩ := Prod.mk.inj (Option.some.inj h)
      rfl
    · obtain ⟨⟨before', after'⟩, hsplit, hpair⟩ := Option.map_eq_some_iff.1 h
      obtain ⟨rfl, rfl⟩ := Prod.mk.inj hpair
      rw [eq_of_splitAtPair hsplit]
      rfl

theorem length_lt_of_splitAtPair {c : Char} {text before after : List Char}
    (h : splitAtPair c text = some (before, after)) : after.length < text.length := by
  rw [eq_of_splitAtPair h]
  simp
  omega

end Interpolation
