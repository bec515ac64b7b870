import Interpolation.Value.Entries

/-!
# The keys of a map

The keys of a map stand in their order, each of them once, and they are the keys that the map was
made with.
-/

namespace Interpolation.Entries

variable {α : Type}

/-- The keys of entries. -/
def keys (entries : List (String × α)) : List String := entries.map Prod.fst

@[simp] theorem keys_cons (key : String) (value : α) (entries : List (String × α)) :
    keys ((key, value) :: entries) = key :: keys entries := rfl

theorem mem_keys_insert {name key : String} {value : α} {entries : List (String × α)} :
    name ∈ keys (insert key value entries) ↔ name = key ∨ name ∈ keys entries := by
  induction entries with
  | nil => exact List.mem_cons
  | cons entry entries ih =>
    obtain ⟨k, v⟩ := entry
    unfold insert
    split
    · exact List.mem_cons
    · split
      · next h =>
        subst h
        simp
      · rw [keys_cons, List.mem_cons, ih, keys_cons, List.mem_cons, or_left_comm]

theorem pairwise_keys_insert {key : String} {value : α} {entries : List (String × α)}
    (h : (keys entries).Pairwise (· < ·)) : (keys (insert key value entries)).Pairwise (· < ·) := by
  induction entries with
  | nil => exact List.pairwise_singleton _ key
  | cons entry entries ih =>
    obtain ⟨k, v⟩ := entry
    obtain ⟨hk, hentries⟩ := List.pairwise_cons.1 h
    unfold insert
    split
    · next hlt =>
      refine List.pairwise_cons.2 ⟨List.forall_mem_cons.2 ⟨hlt, fun name hname => ?_⟩, h⟩
      exact String.lt_trans hlt (hk name hname)
    · next hlt =>
      split
      · next heq =>
        subst heq
        exact h
      · next hne =>
        have hgt : k < key :=
          Decidable.byContradiction fun hle => hne (String.le_antisymm hle hlt)
        refine List.pairwise_cons.2 ⟨fun name hname => ?_, ih hentries⟩
        rcases mem_keys_insert.1 hname with rfl | hmem
        · exact hgt
        · exact hk name hmem

theorem mem_of_mem_insert {entry : String × α} {key : String} {value : α}
    {entries : List (String × α)} (h : entry ∈ insert key value entries) :
    entry = (key, value) ∨ entry ∈ entries := by
  induction entries with
  | nil => exact .inl (List.mem_singleton.1 h)
  | cons first entries ih =>
    obtain ⟨k, v⟩ := first
    unfold insert at h
    split at h
    · exact List.mem_cons.1 h
    · split at h
      · exact (List.mem_cons.1 h).imp_right (List.mem_cons_of_mem _)
      · rcases List.mem_cons.1 h with rfl | hmem
        · exact .inr List.mem_cons_self
        · exact (ih hmem).imp_right (List.mem_cons_of_mem _)

/-- Nothing is in a map that it was not made with. -/
theorem mem_of_mem_ofList {entry : String × α} {entries : List (String × α)}
    (h : entry ∈ ofList entries) : entry ∈ entries := by
  rw [ofList, ← List.foldr_reverse] at h
  rw [← List.mem_reverse]
  generalize entries.reverse = reversed at h ⊢
  induction reversed with
  | nil => exact h
  | cons first entries ih =>
    rw [List.foldr_cons] at h
    rcases mem_of_mem_insert h with rfl | hmem
    · exact List.mem_cons_self
    · exact List.mem_cons_of_mem _ (ih hmem)

theorem mem_keys_ofList {name : String} {entries : List (String × α)} :
    name ∈ keys (ofList entries) ↔ name ∈ keys entries := by
  have hreverse : name ∈ keys entries ↔ name ∈ keys entries.reverse := by
    rw [keys, keys, List.map_reverse, List.mem_reverse]
  rw [hreverse, ofList, ← List.foldr_reverse]
  induction entries.reverse with
  | nil => rfl
  | cons entry entries ih =>
    rw [List.foldr_cons, mem_keys_insert, keys_cons, List.mem_cons]
    exact or_congr_right ih

theorem pairwise_keys_ofList (entries : List (String × α)) :
    (keys (ofList entries)).Pairwise (· < ·) := by
  rw [ofList, ← List.foldr_reverse]
  induction entries.reverse with
  | nil => exact .nil
  | cons entry entries ih => exact pairwise_keys_insert ih

end Interpolation.Entries
