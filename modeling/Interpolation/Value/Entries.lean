/-!
# Entries of a map

A map is a list of entries in the order of their keys, by code point, with one entry for each key.
-/

namespace Interpolation.Entries

variable {α : Type}

/-- The entries with one more, in the order of their keys; an entry with the same key gives way. -/
def insert (key : String) (value : α) : List (String × α) → List (String × α)
  | [] => [(key, value)]
  | (k, v) :: entries =>
    if key < k then (key, value) :: (k, v) :: entries
    else if key = k then (key, value) :: entries
    else (k, v) :: insert key value entries

/-- Entries in the order of their keys; of several with one key the last counts. -/
def ofList (entries : List (String × α)) : List (String × α) :=
  entries.foldl (fun sorted (key, value) => insert key value sorted) []

theorem lookup_cons (key : String) (value : α) (entries : List (String × α)) (name : String) :
    ((key, value) :: entries).lookup name =
      if name = key then some value else entries.lookup name := by
  rw [List.lookup_cons]
  by_cases h : name = key
  · simp [h]
  · rw [beq_eq_false_iff_ne.2 h, if_neg h]

theorem lookup_insert (key : String) (value : α) (entries : List (String × α)) (name : String) :
    (insert key value entries).lookup name =
      if name = key then some value else entries.lookup name := by
  induction entries with
  | nil => exact lookup_cons key value [] name
  | cons entry entries ih =>
    obtain ⟨k, v⟩ := entry
    unfold insert
    split
    · exact lookup_cons key value _ name
    · split
      · next h =>
        subst h
        rw [lookup_cons, lookup_cons]
        by_cases hname : name = key <;> simp [hname]
      · next h =>
        rw [lookup_cons, lookup_cons, ih]
        by_cases hname : name = k
        · subst hname
          rw [if_pos rfl, if_neg (Ne.symm h), if_pos rfl]
        · rw [if_neg hname, if_neg hname]

/-- Of several entries with one key the last counts. -/
theorem lookup_ofList (entries : List (String × α)) (name : String) :
    (ofList entries).lookup name = entries.reverse.lookup name := by
  unfold ofList
  rw [← List.foldr_reverse]
  induction entries.reverse with
  | nil => rfl
  | cons entry entries ih =>
    rw [List.foldr_cons, lookup_insert, ih, lookup_cons]

end Interpolation.Entries
