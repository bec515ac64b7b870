import Interpolation.Text.Ends
import Interpolation.Text.Quoted

/-!
# Quoted texts are unambiguous

What is written for a character determines the character and where it ends, and never begins with
the closing quote.  So the text between quotes is determined, and where the quotes end.
-/

namespace Interpolation.Quoted

/-! ## Code points -/

theorem digitChar_inj :
    ∀ m < 16, ∀ n < 16, Nat.digitChar m = Nat.digitChar n → m = n := by decide

theorem digitChar_ne_brace : ∀ n < 16, Nat.digitChar n ≠ '}' := by decide

theorem toDigits_eq_concat (n : Nat) :
    Nat.toDigits 16 n =
      (if n < 16 then [] else Nat.toDigits 16 (n / 16)) ++ [Nat.digitChar (n % 16)] := by
  rw [Nat.toDigits_eq_if (by decide)]
  split
  · next h => rw [Nat.mod_eq_of_lt h]; rfl
  · rfl

theorem toDigits_inj {m n : Nat} (h : Nat.toDigits 16 m = Nat.toDigits 16 n) : m = n := by
  induction m using Nat.strongRecOn generalizing n with
  | ind m ih =>
    rw [toDigits_eq_concat m, toDigits_eq_concat n] at h
    obtain ⟨hinit, hlast⟩ := List.append_inj' h rfl
    have hmod : m % 16 = n % 16 :=
      digitChar_inj _ (Nat.mod_lt m (by decide)) _ (Nat.mod_lt n (by decide))
        (List.singleton_inj.1 hlast)
    have hdiv : m / 16 = n / 16 := by
      split at hinit <;> split at hinit
      · omega
      · exact absurd hinit.symm Nat.toDigits_ne_nil
      · exact absurd hinit Nat.toDigits_ne_nil
      · exact ih (m / 16) (by omega) hinit
    omega

theorem ne_brace_of_mem_toDigits {n : Nat} {c : Char} (h : c ∈ Nat.toDigits 16 n) : c ≠ '}' := by
  induction n using Nat.strongRecOn with
  | ind n ih =>
    rw [toDigits_eq_concat, List.mem_append, List.mem_singleton] at h
    rcases h with h | rfl
    · split at h
      · exact absurd h List.not_mem_nil
      · exact ih (n / 16) (by omega) h
    · exact digitChar_ne_brace _ (Nat.mod_lt n (by decide))

theorem codePoint_append_inj {c d : Char} {r s : List Char}
    (h : codePoint c ++ r = codePoint d ++ s) : c = d ∧ r = s := by
  have hdigits : ∀ (c : Char), ∀ a ∈ Nat.toDigits 16 c.toNat, (a != '}') = true :=
    fun c a ha => bne_iff_ne.2 (ne_brace_of_mem_toDigits ha)
  simp only [codePoint, List.append_assoc, List.cons_append, List.nil_append, List.cons.injEq,
    true_and] at h
  obtain ⟨hcode, hrest⟩ := append_inj_of_head (hdigits c) (hdigits d) (by simp) (by simp) h
  exact ⟨Char.toNat_inj.1 (toDigits_inj hcode), (List.cons.inj hrest).2⟩

/-! ## Characters -/

/-- The characters that are escaped by a letter or a sign, and by which. -/
def letters : List (Char × Char) :=
  [('\x00', '0'), ('\t', 't'), ('\r', 'r'), ('\n', 'n'), ('"', '"'), ('\\', '\\')]

theorem letters_inj : ∀ x ∈ letters, ∀ y ∈ letters, x.2 = y.2 → x.1 = y.1 := by decide

theorem ne_of_mem_letters : ∀ x ∈ letters, x.2 ≠ 'u' := by decide

/-- The three forms that a character can have between the quotes. -/
inductive Form (c : Char) : List Char → Prop
  | plain (hquote : c ≠ '"') (hescape : c ≠ '\\') : Form c [c]
  | letter {l : Char} (h : (c, l) ∈ letters) : Form c ['\\', l]
  | code : Form c (codePoint c)

theorem form_escape (c : Char) : Form c (escape c) := by
  unfold escape
  split
  case h_7 hquote hescape =>
    split
    · exact .code
    · exact .plain hquote hescape
  all_goals exact .letter (by decide)

theorem Form.append_inj {c d : Char} {text text' r s : List Char} (hc : Form c text)
    (hd : Form d text') (h : text ++ r = text' ++ s) : c = d ∧ r = s := by
  cases hc with
  | plain _ hc =>
    cases hd with
    | plain => exact List.cons.inj h
    | letter => exact absurd (List.cons.inj h).1 hc
    | code => exact absurd (List.cons.inj h).1 hc
  | letter hc =>
    cases hd with
    | plain _ hd => exact absurd (List.cons.inj h).1.symm hd
    | letter hd =>
      obtain ⟨hletter, hrest⟩ := List.cons.inj (List.cons.inj h).2
      exact ⟨letters_inj _ hc _ hd hletter, hrest⟩
    | code => exact absurd (List.cons.inj (List.cons.inj h).2).1 (ne_of_mem_letters _ hc)
  | code =>
    cases hd with
    | plain _ hd => exact absurd (List.cons.inj h).1.symm hd
    | letter hd => exact absurd (List.cons.inj (List.cons.inj h).2).1.symm (ne_of_mem_letters _ hd)
    | code => exact codePoint_append_inj h

theorem Form.ne_quote {c : Char} {text r s : List Char} (hc : Form c text) :
    text ++ r ≠ '"' :: s := by
  intro h
  cases hc with
  | plain hquote => exact hquote (List.cons.inj h).1
  | letter => exact absurd (List.cons.inj h).1 (by decide)
  | code => exact absurd (List.cons.inj h).1 (by decide)

/-! ## Texts -/

theorem flatMap_escape_append_inj {text text' r s : List Char}
    (h : text.flatMap escape ++ '"' :: r = text'.flatMap escape ++ '"' :: s) :
    text = text' ∧ r = s := by
  induction text generalizing text' with
  | nil =>
    cases text' with
    | nil => exact ⟨rfl, (List.cons.inj h).2⟩
    | cons d text' =>
      rw [List.flatMap_cons, List.append_assoc] at h
      exact absurd h.symm (form_escape d).ne_quote
  | cons c text ih =>
    rw [List.flatMap_cons, List.append_assoc] at h
    cases text' with
    | nil => exact absurd h (form_escape c).ne_quote
    | cons d text' =>
      rw [List.flatMap_cons, List.append_assoc] at h
      obtain ⟨rfl, htail⟩ := (form_escape c).append_inj (form_escape d) h
      obtain ⟨rfl, hrest⟩ := ih htail
      exact ⟨rfl, hrest⟩

theorem toList_quote_append (text : String) (r : List Char) :
    (quote text).toList ++ r = '"' :: (text.toList.flatMap escape ++ '"' :: r) := by
  simp [quote]

theorem quote_append_inj {text text' : String} {r s : List Char}
    (h : (quote text).toList ++ r = (quote text').toList ++ s) : text = text' ∧ r = s := by
  rw [toList_quote_append, toList_quote_append] at h
  obtain ⟨htext, hrest⟩ := flatMap_escape_append_inj (List.cons.inj h).2
  exact ⟨String.toList_inj.1 htext, hrest⟩

end Interpolation.Quoted
