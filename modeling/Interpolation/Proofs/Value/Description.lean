import Interpolation.Proofs.Number.Text
import Interpolation.Proofs.Text.Quoted
import Interpolation.Value.Display

/-!
# Descriptions are unambiguous

A value that is built from data alone is determined by its text in a list or a map, and so is where
the text ends.  Words and numbers are written in characters that no quote, bracket or separator is
one of; a quoted text ends at its own quote; and brackets end where the last of their parts is not
followed by a comma.
-/

namespace Interpolation.Value

/-- A value of the kinds that data has, also inside lists and maps. -/
inductive IsData : Value → Prop
  | null : IsData .null
  | bool (b : Bool) : IsData (.bool b)
  | int (n : Int) : IsData (.int n)
  | float (x : Double) : IsData (.float x)
  | text (s : String) : IsData (.text s)
  | list {items : List Value} (hitems : ∀ item ∈ items, IsData item) : IsData (.list items)
  | map {entries : List (String × Value)} (hentries : ∀ entry ∈ entries, IsData entry.2) :
    IsData (.map entries)

/-- Whether the value is a list or a map. -/
def isNested : Value → Bool
  | .list _ | .map _ => true
  | _ => false

/-! ## Words and numbers -/

/-- The characters of words and numbers. -/
def isBare (c : Char) : Bool := c.isAlphanum || c == '-' || c == '.'

/-- The characters of integers. -/
def isIntegral (c : Char) : Bool := c.isDigit || c == '-'

/-- A bare text does not go on. -/
def Ends (rest : List Char) : Prop := ∀ c ∈ rest.head?, isBare c = false

/-- The quote or the bracket that a description begins with. -/
def opening? : Value → Option Char
  | .text _ => some '"'
  | .list _ | .map _ => some '['
  | _ => none

/-- The value that is described by a word or a number.  A double has a point or a letter in its
text, by which it is told from an integer. -/
def ofBareText? (text : List Char) : Option Value :=
  if text = ['n', 'i', 'l'] then some .null
  else if text = ['t', 'r', 'u', 'e'] then some (.bool true)
  else if text = ['f', 'a', 'l', 's', 'e'] then some (.bool false)
  else if text.all isIntegral then (Numeral.signed? text).map .int
  else (Double.ofText? text).map .float

theorem isBare_of_isDigit {c : Char} (h : c.isDigit = true) : isBare c = true := by
  rw [isBare, Char.isAlphanum, h, Bool.or_true]; rfl

theorem isBare_of_mem_toString {n : Int} {c : Char} (h : c ∈ (toString n).toList) :
    isBare c = true := by
  rcases Numeral.isDigit_or_minus_of_mem_toString h with h | rfl
  · exact isBare_of_isDigit h
  · rfl

theorem isBare_of_mem_toText {x : Double} {c : Char} (h : c ∈ x.toText.toList) :
    isBare c = true := by
  cases x with
  | nan => exact List.all_eq_true.1 rfl c h
  | infinite negative =>
    cases negative with
    | true => exact List.all_eq_true.1 rfl c h
    | false => exact List.all_eq_true.1 rfl c h
  | finite negative units hunits =>
    rw [Double.toText, String.toList_ofList, List.mem_append] at h
    rcases h with h | h
    · cases negative with
      | true => rw [List.mem_singleton.1 h]; rfl
      | false => exact absurd h List.not_mem_nil
    · rcases Double.mem_unsignedText hunits h with h | rfl | rfl | rfl
      · exact isBare_of_isDigit h
      all_goals rfl

theorem all_toString (n : Int) : (toString n).toList.all isIntegral = true :=
  List.all_eq_true.2 fun c hc => by
    rcases Numeral.isDigit_or_minus_of_mem_toString hc with h | rfl
    · rw [isIntegral, h, Bool.true_or]
    · rfl

theorem ofBareText?_toString (n : Int) : ofBareText? (toString n).toList = some (.int n) := by
  have hall := all_toString n
  have hword : ∀ word : List Char, word.all isIntegral = false → (toString n).toList ≠ word := by
    rintro word hfalse rfl
    exact Bool.noConfusion (hall.symm.trans hfalse)
  rw [ofBareText?, if_neg (hword _ (by decide)), if_neg (hword _ (by decide)),
    if_neg (hword _ (by decide)), if_pos hall, Numeral.signed?_toString, Option.map_some]

theorem all_toText (x : Double) : x.toText.toList.all isIntegral = false := by
  cases x with
  | nan => decide
  | infinite negative => cases negative <;> decide
  | finite negative units hunits =>
    rw [Double.toText, String.toList_ofList, List.all_append, Bool.and_eq_false_iff]
    refine .inr (List.all_eq_false.2 ?_)
    rcases Double.point_or_mark_mem_unsignedText hunits with h | h
    · exact ⟨'.', h, by decide⟩
    · exact ⟨'e', h, by decide⟩

theorem ofBareText?_toText (x : Double) : ofBareText? x.toText.toList = some (.float x) := by
  have hread := Double.ofText?_toText x
  have hword : ∀ word : List Char, Double.ofText? word = none → x.toText.toList ≠ word := by
    rintro word hnone rfl
    exact Option.some_ne_none x (hread.symm.trans hnone)
  rw [ofBareText?, if_neg (hword _ rfl), if_neg (hword _ rfl), if_neg (hword _ rfl), all_toText,
    if_neg Bool.false_ne_true, hread, Option.map_some]

variable {a b : Value} {r s : List Char}

theorem isBare_and_ofBareText? (ha : IsData a) (hopening : opening? a = none) :
    (∀ c ∈ (describe a).toList, isBare c = true) ∧ ofBareText? (describe a).toList = some a := by
  cases ha with
  | null => exact ⟨List.all_eq_true.1 rfl, rfl⟩
  | bool b => cases b <;> exact ⟨List.all_eq_true.1 rfl, rfl⟩
  | int n => exact ⟨fun _ => isBare_of_mem_toString, ofBareText?_toString n⟩
  | float x => exact ⟨fun _ => isBare_of_mem_toText, ofBareText?_toText x⟩
  | text | list | map => exact absurd hopening (Option.some_ne_none _)

theorem bare_append_inj (ha : IsData a) (hb : IsData b) (hopening : opening? a = none)
    (hopening' : opening? b = none) (hr : Ends r) (hs : Ends s)
    (h : (describe a).toList ++ r = (describe b).toList ++ s) : a = b ∧ r = s := by
  obtain ⟨hbare, hread⟩ := isBare_and_ofBareText? ha hopening
  obtain ⟨hbare', hread'⟩ := isBare_and_ofBareText? hb hopening'
  obtain ⟨htext, hrest⟩ := append_inj_of_head hbare hbare' hr hs h
  rw [htext] at hread
  exact ⟨Option.some_inj.1 (hread.symm.trans hread'), hrest⟩

/-! ## Brackets -/

/-- What follows the first of the parts in brackets: the others behind their commas, and the
closing bracket. -/
def closing (parts : List String) : List Char :=
  parts.flatMap (fun part => ',' :: ' ' :: part.toList) ++ [']']

theorem closing_cons_append (part : String) (parts : List String) (r : List Char) :
    closing (part :: parts) ++ r = ',' :: ' ' :: (part.toList ++ (closing parts ++ r)) := by
  simp [closing]

theorem ends_closing (parts : List String) (r : List Char) : Ends (closing parts ++ r) := by
  cases parts with
  | nil => rintro c ⟨⟩; rfl
  | cons part parts => rw [closing_cons_append]; rintro c ⟨⟩; rfl

theorem toList_bracketed_nil_append (r : List Char) :
    (bracketed []).toList ++ r = '[' :: ']' :: r := rfl

theorem toList_bracketed_append (part : String) (parts : List String) (r : List Char) :
    (bracketed (part :: parts)).toList ++ r = '[' :: (part.toList ++ (closing parts ++ r)) := by
  have hintercalate : (", ".intercalate (part :: parts)).toList ++ ']' :: r =
      part.toList ++ (closing parts ++ r) := by
    induction parts generalizing part with
    | nil => simp [closing]
    | cons next parts ih =>
      rw [String.intercalate_cons_of_ne_nil (List.cons_ne_nil _ _), closing_cons_append, ← ih next]
      simp
  rw [← hintercalate]
  simp [bracketed]

/-- The text of `x` is told from the texts of all values that satisfy `P`, and so is where it ends
if nothing goes on with it. -/
def Decodes {α : Type} (P : α → Prop) (text : α → String) (x : α) : Prop :=
  ∀ ⦃y : α⦄ ⦃r s : List Char⦄, P y → Ends r → Ends s →
    (text x).toList ++ r = (text y).toList ++ s → x = y ∧ r = s

section Parts

variable {α : Type} {P : α → Prop} {text : α → String} {xs ys : List α}

theorem closing_append_inj (hxs : ∀ x ∈ xs, Decodes P text x) (hys : ∀ y ∈ ys, P y)
    (h : closing (xs.map text) ++ r = closing (ys.map text) ++ s) : xs = ys ∧ r = s := by
  induction xs generalizing ys with
  | nil =>
    cases ys with
    | nil => exact ⟨rfl, (List.cons.inj h).2⟩
    | cons y ys => exact absurd (List.cons.inj h).1 (by decide)
  | cons x xs ih =>
    cases ys with
    | nil => exact absurd (List.cons.inj h).1 (by decide)
    | cons y ys =>
      rw [List.forall_mem_cons] at hxs hys
      simp only [List.map_cons, closing_cons_append, List.cons.injEq, true_and] at h
      obtain ⟨hpart, hclosing⟩ := hxs.1 hys.1 (ends_closing _ _) (ends_closing _ _) h
      obtain ⟨hparts, hrest⟩ := ih hxs.2 hys.2 hclosing
      exact ⟨by rw [hpart, hparts], hrest⟩

/-- Parts that do not begin with a closing bracket are determined by the brackets around them. -/
theorem bracketed_append_inj (hstart : ∀ x, P x → ∀ r s, (text x).toList ++ r ≠ ']' :: s)
    (hxs : ∀ x ∈ xs, P x) (hdecodes : ∀ x ∈ xs, Decodes P text x) (hys : ∀ y ∈ ys, P y)
    (h : (bracketed (xs.map text)).toList ++ r = (bracketed (ys.map text)).toList ++ s) :
    xs = ys ∧ r = s := by
  cases xs with
  | nil =>
    cases ys with
    | nil => exact ⟨rfl, List.append_cancel_left h⟩
    | cons y ys =>
      rw [List.map_nil, toList_bracketed_nil_append, List.map_cons, toList_bracketed_append] at h
      exact absurd (List.cons.inj h).2.symm (hstart y (hys y List.mem_cons_self) _ _)
  | cons x xs =>
    cases ys with
    | nil =>
      rw [List.map_nil, toList_bracketed_nil_append, List.map_cons, toList_bracketed_append] at h
      exact absurd (List.cons.inj h).2 (hstart x (hxs x List.mem_cons_self) _ _)
    | cons y ys =>
      rw [List.forall_mem_cons] at hdecodes hys
      simp only [List.map_cons, toList_bracketed_append, List.cons.injEq, true_and] at h
      obtain ⟨hpart, hclosing⟩ := hdecodes.1 hys.1 (ends_closing _ _) (ends_closing _ _) h
      obtain ⟨hparts, hrest⟩ := closing_append_inj hdecodes.2 hys.2 hclosing
      exact ⟨by rw [hpart, hparts], hrest⟩

end Parts

/-! ## Lists and maps -/

theorem describeItems_eq_map (items : List Value) : describeItems items = items.map describe := by
  induction items with
  | nil => rfl
  | cons item items ih => rw [describeItems, ih, List.map_cons]

/-- The text of an entry of a map. -/
def describeEntry (entry : String × Value) : String :=
  Quoted.quote entry.1 ++ ": " ++ describe entry.2

theorem describeEntries_eq_map (entries : List (String × Value)) :
    describeEntries entries = entries.map describeEntry := by
  induction entries with
  | nil => rfl
  | cons entry entries ih => rw [describeEntries, ih, List.map_cons]; rfl

theorem toList_describeEntry_append (entry : String × Value) (r : List Char) :
    (describeEntry entry).toList ++ r =
      (Quoted.quote entry.1).toList ++ ':' :: ' ' :: ((describe entry.2).toList ++ r) := by
  simp [describeEntry]

theorem describe_list (items : List Value) :
    describe (.list items) = bracketed (items.map describe) := by
  rw [describe, describeItems_eq_map]

theorem describe_map_nil : describe (.map []) = "[:]" := by
  rw [describe, describeEntries]; rfl

theorem describe_map_cons (entry : String × Value) (entries : List (String × Value)) :
    describe (.map (entry :: entries)) = bracketed ((entry :: entries).map describeEntry) := by
  rw [describe, describeEntries_eq_map]; rfl

/-- A list and a map begin with a bracket. -/
theorem exists_bracketed_eq (parts : List String) (r : List Char) :
    ∃ text, (bracketed parts).toList ++ r = '[' :: text := by
  cases parts with
  | nil => exact ⟨_, toList_bracketed_nil_append r⟩
  | cons part parts => exact ⟨_, toList_bracketed_append part parts r⟩

theorem filter_head?_of_bare (ha : IsData a) (hopening : opening? a = none) (r : List Char) :
    ((describe a).toList ++ r).head?.filter (fun c => !isBare c) = none := by
  obtain ⟨hbare, hread⟩ := isBare_and_ofBareText? ha hopening
  cases htext : (describe a).toList with
  | nil =>
    rw [htext] at hread
    exact absurd hread (Option.some_ne_none a).symm
  | cons c text =>
    have hc : isBare c = true := hbare c (htext ▸ List.mem_cons_self)
    simp [hc]

/-- A description begins with its opening sign if it has one, and else with a bare character. -/
theorem filter_head?_describe (ha : IsData a) (r : List Char) :
    ((describe a).toList ++ r).head?.filter (fun c => !isBare c) = opening? a := by
  cases ha with
  | null => exact filter_head?_of_bare .null rfl r
  | bool b => exact filter_head?_of_bare (.bool b) rfl r
  | int n => exact filter_head?_of_bare (.int n) rfl r
  | float x => exact filter_head?_of_bare (.float x) rfl r
  | text s => rw [describe, Quoted.toList_quote_append]; rfl
  | @list items _ =>
    obtain ⟨text, htext⟩ := exists_bracketed_eq (items.map describe) r
    rw [describe_list, htext]; rfl
  | @map entries _ =>
    cases entries with
    | nil => rw [describe_map_nil]; rfl
    | cons entry entries =>
      obtain ⟨text, htext⟩ := exists_bracketed_eq ((entry :: entries).map describeEntry) r
      rw [describe_map_cons, htext]; rfl

theorem opening?_eq (ha : IsData a) (hb : IsData b)
    (h : (describe a).toList ++ r = (describe b).toList ++ s) : opening? a = opening? b := by
  rw [← filter_head?_describe ha r, ← filter_head?_describe hb s, h]

theorem describe_append_ne (ha : IsData a) {c : Char} (hbare : isBare c = false)
    (hquote : c ≠ '"') (hbracket : c ≠ '[') : (describe a).toList ++ r ≠ c :: s := by
  intro h
  have hopening : opening? a = some c := by
    rw [← filter_head?_describe ha r, h]
    simp [hbare]
  cases ha with
  | text => exact hquote (Option.some_inj.1 hopening).symm
  | list | map => exact hbracket (Option.some_inj.1 hopening).symm
  | null | bool | int | float => exact absurd hopening (Option.some_ne_none c).symm

theorem exists_of_opening?_eq_quote (h : opening? a = some '"') : ∃ s, a = .text s := by
  cases a with
  | text s => exact ⟨s, rfl⟩
  | _ => simp [opening?] at h

theorem exists_of_opening?_eq_bracket (h : opening? a = some '[') :
    (∃ items, a = .list items) ∨ ∃ entries, a = .map entries := by
  cases a with
  | list items => exact .inl ⟨items, rfl⟩
  | map entries => exact .inr ⟨entries, rfl⟩
  | _ => simp [opening?] at h

/-! ## Decoding -/

theorem describeEntry_append_ne (entry : String × Value) {c : Char} (hquote : c ≠ '"') :
    (describeEntry entry).toList ++ r ≠ c :: s := by
  rw [toList_describeEntry_append, Quoted.toList_quote_append]
  exact fun h => hquote (List.cons.inj h).1.symm

theorem closing_append_ne (parts : List String) : closing parts ++ r ≠ ':' :: s := by
  cases parts with
  | nil => exact fun h => absurd (List.cons.inj h).1 (by decide)
  | cons part parts => exact fun h => absurd (List.cons.inj h).1 (by decide)

theorem decodes_of_bare (ha : IsData a) (hopening : opening? a = none) :
    Decodes IsData describe a := fun _ _ _ hb hr hs h =>
  bare_append_inj ha hb hopening ((opening?_eq ha hb h).symm.trans hopening) hr hs h

theorem decodes_describeEntry {entry : String × Value} (h : Decodes IsData describe entry.2) :
    Decodes (fun entry : String × Value => IsData entry.2) describeEntry entry := by
  intro other r s hother hr hs heq
  rw [toList_describeEntry_append, toList_describeEntry_append] at heq
  obtain ⟨hkey, hafter⟩ := Quoted.quote_append_inj heq
  obtain ⟨hvalue, hrest⟩ := h hother hr hs (List.cons.inj (List.cons.inj hafter).2).2
  exact ⟨Prod.ext hkey hvalue, hrest⟩

/-- The description of an empty map has a colon in the place of an item or of the closing bracket,
and that of another map has one after a quoted text. -/
theorem describe_list_append_ne {items : List Value} (hitems : ∀ item ∈ items, IsData item)
    (entries : List (String × Value)) :
    (describe (.list items)).toList ++ r ≠ (describe (.map entries)).toList ++ s := by
  rw [describe_list]
  cases entries with
  | nil =>
    rw [describe_map_nil]
    cases items with
    | nil => exact fun h => absurd (List.cons.inj (List.cons.inj h).2).1 (by decide)
    | cons item items =>
      rw [List.map_cons, toList_bracketed_append]
      exact fun h => describe_append_ne (hitems item List.mem_cons_self) (by decide) (by decide)
        (by decide) (List.cons.inj h).2
  | cons entry entries =>
    rw [describe_map_cons, List.map_cons, toList_bracketed_append]
    cases items with
    | nil =>
      rw [List.map_nil, toList_bracketed_nil_append]
      exact fun h => describeEntry_append_ne entry (by decide) (List.cons.inj h).2.symm
    | cons item items =>
      rw [List.map_cons, toList_bracketed_append, toList_describeEntry_append]
      intro h
      have hkey := (List.cons.inj h).2
      -- The first item begins like a key, so it is a text and ends where the key does.
      obtain ⟨text, rfl⟩ := exists_of_opening?_eq_quote
        (opening?_eq (b := .text entry.1) (hitems item List.mem_cons_self) (.text _) hkey)
      exact closing_append_ne _ (Quoted.quote_append_inj hkey).2

theorem describe_list_append_inj {items items' : List Value}
    (hitems : ∀ item ∈ items, IsData item)
    (hdecodes : ∀ item ∈ items, Decodes IsData describe item)
    (hitems' : ∀ item ∈ items', IsData item)
    (h : (describe (.list items)).toList ++ r = (describe (.list items')).toList ++ s) :
    items = items' ∧ r = s := by
  rw [describe_list, describe_list] at h
  have hstart : ∀ item, IsData item → ∀ r s, (describe item).toList ++ r ≠ ']' :: s :=
    fun _ hitem _ _ => describe_append_ne hitem (by decide) (by decide) (by decide)
  exact bracketed_append_inj hstart hitems hdecodes hitems' h

theorem describe_map_append_inj {entries entries' : List (String × Value)}
    (hentries : ∀ entry ∈ entries, IsData entry.2)
    (hdecodes : ∀ entry ∈ entries, Decodes IsData describe entry.2)
    (hentries' : ∀ entry ∈ entries', IsData entry.2)
    (h : (describe (.map entries)).toList ++ r = (describe (.map entries')).toList ++ s) :
    entries = entries' ∧ r = s := by
  cases entries with
  | nil =>
    rw [describe_map_nil] at h
    cases entries' with
    | nil =>
      rw [describe_map_nil] at h
      exact ⟨rfl, List.append_cancel_left h⟩
    | cons entry' entries' =>
      rw [describe_map_cons, List.map_cons, toList_bracketed_append] at h
      exact absurd (List.cons.inj h).2.symm (describeEntry_append_ne entry' (by decide))
  | cons entry entries =>
    rw [describe_map_cons] at h
    cases entries' with
    | nil =>
      rw [describe_map_nil, List.map_cons, toList_bracketed_append] at h
      exact absurd (List.cons.inj h).2 (describeEntry_append_ne entry (by decide))
    | cons entry' entries' =>
      rw [describe_map_cons] at h
      exact bracketed_append_inj (fun entry _ _ _ => describeEntry_append_ne entry (by decide))
        hentries (fun entry hentry => decodes_describeEntry (hdecodes entry hentry)) hentries' h

theorem decodes_describe (ha : IsData a) : Decodes IsData describe a := by
  -- The texts begin alike, so the second value is of the kind of the first.  Only a list and a map
  -- share their first sign.
  induction ha with
  | null => exact decodes_of_bare .null rfl
  | bool b => exact decodes_of_bare (.bool b) rfl
  | int n => exact decodes_of_bare (.int n) rfl
  | float x => exact decodes_of_bare (.float x) rfl
  | text t =>
    intro b r s hb _ _ h
    obtain ⟨u, rfl⟩ := exists_of_opening?_eq_quote (opening?_eq (.text t) hb h).symm
    obtain ⟨htext, hrest⟩ := Quoted.quote_append_inj h
    exact ⟨by rw [htext], hrest⟩
  | @list items hitems ih =>
    intro b r s hb _ _ h
    have hopening := (opening?_eq (.list hitems) hb h).symm
    obtain ⟨items', rfl⟩ | ⟨entries', rfl⟩ := exists_of_opening?_eq_bracket hopening
    · cases hb with
      | list hitems' =>
        obtain ⟨hparts, hrest⟩ := describe_list_append_inj hitems ih hitems' h
        exact ⟨by rw [hparts], hrest⟩
    · exact absurd h (describe_list_append_ne hitems entries')
  | @map entries hentries ih =>
    intro b r s hb _ _ h
    have hopening := (opening?_eq (.map hentries) hb h).symm
    obtain ⟨items', rfl⟩ | ⟨entries', rfl⟩ := exists_of_opening?_eq_bracket hopening
    · cases hb with
      | list hitems' => exact absurd h.symm (describe_list_append_ne hitems' entries)
    · cases hb with
      | map hentries' =>
        obtain ⟨hparts, hrest⟩ := describe_map_append_inj hentries ih hentries' h
        exact ⟨by rw [hparts], hrest⟩

theorem display_eq_describe (h : isNested a = true) : display a = describe a := by
  cases a with
  | list | map => rfl
  | _ => exact absurd h Bool.false_ne_true

/-- Two values, each a list or a map of data, are the same if they add the same to the output. -/
theorem display_inj_of_isNested (ha : IsData a) (hb : IsData b) (hnested : isNested a = true)
    (hnested' : isNested b = true) (h : display a = display b) : a = b := by
  rw [display_eq_describe hnested, display_eq_describe hnested'] at h
  have hends : Ends [] := fun c hc => absurd hc (Option.not_mem_none c)
  have htexts : (describe a).toList ++ [] = (describe b).toList ++ [] := by rw [h]
  exact (decodes_describe ha hb hends hends htexts).1

/-- Of two entries with one key only the last is there to be described. -/
theorem display_inj_of_isNested_repeated_key :
    display (.map (Entries.ofList [("k", .null), ("k", .list [.text "], [", .float .nan])])) =
        display (.map [("k", .list [.text "], [", .float .nan])]) ∧
      Value.map (Entries.ofList [("k", .null), ("k", .list [.text "], [", .float .nan])]) =
        .map [("k", .list [.text "], [", .float .nan])] := by
  have hlast : Entries.ofList [("k", .null), ("k", .list [.text "], [", .float .nan])] =
      [("k", Value.list [.text "], [", .float .nan])] := rfl
  have hdata : IsData (.map [("k", .list [.text "], [", .float .nan])]) := by
    refine .map (List.forall_mem_singleton.2 (.list ?_))
    exact List.forall_mem_cons.2 ⟨.text _, List.forall_mem_singleton.2 (.float _)⟩
  have hdisplay := congrArg (fun entries => display (.map entries)) hlast
  exact ⟨hdisplay, display_inj_of_isNested (hlast ▸ hdata) hdata rfl rfl hdisplay⟩

end Interpolation.Value
