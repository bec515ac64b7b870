import Interpolation.Context
import Interpolation.Proofs.Text.Numeral
import Interpolation.Proofs.Text.Path
import Interpolation.Proofs.Value.Entries
import Interpolation.Proofs.Value.Members

/-!
# Navigation in JSON

A path can be followed in a JSON object itself, by the rules in `Json.Selects`.  It leads to the
same place as in the context made from the object: what it leads to in the context is the value of
what it leads to in the object.
-/

namespace Interpolation

variable {ν : Type}

namespace Json

/-! ## Following a path -/

/-- What a path leads to: JSON, or how many items an array or characters a text has. -/
inductive Found (ν : Type)
  | value (json : Json ν)
  | count (n : Nat)

/-- The value of what a path leads to. -/
def Found.toValue [JsonNumber ν] : Found ν → Value
  | value json => .ofJson json
  | count n => .int n

/-- What a name selects.  In an object that is the last member with this name. -/
inductive Selects : Json ν → String → Found ν → Prop
  | member {before after : List (String × Json ν)} {name : String} {member : Json ν} :
      name ∉ Entries.keys after →
        Selects (.object (before ++ (name, member) :: after)) name (.value member)
  | first (item : Json ν) (items : List (Json ν)) :
      Selects (.array (item :: items)) "first" (.value item)
  | last (items : List (Json ν)) (item : Json ν) :
      Selects (.array (items ++ [item])) "last" (.value item)
  | items (items : List (Json ν)) : Selects (.array items) "count" (.count items.length)
  | index {items : List (Json ν)} {item : Json ν} {name : String} {digits : List Char} {n : Nat} :
      name.toList = digits ∨ name.toList = '+' :: digits → Numeral.IsDigits digits n →
        n < UInt64.size → items[n]? = some item → Selects (.array items) name (.value item)
  | characters (s : String) : Selects (.text s) "count" (.count s.length)

/-- Where names lead, each of them selecting in what the one before has found. -/
inductive Leads : Found ν → List String → Found ν → Prop
  | here (found : Found ν) : Leads found [] found
  | step {json : Json ν} {name : String} {names : List String} {next last : Found ν} :
      json.Selects name next → Leads next names last → Leads (.value json) (name :: names) last

end Json

namespace Value

open Json

variable [JsonNumber ν]

/-! ## Numbers -/

theorem ofNumber_of_int? {n : ν} {i : Int64} (h : JsonNumber.int? n = some i) :
    ofNumber n = .int i.toInt := by
  rw [ofNumber, h]

theorem ofNumber_of_double? {n : ν} {x : Double} (hint : JsonNumber.int? n = none)
    (h : JsonNumber.double? n = some x) : ofNumber n = .float x := by
  rw [ofNumber, hint, h]
  rfl

/-- A number stands for no list, map or text. -/
theorem ofNumber_cases (n : ν) :
    ofNumber n = .null ∨ (∃ i, ofNumber n = .int i) ∨
      ∃ x, JsonNumber.double? n = some x ∧ ofNumber n = .float x := by
  cases hint : JsonNumber.int? n with
  | some i => exact .inr (.inl ⟨i.toInt, ofNumber_of_int? hint⟩)
  | none =>
    cases hdouble : JsonNumber.double? n with
    | some x => exact .inr (.inr ⟨x, rfl, ofNumber_of_double? hint hdouble⟩)
    | none =>
      refine .inl ?_
      rw [ofNumber, hint, hdouble]
      rfl

/-- A number that can be given as a double is an integer if its reader has it as one of 64 bits, and
otherwise this double. -/
theorem ofJson_number {n : ν} (h : ∃ x, JsonNumber.double? n = some x) :
    (∃ i, JsonNumber.int? n = some i ∧ ofJson (.number n) = .int i.toInt) ∨
      JsonNumber.int? n = none ∧
        ∃ x, JsonNumber.double? n = some x ∧ ofJson (.number n) = .float x := by
  obtain ⟨x, hdouble⟩ := h
  cases hint : JsonNumber.int? n with
  | some i => exact .inl ⟨i, rfl, ofNumber_of_int? hint⟩
  | none => exact .inr ⟨rfl, x, hdouble, ofNumber_of_double? hint hdouble⟩

/-! ## Members -/

theorem lookup_reverse_eq_some_iff {α : Type} {entries : List (String × α)} {name : String}
    {value : α} : entries.reverse.lookup name = some value ↔
      ∃ before after, entries = before ++ (name, value) :: after ∧ name ∉ Entries.keys after := by
  have hkeys (l : List (String × α)) : (∀ p ∈ l, (name != p.1) = true) ↔ name ∉ Entries.keys l := by
    constructor
    · intro h hmem
      obtain ⟨p, hp, rfl⟩ := List.mem_map.1 hmem
      exact absurd rfl (bne_iff_ne.1 (h p hp))
    · intro h p hp
      exact bne_iff_ne.2 fun heq => h (heq ▸ List.mem_map_of_mem hp)
  simp only [List.lookup_eq_some_iff, hkeys]
  constructor
  · rintro ⟨after, before, hentries, hafter⟩
    refine ⟨before.reverse, after.reverse, ?_, ?_⟩
    · rw [← List.reverse_reverse entries, hentries]
      simp
    · rwa [Entries.keys, List.map_reverse, List.mem_reverse]
  · rintro ⟨before, after, rfl, hafter⟩
    refine ⟨after.reverse, before.reverse, by simp, ?_⟩
    rwa [Entries.keys, List.map_reverse, List.mem_reverse]

/-- Of several members with one name the last gives the value. -/
theorem lookup_ofMembers (members : List (String × Json ν)) (name : String) :
    (Entries.ofList (ofMembers members)).lookup name = (members.reverse.lookup name).map ofJson := by
  rw [Entries.lookup_ofList, ofMembers_eq_map, ← List.map_reverse]
  induction members.reverse with
  | nil => rfl
  | cons member members ih =>
    obtain ⟨key, json⟩ := member
    rw [List.map_cons, Entries.lookup_cons, Entries.lookup_cons, ih]
    split <;> rfl

theorem member?_ofNumber (n : ν) (name : String) : (ofNumber n).member? name = none := by
  obtain hn | ⟨i, hn⟩ | ⟨x, -, hn⟩ := ofNumber_cases n
  all_goals
    rw [hn]
    rfl

theorem exists_selects_of_member?_array {items : List (Json ν)} {name : String} {value : Value}
    (h : (ofJson (.array items)).member? name = some value) :
    ∃ found, (Json.array items).Selects name found ∧ found.toValue = value := by
  rw [ofJson, ofItems_eq_map, member?] at h
  split at h
  · next hname =>
    subst hname
    obtain ⟨item, hitem, rfl⟩ := Option.map_eq_some_iff.1 (List.head?_map ▸ h)
    obtain ⟨rest, rfl⟩ := List.head?_eq_some_iff.1 hitem
    exact ⟨.value item, .first item rest, rfl⟩
  · split at h
    · next hname =>
      subst hname
      obtain ⟨item, hitem, rfl⟩ := Option.map_eq_some_iff.1 (List.getLast?_map ▸ h)
      obtain ⟨front, rfl⟩ := List.getLast?_eq_some_iff.1 hitem
      exact ⟨.value item, .last front item, rfl⟩
    · split at h
      · next hname =>
        subst hname
        refine ⟨.count items.length, .items items, ?_⟩
        rw [List.length_map] at h
        exact Option.some.inj h
      · obtain ⟨n, hn, hmapped⟩ := Option.bind_eq_some_iff.1 h
        obtain ⟨item, hitem, rfl⟩ := Option.map_eq_some_iff.1 (List.getElem?_map ▸ hmapped)
        obtain ⟨hlt, digits, hdigits, hname⟩ := Numeral.natural?_eq_some_iff.1 hn
        exact ⟨.value item, .index hname hdigits hlt hitem, rfl⟩

theorem member?_array_of_selects {items : List (Json ν)} {name : String} {found : Found ν}
    (h : (Json.array items).Selects name found) :
    (ofJson (.array items)).member? name = some found.toValue := by
  rw [ofJson, ofItems_eq_map]
  cases h with
  | first item rest => rfl
  | last front item =>
    rw [member?_list_last]
    simp [Found.toValue]
  | items =>
    rw [member?_list_count, List.length_map]
    rfl
  | index hname hdigits hlt hitem =>
    have hn := Numeral.natural?_eq_some_iff.2 ⟨hlt, _, hdigits, hname⟩
    have hwords : ∀ word ∈ ["first", "last", "count"], Numeral.natural? word.toList = none := by
      decide
    have hne : ∀ word ∈ ["first", "last", "count"], name ≠ word := by
      rintro word hword rfl
      rw [hwords _ hword] at hn
      cases hn
    rw [member?_list_of_ne_word hne, hn, Option.bind_some, List.getElem?_map, hitem]
    rfl

theorem member?_ofJson_eq_some_iff {json : Json ν} {name : String} {value : Value} :
    (ofJson json).member? name = some value ↔
      ∃ found, json.Selects name found ∧ found.toValue = value := by
  cases json with
  | null | bool b =>
    constructor
    · intro h
      cases h
    · rintro ⟨_, ⟨⟩, _⟩
  | number n =>
    rw [ofJson, member?_ofNumber]
    constructor
    · intro h
      cases h
    · rintro ⟨_, ⟨⟩, _⟩
  | text s =>
    rw [ofJson, member?, Option.ite_none_right_eq_some]
    constructor
    · rintro ⟨rfl, h⟩
      exact ⟨.count s.length, .characters s, Option.some.inj h⟩
    · rintro ⟨_, ⟨⟩, rfl⟩
      exact ⟨rfl, rfl⟩
  | array items =>
    refine ⟨exists_selects_of_member?_array, ?_⟩
    rintro ⟨found, hselects, rfl⟩
    exact member?_array_of_selects hselects
  | object members =>
    rw [ofJson, member?, lookup_ofMembers, Option.map_eq_some_iff]
    constructor
    · rintro ⟨member, hmember, rfl⟩
      obtain ⟨before, after, rfl, hafter⟩ := lookup_reverse_eq_some_iff.1 hmember
      exact ⟨.value member, .member hafter, rfl⟩
    · rintro ⟨_, hselects, rfl⟩
      cases hselects with
      | member hafter => exact ⟨_, lookup_reverse_eq_some_iff.2 ⟨_, _, rfl, hafter⟩, rfl⟩

theorem follow?_toValue_eq_some_iff {start : Found ν} {names : List String} {value : Value} :
    start.toValue.follow? names = some value ↔
      ∃ found, Leads start names found ∧ found.toValue = value := by
  induction names generalizing start with
  | nil =>
    constructor
    · intro h
      exact ⟨start, .here start, Option.some.inj h⟩
    · rintro ⟨_, ⟨⟩, rfl⟩
      rfl
  | cons name names ih =>
    rw [follow?_cons, Option.bind_eq_some_iff]
    constructor
    · rintro ⟨middle, hmember, hfollow⟩
      cases start with
      | count n => cases hmember
      | value json =>
        obtain ⟨next, hselects, rfl⟩ := member?_ofJson_eq_some_iff.1 hmember
        obtain ⟨found, hleads, rfl⟩ := ih.1 hfollow
        exact ⟨found, .step hselects hleads, rfl⟩
    · rintro ⟨found, hleads, rfl⟩
      cases hleads with
      | step hselects hleads =>
        exact ⟨_, member?_ofJson_eq_some_iff.2 ⟨_, hselects, rfl⟩, ih.2 ⟨found, hleads, rfl⟩⟩

/-- Only null stands for null, if every number can be given as a double. -/
theorem ofJson_eq_null_iff (hdouble : ∀ n : ν, ∃ x, JsonNumber.double? n = some x)
    {json : Json ν} : ofJson json = .null ↔ json = .null := by
  cases json with
  | null => simp [ofJson]
  | number n =>
    obtain ⟨i, -, hn⟩ | ⟨-, x, -, hn⟩ := ofJson_number (hdouble n)
    · simp [hn]
    · simp [hn]
  | bool b | text s | array items | object members => simp [ofJson]

end Value

namespace Context

open Json

variable [JsonNumber ν]

/-- In a context from a JSON object, a path is followed from the value of the object. -/
theorem lookup?_of_ofJson? {json : Json ν} {context : Context} (h : ofJson? json = some context)
    (path : String) : context.lookup? path = (Value.ofJson json).follow? (Path.names path) := by
  unfold ofJson? at h
  split at h
  · next entries hentries =>
    cases h
    rw [hentries, lookup?_eq, get?_eq, List.findSome?_nil, Option.or_none]
    rfl
  · cases h

/-- A path leads to the same place in a JSON object and in the context that is made from it.  The
values in the context are those of the object: arrays keep their items in order, and objects their
names, of which the last member with the name gives the value.  If every number can be given as a
double, a number becomes an integer just when its reader has it as one of 64 bits, and this double
otherwise, and nothing but null becomes null. -/
theorem lookup?_ofJson_iff_leads (members : List (String × Json ν)) :
    (∃ context, ofJson? (.object members) = some context ∧
      ∀ names, names ≠ [] → (∀ name ∈ names, '.' ∉ name.toList) → ∀ value,
        context.lookup? (".".intercalate names) = some value ↔
          ∃ found, Leads (.value (.object members)) names found ∧ found.toValue = value) ∧
    (∀ path, ∃ names, names ≠ [] ∧ (∀ name ∈ names, '.' ∉ name.toList) ∧
      ".".intercalate names = path) ∧
    (∃ entries, Value.ofJson (.object members) = .map entries ∧
      (Entries.keys entries).Pairwise (· < ·) ∧
      (∀ name, name ∈ Entries.keys entries ↔ name ∈ Entries.keys members) ∧
      ∀ name, entries.lookup name = (members.reverse.lookup name).map Value.ofJson) ∧
    (∀ items : List (Json ν), Value.ofJson (.array items) = .list (items.map Value.ofJson)) ∧
    ((∀ n : ν, ∃ x, JsonNumber.double? n = some x) →
      (∀ n : ν,
        (∃ i, JsonNumber.int? n = some i ∧ Value.ofJson (.number n) = .int i.toInt) ∨
          JsonNumber.int? n = none ∧
            ∃ x, JsonNumber.double? n = some x ∧ Value.ofJson (.number n) = .float x) ∧
      ∀ json : Json ν, Value.ofJson json = .null ↔ json = .null) := by
  refine ⟨?_, fun path => ?_, ?_, fun items => ?_, fun hdouble =>
    ⟨fun n => Value.ofJson_number (hdouble n), fun _ => Value.ofJson_eq_null_iff hdouble⟩⟩
  · obtain ⟨context, hcontext⟩ : ∃ context, ofJson? (.object members) = some context := by
      rw [ofJson?, Value.ofJson]
      exact ⟨_, rfl⟩
    refine ⟨context, hcontext, fun names hne hdots value => ?_⟩
    rw [lookup?_of_ofJson? hcontext, Path.names_intercalate hne hdots]
    exact @Value.follow?_toValue_eq_some_iff ν _ (.value (.object members)) names value
  · exact ⟨Path.names path, List.cons_ne_nil _ _, fun _ => Path.not_mem_of_mem_names,
      Path.intercalate_names path⟩
  · refine ⟨Entries.ofList (Value.ofMembers members), by rw [Value.ofJson],
      Entries.pairwise_keys_ofList _, fun name => ?_, Value.lookup_ofMembers members⟩
    rw [Entries.mem_keys_ofList, Value.ofMembers_eq_map, Entries.keys, Entries.keys, List.map_map]
    rfl
  · rw [Value.ofJson, Value.ofItems_eq_map]

theorem lookup?_ofJson_iff_leads_plus_sign :
    let inner : List (String × Json StoredNumber) := [("first", .bool true), ("count", .text "née")]
    let members : List (String × Json StoredNumber) :=
      [("a", .null), ("a", .array [.null, .object inner])]
    let large : StoredNumber := .natural 9223372036854775808
    ∃ context, ofJson? (.object members) = some context ∧
      context.lookup? "a.+01.count.count" = some (.int 3) ∧
      (∀ n : StoredNumber, ∃ x, JsonNumber.double? n = some x) ∧
      Value.ofJson (.number large) = .float (.ofInt 9223372036854775808) := by
  intro inner members large
  obtain ⟨⟨context, hcontext, hlookup⟩, -, -, -, hnumbers⟩ := lookup?_ofJson_iff_leads members
  have hleads : Leads (.value (.object members)) ["a", "+01", "count", "count"] (.count 3) := by
    refine .step (@Selects.member _ [_] [] "a" _ (List.not_mem_nil)) ?_
    refine .step (.index (.inr rfl) ⟨by decide, List.all_eq_true.1 rfl, rfl⟩ (by decide) rfl) ?_
    refine .step (@Selects.member _ [_] [] "count" _ (List.not_mem_nil)) ?_
    exact .step (.characters "née") (.here _)
  refine ⟨context, hcontext,
    (hlookup ["a", "+01", "count", "count"] (by decide) (by decide) (.int 3)).2 ⟨_, hleads, rfl⟩,
    StoredNumber.exists_double?, ?_⟩
  obtain ⟨i, hi, -⟩ | ⟨-, x, hx, hfloat⟩ := (hnumbers StoredNumber.exists_double?).1 large
  · cases hi
  · rw [hfloat, ← Option.some.inj hx]
    rfl

end Context

end Interpolation
