import Folio.Filters
import Folio.Proofs.Value

set_option autoImplicit false

/-! # Filters on headers

Filters let a header pass exactly if it has the type and the category that they ask for and one of their tags
(`isMatch_decides_or_trips`). Headers are not checked before, so any data may stand where tags are expected. A number, a
truth value, and a list with a collection among its items trip the filters; and an empty text holds no tag. -/

namespace Folio.ContentFilters

open Json

/-! ## What filters ask for -/

/-- What a header has where tags are expected. -/
def tagsValue (header : List (String × Json)) : Json :=
  (header.lookup "tags").getD .null

/-- The tags that data hold: the items of a list, the names of an object, or a single value. -/
def tagsHeld : Json → List Json
  | .null => []
  | .array items => items
  | .object members => members.map fun m => .string m.1
  | v => [v]

/-- A header has what filters ask for. -/
structure Passes (f : ContentFilters) (header : List (String × Json)) : Prop where
  contentType : ∀ t ∈ f.contentType, header.lookup "type" = some (.string t)
  tags : f.tags = [] ∨ ∃ t ∈ f.tags, .string t ∈ tagsHeld (tagsValue header)
  category : ∀ c ∈ f.category, header.lookup "category" = some (.string c)

/-- Data that trip whoever looks for tags in them: a value that counts as something but holds nothing, or a list with a
collection among its items, of which the first is reported. -/
inductive TripsOn : Json → TagsError → Prop
  | bool : TripsOn (.bool true) (.notIterable "bool")
  | int {n : Int} (nonzero : n ≠ 0) : TripsOn (.int n) (.notIterable "int")
  | float {x : Binary64} (nonzero : x.valueEq .zero = false) : TripsOn (.float x) (.notIterable "float")
  | item {before after : List Json} {item : Json} {kind : String} (simple : ∀ v ∈ before, v.collection? = none)
      (collection : item.collection? = some kind) : TripsOn (.array (before ++ item :: after)) (.unhashable kind)

/-- A header trips filters that ask for tags, if it has the type that they ask for. -/
structure Trips (f : ContentFilters) (header : List (String × Json)) (e : TagsError) : Prop where
  contentType : ∀ t ∈ f.contentType, header.lookup "type" = some (.string t)
  tags : f.tags ≠ []
  trip : TripsOn (tagsValue header) e

/-! ## Looking for tags -/

variable {f : ContentFilters} {header : List (String × Json)} {key text : String}

theorem textOf?_eq_some_iff {v : Value} : textOf? (some v) = some text ↔ v = .string text := by
  cases v <;> simp [textOf?]

theorem hasText_toEntries : hasText (toEntries header) key text = true ↔ header.lookup key = some (.string text) := by
  rw [hasText, field?_toEntries, beq_iff_eq]
  cases header.lookup key with
  | none => simp [textOf?]
  | some v => rw [Option.map_some, textOf?_eq_some_iff, toValue_eq_string_iff, Option.some_inj]

theorem all_hasText {wanted : Option String} :
    wanted.all (hasText (toEntries header) key) = true ↔ ∀ t ∈ wanted, header.lookup key = some (.string t) := by
  cases wanted with
  | none => simp
  | some t => simp [hasText_toEntries]

theorem findSome?_unhashable? (items : List Json) :
    (items.map Json.toValue).findSome? Value.unhashable? = items.findSome? collection? := by
  rw [List.findSome?_map]
  exact congrArg (List.findSome? · items) (funext unhashable?_toValue)

theorem tripsOn_array_iff {items : List Json} {e : TagsError} :
    TripsOn (.array items) e ↔ ∃ kind, items.findSome? collection? = some kind ∧ e = .unhashable kind := by
  constructor
  · rintro (_ | _ | _ | @⟨before, after, item, kind, simple, collection⟩)
    exact ⟨kind, List.findSome?_eq_some_iff.2 ⟨before, item, after, rfl, collection, simple⟩, rfl⟩
  · rintro ⟨kind, hfind, rfl⟩
    obtain ⟨before, item, after, rfl, collection, simple⟩ := List.findSome?_eq_some_iff.1 hfind
    exact .item simple collection

theorem TripsOn.isTruthy {v : Json} {e : TagsError} (h : TripsOn v e) : v.toValue.isTruthy = true := by
  cases h with
  | bool => rfl
  | int nonzero => simp [Json.toValue, Value.isTruthy, nonzero]
  | float nonzero => simp [Json.toValue, Value.isTruthy, nonzero]
  | item simple collection => simp [Json.toValue, toValues_eq_map, Value.isTruthy]

/-- What counts as nothing holds no tag, but for the empty text. -/
theorem eq_empty_of_mem_tagsHeld {v : Json} {t : String} (hfalsy : v.toValue.isTruthy = false)
    (ht : .string t ∈ tagsHeld v) : v = .string "" := by
  cases v with
  | string s => simpa [Json.toValue, Value.isTruthy] using hfalsy
  | array items =>
    obtain rfl : items = [] := by simpa [Json.toValue, toValues_eq_map, Value.isTruthy] using hfalsy
    cases ht
  | object members =>
    obtain rfl : members = [] := by simpa [Json.toValue, toEntries_eq_map, Value.isTruthy] using hfalsy
    cases ht
  | _ => simp [tagsHeld] at ht

theorem tagsValue_toValue (header : List (String × Json)) :
    (Value.field? "tags" (toEntries header)).getD .null = (tagsValue header).toValue := by
  rw [field?_toEntries, tagsValue]
  cases header.lookup "tags" <;> rfl

theorem tagsOf_of_falsy (hfalsy : (tagsValue header).toValue.isTruthy = false) : tagsOf (toEntries header) = .ok [] := by
  unfold tagsOf
  simp only [tagsValue_toValue, hfalsy]
  rfl

/-- Looking for tags gives what the data hold, unless the data trip it or are an empty text. -/
theorem tagsOf_toEntries (header : List (String × Json)) :
    (∃ e, TripsOn (tagsValue header) e ∧ tagsOf (toEntries header) = .error e) ∨
      (∀ e, ¬TripsOn (tagsValue header) e) ∧ ∃ own, tagsOf (toEntries header) = .ok own ∧
        ∀ t, .string t ∈ own ↔ .string t ∈ tagsHeld (tagsValue header) ∧ tagsValue header ≠ .string "" := by
  cases htruthy : (tagsValue header).toValue.isTruthy with
  | false =>
    refine .inr ⟨fun e h => ?_, [], tagsOf_of_falsy htruthy, fun t => iff_of_false List.not_mem_nil fun h => ?_⟩
    · exact absurd h.isTruthy (by simp [htruthy])
    · exact h.2 (eq_empty_of_mem_tagsHeld htruthy h.1)
  | true =>
    unfold tagsOf
    simp only [tagsValue_toValue, htruthy, Bool.not_true, Bool.false_eq_true, if_false]
    cases hvalue : tagsValue header with
    | null => simp [hvalue, Json.toValue, Value.isTruthy] at htruthy
    | bool b =>
      obtain rfl : b = true := by simpa [hvalue, Json.toValue, Value.isTruthy] using htruthy
      exact .inl ⟨_, .bool, rfl⟩
    | int n =>
      have hn : n ≠ 0 := by simpa [hvalue, Json.toValue, Value.isTruthy] using htruthy
      exact .inl ⟨_, .int hn, rfl⟩
    | float x =>
      have hx : x.valueEq .zero = false := by simpa [hvalue, Json.toValue, Value.isTruthy] using htruthy
      exact .inl ⟨_, .float hx, rfl⟩
    | string s =>
      have hs : s ≠ "" := by simpa [hvalue, Json.toValue, Value.isTruthy] using htruthy
      exact .inr ⟨by rintro _ ⟨⟩, [.string s], rfl, by simp [tagsHeld, hs]⟩
    | broken t => exact .inr ⟨by rintro _ ⟨⟩, [.unwritable (.text t)], rfl, by simp [tagsHeld]⟩
    | array items =>
      have hunhashable := findSome?_unhashable? items
      simp only [Json.toValue, toValues_eq_map, pure, Except.pure, bind, Except.bind, hunhashable]
      cases hfind : items.findSome? collection? with
      | some kind => exact .inl ⟨_, tripsOn_array_iff.2 ⟨kind, hfind, rfl⟩, rfl⟩
      | none =>
        refine .inr ⟨fun e h => ?_, items.map Json.toValue, rfl, fun t => ?_⟩
        · obtain ⟨kind, hkind, -⟩ := tripsOn_array_iff.1 h
          cases hfind.symm.trans hkind
        · simp [tagsHeld, toValue_eq_string_iff]
    | object members =>
      have hnames : ((toEntries members).map Prod.fst).findSome? Value.unhashable? = none := by
        refine List.findSome?_eq_none_iff.2 fun key hkey => ?_
        rw [toEntries_eq_map, List.map_map] at hkey
        obtain ⟨m, -, rfl⟩ := List.mem_map.1 hkey
        rfl
      simp only [Json.toValue, pure, Except.pure, bind, Except.bind, hnames]
      exact .inr ⟨by rintro _ ⟨⟩, _, rfl, by simp [tagsHeld, toEntries_eq_map]⟩

/-! ## Matching -/

/-- Whether one of the tags that filters ask for is among those of a header. -/
theorem any_contains_iff {own : List Value} :
    (own.any fun v => (textOf? (some v)).any f.tags.contains) = true ↔ ∃ t ∈ f.tags, .string t ∈ own := by
  simp only [List.any_eq_true, Option.any_eq_true, textOf?_eq_some_iff, List.contains_iff_mem]
  constructor
  · rintro ⟨v, hv, t, rfl, ht⟩
    exact ⟨t, ht, hv⟩
  · rintro ⟨t, ht, hv⟩
    exact ⟨_, hv, t, rfl, ht⟩

/-- **Filters pass exactly the headers that have what they ask for, unless the tags trip them or are an empty text.** -/
theorem isMatch_decides_or_trips (f : ContentFilters) (header : List (String × Json)) :
    (∃ e, f.Trips header e ∧ f.isMatch (toEntries header) = .error e) ∨
      (∀ e, ¬f.Trips header e) ∧ ∃ b, f.isMatch (toEntries header) = .ok b ∧
        (b = true ↔ f.Passes header ∧ (f.tags = [] ∨ tagsValue header ≠ .string "")) := by
  unfold isMatch
  cases htype : f.contentType.all (hasText (toEntries header) "type") with
  | false =>
    have hother : ¬∀ t ∈ f.contentType, header.lookup "type" = some (.string t) := by
      rw [← all_hasText, htype]
      exact Bool.false_ne_true
    exact .inr ⟨fun e h => hother h.contentType, false, rfl, iff_of_false Bool.false_ne_true fun h => hother h.1.contentType⟩
  | true =>
    have hsame := all_hasText.1 htype
    by_cases htags : f.tags = []
    · refine .inr ⟨fun e h => h.tags htags, f.category.all (hasText (toEntries header) "category"), ?_, ?_⟩
      · simp only [htags]
        rfl
      · rw [all_hasText]
        exact ⟨fun hcategory => ⟨⟨hsame, .inl htags, hcategory⟩, .inl htags⟩, fun h => h.1.category⟩
    · have hasked : f.tags.isEmpty = false := by simpa using htags
      simp only [hasked]
      obtain ⟨e, htrip, herror⟩ | ⟨htrip, own, hown, hheld⟩ := tagsOf_toEntries header
      · exact .inl ⟨e, ⟨hsame, htags, htrip⟩, by rw [herror]; rfl⟩
      · refine .inr ⟨fun e h => htrip e h.trip, own.any (fun v => (textOf? (some v)).any f.tags.contains) &&
          f.category.all (hasText (toEntries header) "category"), ?_, ?_⟩
        · rw [hown]
          cases hany : own.any fun v => (textOf? (some v)).any f.tags.contains <;>
            simp only [bind, Except.bind, hany] <;> rfl
        · rw [Bool.and_eq_true, any_contains_iff, all_hasText]
          constructor
          · rintro ⟨⟨t, ht, hmem⟩, hcategory⟩
            obtain ⟨hmem, hnonempty⟩ := (hheld t).1 hmem
            exact ⟨⟨hsame, .inr ⟨t, ht, hmem⟩, hcategory⟩, .inr hnonempty⟩
          · rintro ⟨⟨-, hnone | ⟨t, ht, hmem⟩, hcategory⟩, hnonempty⟩
            · exact absurd hnone htags
            · exact ⟨⟨t, ht, (hheld t).2 ⟨hmem, hnonempty.resolve_left htags⟩⟩, hcategory⟩

/-- Filters that ask for a tag. -/
def taggedWith (tag : String) : ContentFilters := { tags := [tag] }

/-- The filters are tripped by a number, and by a list although it has the tag. They miss the empty tag. -/
theorem oddTags_fail :
    (taggedWith "a").isMatch (toEntries [("tags", .int 5)]) = .error (.notIterable "int") ∧
    (taggedWith "a").Passes [("tags", .array [.array [], .string "a"])] ∧
    (∃ e, (taggedWith "a").isMatch (toEntries [("tags", .array [.array [], .string "a"])]) = .error e) ∧
    (taggedWith "").Passes [("tags", .string "")] ∧
    (taggedWith "").isMatch (toEntries [("tags", .string "")]) = .ok false := by
  have hnested : (taggedWith "a").Passes [("tags", .array [.array [], .string "a"])] :=
    ⟨nofun, .inr ⟨"a", by simp [taggedWith], by simp [tagsHeld, tagsValue]⟩, nofun⟩
  have hempty : (taggedWith "").Passes [("tags", .string "")] :=
    ⟨nofun, .inr ⟨"", by simp [taggedWith], by simp [tagsHeld, tagsValue]⟩, nofun⟩
  have htrips : (taggedWith "a").Trips [("tags", .array [.array [], .string "a"])] (.unhashable "list") :=
    ⟨nofun, by simp [taggedWith], tripsOn_array_iff.2 ⟨"list", rfl, rfl⟩⟩
  obtain ⟨e, -, herror⟩ | ⟨hnone, -⟩ := isMatch_decides_or_trips (taggedWith "a") [("tags", .array [.array [], .string "a"])]
  · exact ⟨rfl, hnested, ⟨e, herror⟩, hempty, rfl⟩
  · exact absurd htrips (hnone _)

end Folio.ContentFilters
