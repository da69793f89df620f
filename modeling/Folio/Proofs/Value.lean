import Folio.Json

set_option autoImplicit false

/-! # Tables and mappings

What is found in a table of keys and values is in it, and where no key is there twice, all that is in it is found
(`lookup_eq_some_iff_mem`). The name of a field is found in a mapping by the first key that is this name
(`field?_cons`). In plain data, whose mappings have names only, it is found as in a table (`field?_toEntries`). Of plain
data, lists and mappings can be no keys (`unhashable?_toValue`). -/

namespace Folio

/-! ## Looking up in a table -/

section

variable {α β : Type} [BEq α] [LawfulBEq α] {table : List (α × β)} {key : α} {value : β}

theorem mem_of_lookup_eq_some (h : table.lookup key = some value) : (key, value) ∈ table := by
  obtain ⟨before, after, rfl, -⟩ := List.lookup_eq_some_iff.1 h
  simp

theorem lookup_eq_some_iff_mem (hdistinct : (table.map Prod.fst).Nodup) :
    table.lookup key = some value ↔ (key, value) ∈ table := by
  refine ⟨mem_of_lookup_eq_some, fun h => ?_⟩
  obtain ⟨before, after, rfl⟩ := List.append_of_mem h
  refine List.lookup_eq_some_iff.2 ⟨before, after, rfl, fun e he => bne_iff_ne.2 fun heq => ?_⟩
  rw [List.map_append] at hdistinct
  exact (List.nodup_append.1 hdistinct).2.2 _ (List.mem_map_of_mem he) _ List.mem_cons_self heq.symm

/-- Without the entries of a key everything else is found as before. -/
theorem lookup_filter_ne (key other : α) (table : List (α × β)) :
    (table.filter fun e => e.1 != key).lookup other = if other == key then none else table.lookup other := by
  induction table with
  | nil => simp
  | cons e rest ih =>
    obtain ⟨first, value⟩ := e
    rw [List.filter_cons]
    by_cases hfirst : first = key
    · subst hfirst
      rw [if_neg (by simp), ih]
      by_cases hother : other = first
      · simp [hother]
      · rw [List.lookup_cons, beq_eq_false_iff_ne.2 hother]
    · rw [if_pos (by simp [hfirst]), List.lookup_cons, List.lookup_cons, ih]
      by_cases hother : other = first
      · subst hother
        simp [hfirst]
      · rw [beq_eq_false_iff_ne.2 hother]

omit [LawfulBEq α] in
theorem map_fst_filter_ne (key : α) (table : List (α × β)) :
    (table.filter fun e => e.1 != key).map Prod.fst = (table.map Prod.fst).filter (· != key) := by
  rw [List.filter_map]
  rfl

end

/-! ## Names in mappings -/

namespace Value

variable {name : String} {v : Value} {entries : List (Value × Value)}

theorem sameKey_string (s t : String) : (string s).sameKey (.string t) = (s == t) := rfl

theorem sameKey_string_iff {k : Value} : k.sameKey (.string name) = true ↔ k = .string name := by
  cases k with
  | float x => cases hinteger : x.toInt? <;> simp [sameKey, integer?, hinteger]
  | _ => simp [sameKey, integer?]

theorem field?_cons (k : Value) :
    field? name ((k, v) :: entries) = if k.sameKey (.string name) then some v else field? name entries := rfl

theorem field?_cons_of_ne {k : Value} (h : k ≠ .string name) : field? name ((k, v) :: entries) = field? name entries := by
  rw [field?_cons, if_neg (mt sameKey_string_iff.1 h)]

theorem field?_cons_self : field? name ((.string name, v) :: entries) = some v := by
  rw [field?_cons, if_pos (sameKey_string_iff.2 rfl)]

/-- Of entries whose keys are different, those that come first are found, each by its name. -/
theorem field?_append_of_mem (hdistinct : (entries.map Prod.fst).Nodup) (hmem : (string name, v) ∈ entries)
    (rest : List (Value × Value)) : field? name (entries ++ rest) = some v := by
  induction entries with
  | nil => cases hmem
  | cons e entries ih =>
    obtain ⟨k, w⟩ := e
    obtain ⟨hnew, hdistinct⟩ := List.nodup_cons.1 hdistinct
    rw [List.cons_append]
    rcases List.mem_cons.1 hmem with heq | hlater
    · obtain ⟨rfl, rfl⟩ := Prod.mk.inj heq
      exact field?_cons_self
    · have hne : k ≠ string name := fun heq => hnew (List.mem_map.2 ⟨_, hlater, heq.symm⟩)
      rw [field?_cons_of_ne hne, ih hdistinct hlater]

end Value

namespace Json

theorem field?_toEntries (key : String) (members : List (String × Json)) :
    Value.field? key (toEntries members) = (members.lookup key).map toValue := by
  induction members with
  | nil => rfl
  | cons e rest ih =>
    obtain ⟨k, v⟩ := e
    rw [toEntries, Value.field?_cons, Value.sameKey_string, List.lookup_cons, ih]
    by_cases hk : k = key
    · subst hk
      simp
    · rw [if_neg (by simp [hk]), beq_eq_false_iff_ne.2 (Ne.symm hk)]

theorem toValues_eq_map (items : List Json) : toValues items = items.map toValue := by
  induction items with
  | nil => rfl
  | cons j items ih => rw [toValues, ih, List.map_cons]

theorem toEntries_eq_map (members : List (String × Json)) :
    toEntries members = members.map fun m => (.string m.1, toValue m.2) := by
  induction members with
  | nil => rfl
  | cons m members ih => rw [toEntries, ih, List.map_cons]

/-- The kind of a collection among plain data. -/
def collection? : Json → Option String
  | array _ => some "list"
  | object _ => some "dict"
  | _ => none

theorem unhashable?_toValue (j : Json) : j.toValue.unhashable? = j.collection? := by
  cases j <;> rfl

theorem toValue_eq_string_iff {j : Json} {s : String} : j.toValue = .string s ↔ j = .string s := by
  cases j <;> simp [toValue]

end Json

end Folio
