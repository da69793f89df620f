import Folio.Json
import Folio.Proofs.Except
import Mathlib.Data.List.Nodup

set_option autoImplicit false

/-! # Names in plain data

The names of an object are different from each other: setting members one after the other leaves one for
each name (`nodup_membersOf`), and keeps members that are different already (`membersOf_of_nodup`). So
plain data that is made from values has different names in every object (`hasDistinctNames_ofValue`). -/

namespace Folio.Json

mutual

/-- Whether the names of every object are different from each other. -/
def hasDistinctNames : Json → Bool
  | array items => itemsHaveDistinctNames items
  | object members => decide (members.map Prod.fst).Nodup && membersHaveDistinctNames members
  | _ => true

/-- Whether every one of some plain data has different names in its objects. -/
def itemsHaveDistinctNames : List Json → Bool
  | [] => true
  | j :: rest => hasDistinctNames j && itemsHaveDistinctNames rest

/-- Whether every one of some members has different names in its objects. -/
def membersHaveDistinctNames : List (String × Json) → Bool
  | [] => true
  | (_, j) :: rest => hasDistinctNames j && membersHaveDistinctNames rest

end

theorem hasDistinctNames_object {members : List (String × Json)} :
    hasDistinctNames (.object members) = true
      ↔ (members.map Prod.fst).Nodup ∧ membersHaveDistinctNames members = true := by
  rw [hasDistinctNames, Bool.and_eq_true, decide_eq_true_eq]

/-! ## Setting members -/

/-- A name that is set is there once, where it was or at the end. -/
theorem map_fst_put (name : String) (value : Json) (members : List (String × Json)) :
    (put name value members).map Prod.fst
      = if name ∈ members.map Prod.fst then members.map Prod.fst
        else members.map Prod.fst ++ [name] := by
  induction members with
  | nil => rfl
  | cons member rest ih =>
    obtain ⟨n, v⟩ := member
    by_cases hn : n = name
    · subst hn
      simp [put]
    · rw [put, if_neg hn, List.map_cons, ih]
      by_cases hmem : name ∈ rest.map Prod.fst
      · simp only [List.map_cons, List.mem_cons, hmem, or_true, if_true]
      · simp only [List.map_cons, List.mem_cons, hmem, or_false, if_neg (Ne.symm hn), if_false,
          List.cons_append]

theorem put_of_not_mem {name : String} (value : Json) {members : List (String × Json)}
    (h : name ∉ members.map Prod.fst) : put name value members = members ++ [(name, value)] := by
  induction members with
  | nil => rfl
  | cons member rest ih =>
    obtain ⟨n, v⟩ := member
    simp only [List.map_cons, List.mem_cons, not_or] at h
    rw [put, if_neg (Ne.symm h.1), ih h.2, List.cons_append]

theorem nodup_put {name : String} (value : Json) {members : List (String × Json)}
    (h : (members.map Prod.fst).Nodup) : ((put name value members).map Prod.fst).Nodup := by
  rw [map_fst_put]
  split
  · exact h
  · next hmem =>
    refine List.nodup_append.2 ⟨h, List.nodup_singleton name, fun n hn m hm hnm => hmem ?_⟩
    rwa [← List.mem_singleton.1 hm, ← hnm]

theorem membersHaveDistinctNames_put {name : String} {value : Json} {members : List (String × Json)}
    (hvalue : hasDistinctNames value = true) (h : membersHaveDistinctNames members = true) :
    membersHaveDistinctNames (put name value members) = true := by
  induction members with
  | nil => simp [put, membersHaveDistinctNames, hvalue]
  | cons member rest ih =>
    obtain ⟨n, v⟩ := member
    rw [membersHaveDistinctNames, Bool.and_eq_true] at h
    rw [put]
    split
    · rw [membersHaveDistinctNames, hvalue, h.2]; rfl
    · rw [membersHaveDistinctNames, h.1, ih h.2]; rfl

/-! ## Members set one after the other -/

/-- Members set on top of others with different names leave different names. -/
theorem nodup_foldl_put (pairs : List (String × Json)) {members : List (String × Json)}
    (h : (members.map Prod.fst).Nodup) :
    ((pairs.foldl (fun m p => put p.1 p.2 m) members).map Prod.fst).Nodup := by
  induction pairs generalizing members with
  | nil => exact h
  | cons pair rest ih => exact ih (nodup_put pair.2 h)

theorem nodup_membersOf (pairs : List (String × Json)) :
    ((membersOf pairs).map Prod.fst).Nodup :=
  nodup_foldl_put pairs List.nodup_nil

theorem foldl_put_of_nodup {pairs members : List (String × Json)}
    (h : ((members ++ pairs).map Prod.fst).Nodup) :
    pairs.foldl (fun m p => put p.1 p.2 m) members = members ++ pairs := by
  induction pairs generalizing members with
  | nil => simp
  | cons pair rest ih =>
    have hnew : pair.1 ∉ members.map Prod.fst := by
      rw [List.map_append, List.map_cons] at h
      exact fun hmem => (List.nodup_append.1 h).2.2 _ hmem _ (by simp) rfl
    rw [List.foldl_cons, put_of_not_mem pair.2 hnew, ih (by simpa using h), List.append_assoc]
    rfl

/-- Members that have different names are what they are. -/
theorem membersOf_of_nodup {members : List (String × Json)} (h : (members.map Prod.fst).Nodup) :
    membersOf members = members :=
  foldl_put_of_nodup (by simpa using h)

theorem membersHaveDistinctNames_foldl {pairs members : List (String × Json)}
    (hpairs : membersHaveDistinctNames pairs = true)
    (h : membersHaveDistinctNames members = true) :
    membersHaveDistinctNames (pairs.foldl (fun m p => put p.1 p.2 m) members) = true := by
  induction pairs generalizing members with
  | nil => exact h
  | cons pair rest ih =>
    rw [membersHaveDistinctNames, Bool.and_eq_true] at hpairs
    exact ih hpairs.2 (membersHaveDistinctNames_put hpairs.1 h)

theorem hasDistinctNames_membersOf {pairs : List (String × Json)}
    (h : membersHaveDistinctNames pairs = true) :
    hasDistinctNames (.object (membersOf pairs)) = true :=
  hasDistinctNames_object.2 ⟨nodup_membersOf pairs, membersHaveDistinctNames_foldl h rfl⟩

/-- What is there when a name is set. -/
theorem mem_put_iff {modules : List (String × Json)} (h : (modules.map Prod.fst).Nodup) {key : String}
    {value : Json} {e : String × Json} :
    e ∈ put key value modules ↔ e = (key, value) ∨ e ∈ modules ∧ e.1 ≠ key := by
  induction modules with
  | nil => simp [put]
  | cons entry rest ih =>
    obtain ⟨k, v⟩ := entry
    rw [List.map_cons, List.nodup_cons] at h
    rw [put]
    split
    · next hk =>
      subst hk
      have hrest : e ∈ rest → e.1 ≠ k := fun he heq => h.1 (List.mem_map.2 ⟨e, he, heq⟩)
      constructor
      · intro he
        rcases List.mem_cons.1 he with rfl | he
        · exact .inl rfl
        · exact .inr ⟨List.mem_cons_of_mem _ he, hrest he⟩
      · rintro (rfl | ⟨he, hne⟩)
        · exact List.mem_cons_self
        · rcases List.mem_cons.1 he with rfl | he
          · exact absurd rfl hne
          · exact List.mem_cons_of_mem _ he
    · next hk =>
      rw [List.mem_cons, ih h.2, List.mem_cons]
      constructor
      · rintro (rfl | rfl | ⟨he, hne⟩)
        · exact .inr ⟨.inl rfl, hk⟩
        · exact .inl rfl
        · exact .inr ⟨.inr he, hne⟩
      · rintro (rfl | ⟨rfl | he, hne⟩)
        · exact .inr (.inl rfl)
        · exact .inl rfl
        · exact .inr (.inr ⟨he, hne⟩)

/-- Members that are set are there, if those of one name are the same. -/
theorem mem_foldl_put_iff {pairs : List (String × Json)}
    (hpairs : ∀ a ∈ pairs, ∀ b ∈ pairs, a.1 = b.1 → a = b) {members : List (String × Json)}
    (hmembers : (members.map Prod.fst).Nodup)
    (hboth : ∀ a ∈ pairs, ∀ b ∈ members, a.1 = b.1 → a = b) {e : String × Json} :
    e ∈ pairs.foldl (fun m p => put p.1 p.2 m) members ↔ e ∈ pairs ∨ e ∈ members := by
  induction pairs generalizing members with
  | nil => simp
  | cons pair rest ih =>
    have hrest := fun a ha b hb => hpairs a (List.mem_cons_of_mem _ ha) b (List.mem_cons_of_mem _ hb)
    have hput : ∀ b, b ∈ put pair.1 pair.2 members ↔ b = pair ∨ b ∈ members := by
      intro b
      rw [mem_put_iff hmembers]
      constructor
      · exact Or.imp id And.left
      · rintro (rfl | hb)
        · exact .inl rfl
        · by_cases hkey : b.1 = pair.1
          · exact .inl (hboth pair List.mem_cons_self b hb hkey.symm).symm
          · exact .inr ⟨hb, hkey⟩
    rw [List.foldl_cons, ih hrest (nodup_put _ hmembers) ?_, hput, List.mem_cons, or_left_comm,
      or_assoc]
    intro a ha b hb hkey
    rcases (hput b).1 hb with rfl | hb
    · exact hpairs a (List.mem_cons_of_mem _ ha) b List.mem_cons_self hkey
    · exact hboth a (List.mem_cons_of_mem _ ha) b hb hkey

theorem mem_membersOf_iff {pairs : List (String × Json)}
    (hpairs : ∀ a ∈ pairs, ∀ b ∈ pairs, a.1 = b.1 → a = b) {e : String × Json} :
    e ∈ membersOf pairs ↔ e ∈ pairs := by
  have hempty : (([] : List (String × Json)).map Prod.fst).Nodup := List.nodup_nil
  have hfold := mem_foldl_put_iff hpairs hempty (by simp) (e := e)
  rw [or_iff_left List.not_mem_nil] at hfold
  exact hfold

/-! ## Plain data made from values -/

mutual

/-- Plain data that a value becomes has different names in every object. -/
theorem hasDistinctNames_ofValue {v : Value} {j : Json} (h : ofValue v = .ok j) :
    hasDistinctNames j = true := by
  cases v with
  | null | bool b | int n | float x | string s | date d | dateTime m =>
    simp only [ofValue, Except.ok.injEq] at h
    subst h
    rfl
  | bytes bs =>
    rw [ofValue] at h
    obtain ⟨s, -, rfl⟩ := Except.map_eq_ok_iff.1 h
    rfl
  | list items | set items =>
    rw [ofValue] at h
    obtain ⟨js, hjs, rfl⟩ := Except.map_eq_ok_iff.1 h
    exact itemsHaveDistinctNames_ofValues hjs
  | pair a b =>
    rw [ofValue] at h
    obtain ⟨ja, hja, h⟩ := Except.bind_eq_ok_iff.1 h
    obtain ⟨jb, hjb, h⟩ := Except.bind_eq_ok_iff.1 h
    obtain rfl := Except.pure_eq_ok_iff.1 h
    simp only [hasDistinctNames, itemsHaveDistinctNames, hasDistinctNames_ofValue hja,
      hasDistinctNames_ofValue hjb, Bool.and_self]
  | map entries =>
    rw [ofValue] at h
    obtain ⟨members, hmembers, rfl⟩ := Except.map_eq_ok_iff.1 h
    exact hasDistinctNames_membersOf (membersHaveDistinctNames_ofEntries hmembers)
  | unwritable what =>
    cases what with
    | cycle => cases h
    | text t =>
      obtain rfl := Except.ok.inj h
      rfl

theorem itemsHaveDistinctNames_ofValues {vs : List Value} {js : List Json}
    (h : ofValues vs = .ok js) : itemsHaveDistinctNames js = true := by
  cases vs with
  | nil =>
    obtain rfl : [] = js := by simpa [ofValues] using h
    rfl
  | cons v vs =>
    rw [ofValues] at h
    obtain ⟨j, hj, h⟩ := Except.bind_eq_ok_iff.1 h
    obtain ⟨js, hjs, h⟩ := Except.bind_eq_ok_iff.1 h
    obtain rfl := Except.pure_eq_ok_iff.1 h
    rw [itemsHaveDistinctNames, hasDistinctNames_ofValue hj, itemsHaveDistinctNames_ofValues hjs]
    rfl

theorem membersHaveDistinctNames_ofEntries {entries : List (Value × Value)}
    {members : List (String × Json)} (h : ofEntries entries = .ok members) :
    membersHaveDistinctNames members = true := by
  cases entries with
  | nil =>
    obtain rfl : [] = members := by simpa [ofEntries] using h
    rfl
  | cons entry entries =>
    obtain ⟨k, v⟩ := entry
    rw [ofEntries] at h
    obtain ⟨name, -, h⟩ := Except.bind_eq_ok_iff.1 h
    obtain ⟨j, hj, h⟩ := Except.bind_eq_ok_iff.1 h
    obtain ⟨rest, hrest, h⟩ := Except.bind_eq_ok_iff.1 h
    obtain rfl := Except.pure_eq_ok_iff.1 h
    rw [membersHaveDistinctNames, hasDistinctNames_ofValue hj,
      membersHaveDistinctNames_ofEntries hrest]
    rfl

end

end Folio.Json
