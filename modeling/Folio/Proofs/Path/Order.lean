import Mathlib.Data.String.Basic
import Folio.Path

set_option autoImplicit false

/-! # Names and their spelling in order

Lists of names are ordered name by name, and the texts that spell them are ordered character by character. The two orders
are the same but for names that lead on below a name where others continue it with a character before the slash
(`spell_lt_iff`). -/

namespace Folio

namespace Path

/-! ## Names in order -/

theorem namesLe_cons_iff {a b : String} {as bs : List String} :
    namesLe (a :: as) (b :: bs) = true ↔ a < b ∨ a = b ∧ namesLe as bs = true := by
  rw [namesLe, Bool.or_eq_true, Bool.and_eq_true, decide_eq_true_eq, beq_iff_eq]

theorem namesLe_total (as bs : List String) : (namesLe as bs || namesLe bs as) = true := by
  rw [Bool.or_eq_true]
  induction as generalizing bs with
  | nil => exact .inl rfl
  | cons a as ih =>
    cases bs with
    | nil => exact .inr rfl
    | cons b bs =>
      rw [namesLe_cons_iff, namesLe_cons_iff]
      rcases lt_trichotomy a b with hlt | rfl | hlt
      · exact .inl (.inl hlt)
      · exact (ih bs).imp (fun h => .inr ⟨rfl, h⟩) fun h => .inr ⟨rfl, h⟩
      · exact .inr (.inl hlt)

theorem namesLe_trans (as bs cs : List String) (hab : namesLe as bs = true) (hbc : namesLe bs cs = true) :
    namesLe as cs = true := by
  induction as generalizing bs cs with
  | nil => rfl
  | cons a as ih =>
    obtain _ | ⟨b, bs⟩ := bs
    · cases hab
    obtain _ | ⟨c, cs⟩ := cs
    · cases hbc
    rw [namesLe_cons_iff] at hab hbc ⊢
    rcases hab with hab | ⟨rfl, hab⟩
    · rcases hbc with hbc | ⟨rfl, -⟩
      · exact .inl (hab.trans hbc)
      · exact .inl hab
    · exact hbc.imp id fun ⟨heq, hbc⟩ => ⟨heq, ih bs cs hab hbc⟩

theorem namesLe_antisymm {as bs : List String} (hab : namesLe as bs = true) (hba : namesLe bs as = true) :
    as = bs := by
  induction as generalizing bs with
  | nil =>
    cases bs with
    | nil => rfl
    | cons b bs => cases hba
  | cons a as ih =>
    obtain _ | ⟨b, bs⟩ := bs
    · cases hab
    rw [namesLe_cons_iff] at hab hba
    rcases hab with hab | ⟨rfl, hab⟩
    · rcases hba with hba | ⟨rfl, -⟩
      · exact absurd hab hba.asymm
      · exact absurd hab (lt_irrefl b)
    · rw [ih hab (hba.resolve_left (lt_irrefl a)).2]

/-- Some names lead on below a name that others continue with a character before the slash, as those of `a/b.md` and
    `a.md` do. -/
inductive Crosses : List String → List String → Prop
  | here {name next : String} {names names' : List String} {c : Char} {more : List Char} (below : names ≠ [])
      (continues : next.toList = name.toList ++ c :: more) (early : c < '/') : Crosses (name :: names) (next :: names')
  | deeper {name : String} {names names' : List String} (h : Crosses names names') :
      Crosses (name :: names) (name :: names')

/-! ## Names in one text -/

/-- A text that comes before another starts it, or comes before it however both go on. -/
theorem starts_or_precedes {xs ys : List Char} (h : xs < ys) :
    (∃ c more, ys = xs ++ c :: more) ∨ ∀ us vs, xs ++ us < ys ++ vs := by
  induction xs generalizing ys with
  | nil =>
    cases ys with
    | nil => simp at h
    | cons y ys => exact .inl ⟨y, ys, rfl⟩
  | cons x xs ih =>
    obtain _ | ⟨y, ys⟩ := ys
    · simp at h
    rcases List.cons_lt_cons_iff.1 h with hlt | ⟨rfl, hlt⟩
    · exact .inr fun us vs => List.cons_lt_cons_iff.2 (.inl hlt)
    · rcases ih hlt with ⟨c, more, rfl⟩ | hall
      · exact .inl ⟨c, more, rfl⟩
      · exact .inr fun us vs => List.cons_lt_cons_iff.2 (.inr ⟨rfl, hall us vs⟩)

theorem append_lt_append_iff {pre xs ys : List Char} : pre ++ xs < pre ++ ys ↔ xs < ys := by
  induction pre with
  | nil => rfl
  | cons p pre ih => simp [ih]

/-- The characters of some names, each after a slash. -/
def spell : List String → List Char
  | [] => []
  | name :: names => '/' :: (name.toList ++ spell names)

theorem spell_eq {names : List String} (h : names ≠ []) : spell names = ("/" ++ "/".intercalate names).toList := by
  induction names with
  | nil => exact absurd rfl h
  | cons name names ih =>
    cases names with
    | nil => simp [spell]
    | cons next names =>
      rw [spell, ih (List.cons_ne_nil _ _), String.intercalate_cons_of_ne_nil (List.cons_ne_nil _ _)]
      simp

section

variable {a b : String} {as bs : List String}

theorem crosses_cons_iff : Crosses (a :: as) (b :: bs) ↔
    (as ≠ [] ∧ ∃ c more, b.toList = a.toList ++ c :: more ∧ c < '/') ∨ a = b ∧ Crosses as bs := by
  constructor
  · intro h
    cases h with
    | here below continues early => exact .inl ⟨below, _, _, continues, early⟩
    | deeper h => exact .inr ⟨rfl, h⟩
  · rintro (⟨below, c, more, continues, early⟩ | ⟨rfl, h⟩)
    · exact .here below continues early
    · exact .deeper h

/-- A name alone crosses nothing. -/
theorem not_crosses_singleton (a : String) (bs : List String) : ¬ Crosses [a] bs := by
  intro h
  cases h with
  | here below _ _ => exact below rfl
  | deeper h => cases h

theorem lt_of_continues {c : Char} {more : List Char} (h : b.toList = a.toList ++ c :: more) : a < b := by
  rw [String.lt_iff, h]
  conv_lhs => rw [← List.append_nil a.toList]
  exact append_lt_append_iff.2 (List.nil_lt_cons c more)

/-- Names that cross others come before them. -/
theorem Crosses.comesBefore (h : Crosses as bs) : namesLe as bs = true ∧ as ≠ bs := by
  induction h with
  | here below continues early =>
    have hlt := lt_of_continues continues
    exact ⟨namesLe_cons_iff.2 (.inl hlt), fun heq => hlt.ne (List.cons.inj heq).1⟩
  | deeper _ ih => exact ⟨namesLe_cons_iff.2 (.inr ⟨rfl, ih.1⟩), fun heq => ih.2 (List.cons.inj heq).2⟩

/-- What follows a name that comes before another tells the order only if the other continues it: the slash stands
    against the first character more. -/
theorem append_spell_lt_iff (hlt : a < b) (hslash : '/' ∉ b.toList) : a.toList ++ spell as < b.toList ++ spell bs ↔
    ¬ (as ≠ [] ∧ ∃ c more, b.toList = a.toList ++ c :: more ∧ c < '/') := by
  rcases starts_or_precedes (String.lt_iff.1 hlt) with ⟨c, more, hb⟩ | hall
  · have hne : c ≠ '/' := fun heq => hslash (by simp [hb, heq])
    have hearly : (∃ c' more', b.toList = a.toList ++ c' :: more' ∧ c' < '/') ↔ c < '/' := by simp [hb]
    rw [hearly, hb, List.append_assoc, append_lt_append_iff]
    cases as with
    | nil => exact iff_of_true (List.nil_lt_cons _ _) fun h => h.1 rfl
    | cons next as =>
      have hfirst : spell (next :: as) < c :: more ++ spell bs ↔ '/' < c := by
        rw [spell, List.cons_append, List.cons_lt_cons_iff]
        exact ⟨fun h => h.resolve_right fun h => hne h.1.symm, .inl⟩
      rw [hfirst]
      exact ⟨fun h h' => h.asymm h'.2, fun h => lt_of_le_of_ne (not_lt.1 fun hc => h ⟨List.cons_ne_nil _ _, hc⟩) hne.symm⟩
  · refine iff_of_true (hall _ _) ?_
    rintro ⟨-, c, more, hb, -⟩
    have hself := hall (c :: more) []
    rw [← hb, List.append_nil] at hself
    exact lt_irrefl _ hself

/-- Names that come before others are spelled before them exactly if they do not cross them. -/
theorem spell_lt_iff (hbs : ∀ s ∈ bs, '/' ∉ s.toList) (hle : namesLe as bs = true) (hne : as ≠ bs) :
    spell as < spell bs ↔ ¬ Crosses as bs := by
  induction as generalizing bs with
  | nil =>
    obtain _ | ⟨b, bs⟩ := bs
    · exact absurd rfl hne
    · exact iff_of_true (List.nil_lt_cons _ _) fun h => by cases h
  | cons a as ih =>
    obtain _ | ⟨b, bs⟩ := bs
    · cases hle
    have hcons : spell (a :: as) < spell (b :: bs) ↔ a.toList ++ spell as < b.toList ++ spell bs := by
      rw [spell, spell, List.cons_lt_cons_iff]
      simp
    rw [hcons, crosses_cons_iff]
    rcases namesLe_cons_iff.1 hle with hlt | ⟨rfl, hle'⟩
    · rw [append_spell_lt_iff hlt (hbs b List.mem_cons_self)]
      exact not_congr ⟨.inl, fun h => h.resolve_right fun h => hlt.ne h.1⟩
    · have hcontinues : ¬ (as ≠ [] ∧ ∃ c more, a.toList = a.toList ++ c :: more ∧ c < '/') := by
        rintro ⟨-, c, more, h, -⟩
        exact lt_irrefl a (lt_of_continues h)
      rw [append_lt_append_iff, ih (fun s hs => hbs s (List.mem_cons_of_mem _ hs)) hle' fun heq => hne (heq ▸ rfl)]
      exact not_congr ⟨fun h => .inr ⟨rfl, h⟩, fun h => (h.resolve_left hcontinues).2⟩

end

end Path

end Folio
