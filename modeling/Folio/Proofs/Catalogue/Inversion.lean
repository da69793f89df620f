import Folio.Proofs.Catalogue.Templates
import Mathlib.Algebra.BigOperators.Group.List.Basic
import Mathlib.Data.List.Forall2
import Mathlib.Data.List.Nodup
import Mathlib.Data.List.Perm.Subperm

set_option autoImplicit false

/-! # From keys to slugs and back

A key format puts the slug between two texts (`Puts.keyFrom`). The slug of a key is read by the first format that the key
fits (`ReadBy`), and the key of a slug is the first one that is held (`FoundBy`). The two go together unless an earlier
format makes another key of the slug, and then they lead to a key that is read by an earlier format
(`ReadBy.found`). -/

namespace Folio

/-! ## Lists -/

section

variable {ε α β γ : Type} {R : α → β → Prop} {S : α → γ → Prop} {l : List α} {l' : List β}

theorem mapM_eq_ok_iff {f : α → Except ε β} : l.mapM f = .ok l' ↔ List.Forall₂ (fun a b => f a = .ok b) l l' := by
  induction l generalizing l' with
  | nil => cases l' <;> simp [pure, Except.pure]
  | cons a l ih =>
    rw [List.mapM_cons, List.forall₂_cons_left_iff]
    constructor
    · intro h
      obtain ⟨b, hb, h⟩ := Except.bind_eq_ok_iff.1 h
      obtain ⟨bs, hbs, h⟩ := Except.bind_eq_ok_iff.1 h
      exact ⟨b, bs, hb, ih.1 hbs, (Except.pure_eq_ok_iff.1 h).symm⟩
    · rintro ⟨b, bs, hb, hbs, rfl⟩
      rw [hb, ih.2 hbs]
      rfl

theorem exists_forall₂ (h : ∀ a ∈ l, ∃ b, R a b) : ∃ l', List.Forall₂ R l l' := by
  induction l with
  | nil => exact ⟨[], .nil⟩
  | cons a l ih =>
    obtain ⟨b, hb⟩ := h a List.mem_cons_self
    obtain ⟨l', hl'⟩ := ih fun a ha => h a (List.mem_cons_of_mem _ ha)
    exact ⟨b :: l', .cons hb hl'⟩

theorem forall_mem_right {p : β → Prop} (h : List.Forall₂ R l l') (hp : ∀ a ∈ l, ∀ b, R a b → p b) : ∀ b ∈ l', p b := by
  induction h with
  | nil => exact nofun
  | cons hab _ ih =>
    obtain ⟨hfirst, hrest⟩ := List.forall_mem_cons.1 hp
    exact List.forall_mem_cons.2 ⟨hfirst _ hab, ih hrest⟩

/-- What has at most one result is not there twice if its results are not. -/
theorem nodup_of_forall₂ (h : List.Forall₂ R l l') (hR : ∀ a b b', R a b → R a b' → b = b') (hnodup : l'.Nodup) :
    l.Nodup := by
  induction h with
  | nil => exact .nil
  | @cons a b l l' hab hrest ih =>
    obtain ⟨hb, hnodup⟩ := List.nodup_cons.1 hnodup
    refine List.nodup_cons.2 ⟨fun ha => ?_, ih hnodup⟩
    have hagain : ∀ a' ∈ l, ∃ b' ∈ l', R a' b' := forall_mem_right hrest.flip fun b' hb' _ h => ⟨b', hb', h⟩
    obtain ⟨b', hb', hab'⟩ := hagain a ha
    exact hb (hR a b b' hab hab' ▸ hb')

theorem forall₂_of_both {T : β → γ → Prop} {l'' : List γ} (h : List.Forall₂ R l l') (h' : List.Forall₂ S l l'')
    (hT : ∀ a b c, R a b → S a c → T b c) : List.Forall₂ T l' l'' := by
  induction h generalizing l'' with
  | nil =>
    cases h'
    exact .nil
  | cons hab _ ih =>
    cases h' with
    | cons hac h' => exact .cons (hT _ _ _ hab hac) (ih h')

end

/-- Of two beginnings the longer one holds what comes right after the shorter one. -/
theorem mem_of_length_lt {α : Type} {front front' back back' : List α} {a : α}
    (h : front ++ a :: back = front' ++ back') (hlength : front.length < front'.length) : a ∈ front' := by
  have hprefix : front ++ [a] <+: front' := by
    have hfront : front ++ [a] <+: front ++ a :: back := ⟨back, by simp⟩
    refine List.prefix_of_prefix_length_le hfront ⟨back', h.symm⟩ ?_
    rw [List.length_append]
    exact hlength
  exact hprefix.subset (by simp)

theorem exists_first {α : Type} {p : α → Prop} {l : List α} (h : ∃ a ∈ l, p a) :
    ∃ front a back, l = front ++ a :: back ∧ p a ∧ ∀ b ∈ front, ¬ p b := by
  classical
  obtain ⟨a, ha, hp⟩ := h
  obtain ⟨a, hfound⟩ := Option.isSome_iff_exists.1
    (List.find?_isSome (p := fun a => decide (p a)) |>.2 ⟨a, ha, decide_eq_true hp⟩)
  obtain ⟨hp, front, back, hl, hfront⟩ := List.find?_eq_some_iff_append.1 hfound
  exact ⟨front, a, back, hl, of_decide_eq_true hp, fun b hb => by simpa using hfront b hb⟩

/-- What goes down wherever it does not stay, and leaves nothing twice, stays everywhere. -/
theorem eq_of_descends {α : Type} {rank : α → Nat} {l l' : List α}
    (h : List.Forall₂ (fun a b => b = a ∨ rank b < rank a) l l') (hperm : l'.Perm l) : l' = l := by
  -- the ranks have the same sum, and each that goes down makes it less
  have hle : ∀ {l l' : List α}, List.Forall₂ (fun a b => b = a ∨ rank b < rank a) l l' →
      (l'.map rank).sum ≤ (l.map rank).sum ∧ ((l'.map rank).sum = (l.map rank).sum → l' = l) := by
    intro l l' h
    induction h with
    | nil => exact ⟨Nat.le_refl _, fun _ => rfl⟩
    | @cons a b l l' hab _ ih =>
      simp only [List.map_cons, List.sum_cons]
      rcases hab with rfl | hlt
      · exact ⟨Nat.add_le_add_left ih.1 _, fun hsum => by rw [ih.2 (Nat.add_left_cancel hsum)]⟩
      · exact ⟨by omega, fun hsum => by omega⟩
  exact (hle h).2 (hperm.map rank).sum_eq

namespace Catalogue

variable {c : Catalogue} {format key slug : String} {earlier formats : List String}

/-! ## Formats of keys -/

/-- A format puts the slug between two texts: it has one field for it, and the text around needs only what keys start
    with. -/
def Puts (c : Catalogue) (format before after : String) : Prop :=
  ∃ front back, format = front ++ "\x7bslug\x7d" ++ back ∧
    Template.fill front [("alias", c.keyStart)] = .ok before ∧
    Template.fill back [("alias", c.keyStart)] = .ok after

/-- A format of keys has one place for the slug, and nothing in front of it looks like its mark. -/
def IsKeyFormat (c : Catalogue) (format : String) : Prop :=
  ∃ before after, c.Puts format before after ∧ mark ∉ before.toList

theorem fill_slug (keyStart slug : String) :
    Template.fill "\x7bslug\x7d" [("alias", keyStart), ("slug", slug)] = .ok slug := by
  rw [@Template.fill_pieces _ _ [(.field ⟨"slug".toList, none, []⟩, slug.toList)] ?_ (by rfl)]
  · simp
  · intro p hp
    obtain rfl := List.mem_singleton.1 hp
    exact .field isPlain_slug rfl

theorem Puts.keyFrom {before after : String} (h : c.Puts format before after) (slug : String) :
    c.keyFrom format slug = .ok (before ++ slug ++ after) := by
  obtain ⟨front, back, rfl, hfront, hback⟩ := h
  have hmore : ∀ name value, [("alias", c.keyStart)].lookup name = some value →
      [("alias", c.keyStart), ("slug", slug)].lookup name = some value := by
    intro name value hlookup
    rw [List.lookup_cons] at hlookup ⊢
    split at hlookup
    · exact hlookup
    · cases hlookup
  have hempty : Template.fill "" [("alias", c.keyStart), ("slug", slug)] = .ok "" := rfl
  have hback' := Template.fill_append hmore hback hempty
  rw [String.append_empty, String.append_empty] at hback'
  exact Template.fill_append (fun _ _ => id) (Template.fill_append hmore hfront (fill_slug _ _)) hback'

theorem between?_eq_some_iff {before after cs slug : List Char} :
    between? before after cs = some slug ↔ slug ≠ [] ∧ cs = before ++ (slug ++ after) := by
  constructor
  · intro h
    unfold between? at h
    obtain ⟨rest, hrest, h⟩ := Option.bind_eq_some_iff.1 h
    obtain ⟨back, hback, h⟩ := Option.bind_eq_some_iff.1 h
    have hcs := Text.dropPrefix?_eq_some hrest
    have hrest' := congrArg List.reverse (Text.dropPrefix?_eq_some hback)
    split at h
    · cases h
    · next hempty =>
      obtain rfl : back.reverse = slug := Option.some.inj h
      refine ⟨by simpa using hempty, ?_⟩
      rw [hcs]
      simpa using hrest'
  · rintro ⟨hslug, rfl⟩
    exact between?_append before after hslug

/-- A key fits a format that makes it of a slug. -/
def Fits (c : Catalogue) (format key : String) : Prop :=
  ∃ slug, slug ≠ "" ∧ c.keyFrom format slug = .ok key

/-- The slug that a format makes a key of is what stands in its place. -/
theorem slugBy_cons_cases (h : c.IsKeyFormat format) (key : String) (formats : List String) :
    (∃ slug, slug ≠ "" ∧ c.keyFrom format slug = .ok key ∧
      c.slugBy key.toList (format :: formats) = .ok slug.toList) ∨
    (¬ c.Fits format key ∧ c.slugBy key.toList (format :: formats) = c.slugBy key.toList formats) := by
  obtain ⟨before, after, hputs, hmark⟩ := h
  -- the mark shows what stands around the slug
  have haround : around (before ++ String.ofList [mark] ++ after).toList = (before.toList, after.toList) := by
    simpa using around_mark hmark after.toList
  have hmakes : ∀ slug, c.keyFrom format slug = .ok key ↔ key.toList = before.toList ++ (slug.toList ++ after.toList) := by
    intro slug
    rw [hputs.keyFrom, Except.ok.injEq, eq_comm, ← String.toList_inj]
    simp
  rw [slugBy, hputs.keyFrom]
  simp only [bind, Except.bind, haround]
  cases hbetween : between? before.toList after.toList key.toList with
  | some slug =>
    obtain ⟨hslug, hkey⟩ := between?_eq_some_iff.1 hbetween
    refine .inl ⟨String.ofList slug, ?_, (hmakes _).2 (by simpa using hkey), by simp [pure, Except.pure]⟩
    intro hempty
    exact hslug (by simpa using congrArg String.toList hempty)
  | none =>
    refine .inr ⟨?_, rfl⟩
    rintro ⟨slug, hslug, hkey⟩
    have hsome := between?_eq_some_iff.2 ⟨Path.toList_ne_nil hslug, (hmakes slug).1 hkey⟩
    rw [hbetween] at hsome
    cases hsome

/-- A format makes a key of one slug at most. -/
theorem keyFrom_injective (h : c.IsKeyFormat format) {slug' : String} (hslug : c.keyFrom format slug = .ok key)
    (hslug' : c.keyFrom format slug' = .ok key) : slug = slug' := by
  obtain ⟨before, after, hputs, -⟩ := h
  rw [hputs.keyFrom] at hslug hslug'
  have hsame := congrArg String.toList (Except.ok.inj (hslug.trans hslug'.symm))
  simpa [String.toList_inj] using hsame

/-! ## The first format that reads a slug or makes a key -/

/-- The slug of a key is read by the first format that the key fits, after some earlier ones. -/
structure ReadBy (c : Catalogue) (key slug : String) (earlier : List String) : Prop where
  nonempty : slug ≠ ""
  first : ∃ format later, c.formats = earlier ++ format :: later ∧ c.keyFrom format slug = .ok key
  unfit : ∀ format ∈ earlier, ¬ c.Fits format key

/-- The key of a slug is the first one that a format makes and that is held, after some earlier formats. -/
structure FoundBy (c : Catalogue) (slug key : String) (earlier : List String) : Prop where
  held : key ∈ c.keys
  first : ∃ format later, c.formats = earlier ++ format :: later ∧ c.keyFrom format slug = .ok key
  missing : ∀ format ∈ earlier, ∀ other ∈ c.keys, c.keyFrom format slug ≠ .ok other

theorem exists_readBy (h : ∃ format ∈ c.formats, c.Fits format key) :
    ∃ slug earlier, c.ReadBy key slug earlier := by
  obtain ⟨earlier, format, later, hformats, ⟨slug, hslug, hkey⟩, hunfit⟩ := exists_first h
  exact ⟨slug, earlier, hslug, ⟨format, later, hformats, hkey⟩, hunfit⟩

theorem exists_foundBy (h : ∃ format ∈ c.formats, ∃ key ∈ c.keys, c.keyFrom format slug = .ok key) :
    ∃ key earlier, c.FoundBy slug key earlier := by
  obtain ⟨earlier, format, later, hformats, ⟨key, hheld, hkey⟩, hmissing⟩ := exists_first h
  exact ⟨key, earlier, hheld, ⟨format, later, hformats, hkey⟩,
    fun f hf other hother hmakes => hmissing f hf ⟨other, hother, hmakes⟩⟩

/-- The first key that is held comes no later than any other. -/
theorem FoundBy.length_le {later : List String} (h : c.FoundBy slug key earlier) {front : List String} {other : String}
    (hformats : c.formats = front ++ format :: later) (hheld : other ∈ c.keys) (hother : c.keyFrom format slug = .ok other) :
    earlier.length ≤ front.length := by
  obtain ⟨format', later', hfirst, -⟩ := h.first
  by_contra hlater
  exact h.missing format (mem_of_length_lt (hformats.symm.trans hfirst) (Nat.lt_of_not_le hlater)) other hheld hother

/-- The first format that a key fits comes no later than any other. -/
theorem ReadBy.length_le {later : List String} (h : c.ReadBy key slug earlier) {front : List String}
    (hformats : c.formats = front ++ format :: later) (hfits : c.Fits format key) : earlier.length ≤ front.length := by
  obtain ⟨format', later', hfirst, -⟩ := h.first
  by_contra hlater
  exact h.unfit format (mem_of_length_lt (hformats.symm.trans hfirst) (Nat.lt_of_not_le hlater)) hfits

/-- The slug of a key that is held leads to the key, or to one whose slug is read by an earlier format. -/
theorem ReadBy.found (h : c.ReadBy key slug earlier) (hheld : key ∈ c.keys) :
    ∃ found earlier', c.FoundBy slug found earlier' ∧
      (found = key ∨ ∀ slug' earlier'', c.ReadBy found slug' earlier'' → earlier''.length < earlier.length) := by
  obtain ⟨format, later, hformats, hkey⟩ := h.first
  have hmem : format ∈ c.formats := hformats ▸ by simp
  obtain ⟨found, earlier', hfound⟩ := exists_foundBy ⟨format, hmem, key, hheld, hkey⟩
  refine ⟨found, earlier', hfound, ?_⟩
  obtain ⟨format', later', hformats', hkey'⟩ := hfound.first
  -- what is found is made by an earlier format, or by the one that reads the slug
  rcases Nat.lt_or_eq_of_le (hfound.length_le hformats hheld hkey) with hlt | heq
  · exact .inr fun slug' earlier'' hread =>
      Nat.lt_of_le_of_lt (hread.length_le hformats' ⟨slug, h.nonempty, hkey'⟩) hlt
  · obtain ⟨-, hrest⟩ := List.append_inj (hformats'.symm.trans hformats) heq
    obtain rfl := (List.cons.inj hrest).1
    exact .inl (Except.ok.inj (hkey'.symm.trans hkey))

/-- A key that is found by the slug that is read of it is made by no format before the one that reads it. -/
theorem ReadBy.missing_of_found {earlier' : List String} (h : c.ReadBy key slug earlier) (hfound : c.FoundBy slug key earlier') :
    ∀ format ∈ earlier, ∀ other ∈ c.keys, c.keyFrom format slug ≠ .ok other := by
  intro format hmem other hother hmakes
  obtain ⟨front, back, rfl⟩ := List.append_of_mem hmem
  obtain ⟨reader, later, hsplit, -⟩ := h.first
  rw [List.append_assoc, List.cons_append] at hsplit
  -- otherwise the key would fit a format before the one that reads its slug
  obtain ⟨finder, later', hsplit', hmakes'⟩ := hfound.first
  have hbefore := hfound.length_le hsplit hother hmakes
  have hafter := h.length_le hsplit' ⟨slug, h.nonempty, hmakes'⟩
  rw [List.length_append, List.length_cons] at hafter
  omega

/-! ## What is read and found -/

/-- Formats that a key does not fit do not read its slug. -/
theorem slugBy_append {front : List String} (hfront : ∀ format ∈ front, c.IsKeyFormat format ∧ ¬ c.Fits format key)
    (formats : List String) : c.slugBy key.toList (front ++ formats) = c.slugBy key.toList formats := by
  induction front with
  | nil => rfl
  | cons format front ih =>
    obtain ⟨hformat, hunfit⟩ := hfront format List.mem_cons_self
    rcases slugBy_cons_cases hformat key (front ++ formats) with ⟨slug, hslug, hkey, -⟩ | ⟨-, hskip⟩
    · exact absurd ⟨slug, hslug, hkey⟩ hunfit
    · rw [List.cons_append, hskip, ih fun f hf => hfront f (List.mem_cons_of_mem _ hf)]

section

variable (hformats : ∀ format ∈ c.formats, c.IsKeyFormat format)

include hformats

theorem ReadBy.slugFor (h : c.ReadBy key slug earlier) : c.slugFor key = .ok slug := by
  obtain ⟨format, later, hsplit, hkey⟩ := h.first
  have hformat : c.IsKeyFormat format := hformats format (hsplit ▸ by simp)
  have hearlier : ∀ f ∈ earlier, c.IsKeyFormat f ∧ ¬ c.Fits f key :=
    fun f hf => ⟨hformats f (hsplit ▸ List.mem_append_left _ hf), h.unfit f hf⟩
  rw [Catalogue.slugFor, hsplit, slugBy_append hearlier]
  rcases slugBy_cons_cases hformat key later with ⟨slug', -, hkey', hread⟩ | ⟨hunfit, -⟩
  · obtain rfl := keyFrom_injective hformat hkey hkey'
    rw [hread, Except.map, String.ofList_toList]
  · exact absurd ⟨slug, h.nonempty, hkey⟩ hunfit

/-- A key that fits no format has a slug of its own. -/
theorem slugFor_of_unfit (h : ∀ format ∈ c.formats, ¬ c.Fits format key) :
    c.slugFor key = .ok (String.ofList (plainSlug key.toList)) := by
  have hskip : c.slugBy key.toList (c.formats ++ []) = c.slugBy key.toList [] :=
    slugBy_append (fun format hformat => ⟨hformats format hformat, h format hformat⟩) []
  rw [List.append_nil] at hskip
  rw [Catalogue.slugFor, hskip]
  rfl

theorem exists_slugFor (key : String) : ∃ slug, c.slugFor key = .ok slug := by
  by_cases hfits : ∃ format ∈ c.formats, c.Fits format key
  · obtain ⟨slug, earlier, hread⟩ := exists_readBy hfits
    exact ⟨slug, hread.slugFor hformats⟩
  · exact ⟨_, slugFor_of_unfit hformats fun format hformat hfit => hfits ⟨format, hformat, hfit⟩⟩

/-- Formats make keys of every slug. -/
theorem exists_mapM_keyFrom (slug : String) {formats : List String} (h : ∀ format ∈ formats, format ∈ c.formats) :
    ∃ made, formats.mapM (c.keyFrom · slug) = .ok made ∧
      ∀ key ∈ made, ∃ format ∈ formats, c.keyFrom format slug = .ok key := by
  have hmakes : ∀ format ∈ formats, ∃ key, format ∈ formats ∧ c.keyFrom format slug = .ok key := by
    intro format hmem
    obtain ⟨before, after, hputs, -⟩ := hformats format (h format hmem)
    exact ⟨_, hmem, hputs.keyFrom slug⟩
  obtain ⟨made, hmade⟩ := exists_forall₂ hmakes
  exact ⟨made, mapM_eq_ok_iff.2 (hmade.imp fun _ _ h => h.2), forall_mem_right hmade fun format _ _ h => ⟨format, h⟩⟩

theorem FoundBy.keyFor (h : c.FoundBy slug key earlier) : c.keyFor slug = .ok (some key) := by
  obtain ⟨format, later, hsplit, hkey⟩ := h.first
  have hearlier : ∀ f ∈ earlier, f ∈ c.formats := fun f hf => hsplit ▸ List.mem_append_left _ hf
  have hlater : ∀ f ∈ later, f ∈ c.formats :=
    fun f hf => hsplit ▸ List.mem_append_right _ (List.mem_cons_of_mem _ hf)
  obtain ⟨made, hmade, hfrom⟩ := exists_mapM_keyFrom hformats slug hearlier
  obtain ⟨made', hmade', -⟩ := exists_mapM_keyFrom hformats slug hlater
  have hcandidates : c.candidates slug = .ok (made ++ key :: made') := by
    rw [candidates, hsplit, List.mapM_append, List.mapM_cons, hmade, hkey, hmade']
    rfl
  have hfind : (made ++ key :: made').find? c.keys.contains = some key := by
    refine List.find?_eq_some_iff_append.2 ⟨List.contains_iff_mem.2 h.held, made, made', rfl, fun other hother => ?_⟩
    obtain ⟨f, hf, hmakes⟩ := hfrom other hother
    have hmissing : other ∉ c.keys := fun hheld => h.missing f hf other hheld hmakes
    simpa using hmissing
  rw [Catalogue.keyFor, hcandidates]
  exact congrArg Except.ok hfind

end

/-! ## There and back -/

/-- The slug of a key leads to a key. -/
def Leads (c : Catalogue) (key found : String) : Prop :=
  ∃ slug, c.slugFor key = .ok slug ∧ c.keyFor slug = .ok (some found)

theorem Leads.unique {found found' : String} (h : c.Leads key found) (h' : c.Leads key found') : found = found' := by
  obtain ⟨slug, hslug, hfound⟩ := h
  obtain ⟨slug', hslug', hfound'⟩ := h'
  obtain rfl := Except.ok.inj (hslug.symm.trans hslug')
  exact Option.some.inj (Except.ok.inj (hfound.symm.trans hfound'))

/-- All keys fit formats. -/
def Covers (c : Catalogue) : Prop :=
  ∀ key ∈ c.keys, ∃ format ∈ c.formats, c.Fits format key

/-- No slug that is read of a key makes another key with an earlier format. -/
def Unshadowed (c : Catalogue) : Prop :=
  ∀ key ∈ c.keys, ∀ slug earlier, c.ReadBy key slug earlier →
    ∀ format ∈ earlier, ∀ other ∈ c.keys, c.keyFrom format slug ≠ .ok other

section

variable (hformats : ∀ format ∈ c.formats, c.IsKeyFormat format)

include hformats

/-- The slug of a key that fits a format leads to a key that is held. -/
theorem exists_leads (hheld : key ∈ c.keys) (hfits : ∃ format ∈ c.formats, c.Fits format key) :
    ∃ found ∈ c.keys, c.Leads key found := by
  obtain ⟨slug, earlier, hread⟩ := exists_readBy hfits
  obtain ⟨found, earlier', hfound, -⟩ := hread.found hheld
  exact ⟨found, hfound.held, slug, hread.slugFor hformats, hfound.keyFor hformats⟩

theorem Unshadowed.leads (h : c.Unshadowed) (hheld : key ∈ c.keys) (hfits : ∃ format ∈ c.formats, c.Fits format key) :
    c.Leads key key := by
  obtain ⟨slug, earlier, hread⟩ := exists_readBy hfits
  have hfound : c.FoundBy slug key earlier := ⟨hheld, hread.first, h key hheld slug earlier hread⟩
  exact ⟨slug, hread.slugFor hformats, hfound.keyFor hformats⟩

/-- If all keys lead to themselves, none is in the way of another. -/
theorem unshadowed_of_leads (h : ∀ key ∈ c.keys, c.Leads key key) : c.Unshadowed := by
  intro key hheld slug earlier hread format hmem other hother hmakes
  obtain ⟨reader, later, hsplit, -⟩ := hread.first
  obtain ⟨found, earlier', hfound⟩ :=
    exists_foundBy ⟨format, hsplit ▸ List.mem_append_left _ hmem, other, hother, hmakes⟩
  obtain rfl : found = key :=
    Leads.unique ⟨slug, hread.slugFor hformats, hfound.keyFor hformats⟩ (h key hheld)
  exact hread.missing_of_found hfound format hmem other hother hmakes

/-- If no two keys lead to one, all lead to themselves: a key that does not leads to one that is read by an earlier
    format. -/
theorem eq_of_leads (hcovers : c.Covers) {found : List String} (hleads : List.Forall₂ c.Leads c.keys found)
    (hnodup : found.Nodup) : found = c.keys := by
  have hread : ∀ key, key ∈ c.keys → ∃ rank slug earlier, c.ReadBy key slug earlier ∧ earlier.length = rank := by
    intro key hheld
    obtain ⟨slug, earlier, h⟩ := exists_readBy (hcovers key hheld)
    exact ⟨_, slug, earlier, h, rfl⟩
  -- the rank of a key is the number of formats that it does not fit first
  choose! rank hrank using hread
  have hstep : ∀ key ∈ c.keys, ∀ other, c.Leads key other → other ∈ c.keys ∧ (other = key ∨ rank other < rank key) := by
    intro key hheld other hother
    obtain ⟨slug, earlier, hreadBy, hlength⟩ := hrank key hheld
    obtain ⟨found, earlier', hfound, hcases⟩ := hreadBy.found hheld
    obtain rfl : found = other := Leads.unique ⟨slug, hreadBy.slugFor hformats, hfound.keyFor hformats⟩ hother
    refine ⟨hfound.held, hcases.imp_right fun hless => ?_⟩
    obtain ⟨slug', earlier'', hreadBy', hlength'⟩ := hrank found hfound.held
    rw [← hlength, ← hlength']
    exact hless slug' earlier'' hreadBy'
  have hsteps : List.Forall₂ (fun key other => other ∈ c.keys ∧ (other = key ∨ rank other < rank key)) c.keys found :=
    ((List.forall₂_and_left _ _).2 ⟨fun _ => id, hleads⟩).imp fun key other h => hstep key h.1 other h.2
  have hsubset : ∀ other ∈ found, other ∈ c.keys := forall_mem_right hsteps fun _ _ _ h => h.1
  refine eq_of_descends (hsteps.imp fun _ _ h => h.2) ?_
  exact (List.subperm_of_subset hnodup hsubset).perm_of_length_le (Nat.le_of_eq hleads.length_eq)

theorem Unshadowed.eq (h : c.Unshadowed) (hcovers : c.Covers) {found : List String}
    (hleads : List.Forall₂ c.Leads c.keys found) : found = c.keys := by
  have hown : ∀ key ∈ c.keys, c.Leads key key := fun key hheld => h.leads hformats hheld (hcovers key hheld)
  have heq : List.Forall₂ Eq c.keys found :=
    ((List.forall₂_and_left _ _).2 ⟨hown, hleads⟩).imp fun _ _ h => h.1.unique h.2
  rw [List.forall₂_eq_eq_eq] at heq
  exact heq.symm

/-- The keys to which the slugs of a catalogue lead are different exactly if none is in the way of another. -/
theorem nodup_iff_unshadowed (hcovers : c.Covers) (hkeys : c.keys.Nodup) {found : List String}
    (hleads : List.Forall₂ c.Leads c.keys found) : found.Nodup ↔ c.Unshadowed := by
  constructor
  · intro hnodup
    obtain rfl := eq_of_leads hformats hcovers hleads hnodup
    exact unshadowed_of_leads hformats (List.forall₂_same.1 hleads)
  · intro hclear
    exact hclear.eq hformats hcovers hleads ▸ hkeys

end

/-! ## Catalogues of the same keys -/

section

variable {keyStart slug key found : String} {formats keys keys' : List String}

theorem keyFor_congr (h : ∀ k, k ∈ keys' ↔ k ∈ keys) (slug : String) :
    (make keyStart formats keys').keyFor slug = (make keyStart formats keys).keyFor slug := by
  have hcontains : keys'.contains = keys.contains := funext fun k => by
    rw [Bool.eq_iff_iff, List.contains_iff_mem, List.contains_iff_mem, h]
  show (make keyStart formats keys).candidates slug >>= (fun candidates => pure (candidates.find? keys'.contains)) = _
  rw [hcontains]
  rfl

theorem slugBy_congr (keyStart : String) (formats keys keys' : List String) (cs : List Char) (left : List String) :
    (make keyStart formats keys').slugBy cs left = (make keyStart formats keys).slugBy cs left := by
  induction left with
  | nil => rfl
  | cons format left ih =>
    rw [slugBy, slugBy, ih]
    rfl

theorem leads_congr (h : ∀ k, k ∈ keys' ↔ k ∈ keys) :
    (make keyStart formats keys').Leads key found ↔ (make keyStart formats keys).Leads key found :=
  exists_congr fun slug => by
    have hslug : (make keyStart formats keys').slugFor key = (make keyStart formats keys).slugFor key :=
      congrArg (Except.map String.ofList) (slugBy_congr keyStart formats keys keys' key.toList formats)
    rw [keyFor_congr h, hslug]

end

/-! ## The default formats -/

/-- A format that a key does not fit is passed over. -/
theorem slugBy_cons_of_none {format filled : String} {before after key : List Char}
    (hformat : c.keyFrom format (String.ofList [mark]) = .ok filled) (haround : around filled.toList = (before, after))
    (hbetween : between? before after key = none) (rest : List String) : c.slugBy key (format :: rest) = c.slugBy key rest := by
  rw [slugBy, hformat]
  simp only [bind, Except.bind, haround, hbetween]

theorem mark_mem_dropWhile {cs : List Char} (h : mark ∈ cs) : mark ∈ cs.dropWhile fun c => c == '/' := by
  obtain ⟨front, back, rfl, -⟩ := List.eq_append_cons_of_mem h
  rw [List.dropWhile_append]
  split
  · rw [List.dropWhile_cons_of_neg (by decide)]
    exact List.mem_cons_self
  · exact List.mem_append_right _ List.mem_cons_self

theorem mark_mem_keyStart {keyStart : String} (h : '\x00' ∈ keyStart.toList) (formats keys : List String) :
    mark ∈ (make keyStart formats keys).keyStart.toList := by
  simpa [make] using mark_mem_dropWhile (List.mem_reverse.2 h)

/-- A key whose start has the mark of slugs does not fit the first format, since the mark is taken for the place of the
    slug. -/
theorem between?_marked {front back cs : List Char} (hne : cs ≠ []) (hcs : mark ∉ cs) :
    between? front (back ++ '/' :: mark :: ".md".toList) (front ++ mark :: back ++ '/' :: (cs ++ ".md".toList)) = none := by
  refine Option.eq_none_iff_forall_ne_some.2 fun slug hslug => hcs ?_
  obtain ⟨-, hkey⟩ := between?_eq_some_iff.1 hslug
  obtain ⟨init, last, rfl⟩ := (List.eq_nil_or_concat' cs).resolve_left hne
  have hends : (front ++ mark :: back ++ '/' :: init ++ [last]) ++ ".md".toList
      = (front ++ (slug ++ (back ++ ['/'])) ++ [mark]) ++ ".md".toList := by
    simpa using hkey
  have hlast := List.append_inj' (List.append_inj' hends rfl).1 rfl
  rw [List.singleton_inj.1 hlast.2]
  simp

theorem plainSlug_marked {start : List Char} (hstart : mark ∈ start) (cs : List Char) :
    plainSlug (start ++ '/' :: (cs ++ ".md".toList)) = start.dropWhile (fun c => c == '/') ++ '/' :: cs := by
  have hkept : (start ++ '/' :: (cs ++ ".md".toList)).dropWhile (fun c => c == '/')
      = start.dropWhile (fun c => c == '/') ++ '/' :: cs ++ ".md".toList := by
    rw [List.dropWhile_append, if_neg]
    · simp
    · rw [List.isEmpty_iff]
      exact List.ne_nil_of_mem (mark_mem_dropWhile hstart)
  have hending : (start.dropWhile (fun c => c == '/') ++ '/' :: cs ++ ".md".toList).reverse
      = ['d', 'm', '.'] ++ (start.dropWhile (fun c => c == '/') ++ '/' :: cs).reverse := by
    rw [List.reverse_append]
    rfl
  rw [plainSlug, hkept, hending, Text.dropPrefix?_append]
  exact List.reverse_reverse _

/-- The first format makes nothing of a key whose start has the mark of slugs. -/
theorem slugBy_first_marked {cs : List Char} (hstart : mark ∈ c.keyStart.toList) (hne : cs ≠ []) (hcs : mark ∉ cs)
    (rest : List String) :
    c.slugBy (c.keyStart.toList ++ '/' :: (cs ++ ".md".toList)) ("\x7balias\x7d/\x7bslug\x7d.md" :: rest)
      = c.slugBy (c.keyStart.toList ++ '/' :: (cs ++ ".md".toList)) rest := by
  obtain ⟨front, back, hsplit, hfront⟩ := List.eq_append_cons_of_mem hstart
  have hfilled : (c.keyStart ++ "/" ++ String.ofList [mark] ++ ".md").toList
      = front ++ mark :: (back ++ '/' :: mark :: ".md".toList) := by
    simp [hsplit]
  have haround : around (c.keyStart ++ "/" ++ String.ofList [mark] ++ ".md").toList
      = (front, back ++ '/' :: mark :: ".md".toList) := by
    rw [hfilled]
    exact around_mark hfront _
  refine slugBy_cons_of_none (keyFrom_first _ _) haround ?_ _
  rw [hsplit]
  exact between?_marked hne hcs

/-- The second format fits if the keys start as it does, and else the key is taken as it is. Either way the slug is what
    comes last, after a text that does not depend on it. -/
theorem exists_slugBy_second {start : List Char} (hstart : mark ∈ start) : ∃ lead : List Char, ∀ (c : Catalogue)
    (cs : List Char), c.slugBy (start ++ '/' :: (cs ++ ".md".toList)) ["/content/\x7bslug\x7d.md"] = .ok (lead ++ cs) := by
  have hfilled : ("/content/" ++ String.ofList [mark] ++ ".md").toList = "/content/".toList ++ mark :: ".md".toList := by simp
  have haround : around ("/content/" ++ String.ofList [mark] ++ ".md").toList = ("/content/".toList, ".md".toList) := by
    rw [hfilled]
    exact around_mark (by decide) _
  by_cases hcontent : "/content/".toList <+: start
  · obtain ⟨rest, rfl⟩ := hcontent
    refine ⟨rest ++ ['/'], fun c cs => ?_⟩
    have hbetween : between? "/content/".toList ".md".toList ("/content/".toList ++ rest ++ '/' :: (cs ++ ".md".toList))
        = some (rest ++ '/' :: cs) := between?_eq_some_iff.2 ⟨by simp, by simp⟩
    rw [slugBy_cons (keyFrom_second _ _) haround hbetween, List.append_assoc, List.singleton_append]
  · refine ⟨start.dropWhile (fun c => c == '/') ++ ['/'], fun c cs => ?_⟩
    have hbetween : between? "/content/".toList ".md".toList (start ++ '/' :: (cs ++ ".md".toList)) = none := by
      refine Option.eq_none_iff_forall_ne_some.2 fun between hsome => hcontent ?_
      obtain ⟨-, hsame⟩ := between?_eq_some_iff.1 hsome
      refine (List.prefix_or_prefix_of_prefix ⟨_, hsame.symm⟩ ⟨_, rfl⟩).resolve_right fun hshort => ?_
      exact absurd (hshort.subset hstart) (by decide)
    rw [slugBy_cons_of_none (keyFrom_second _ _) haround hbetween, slugBy, plainSlug_marked hstart, List.append_assoc,
      List.singleton_append]

/-- Whatever keys start with, the slug that is read from the key of a page is the slug of the page after a text that is
    the same for all pages. The text is empty if the slug's place can be marked. -/
theorem exists_slugFor_default (keyStart : String) : ∃ lead : String, ('\x00' ∉ keyStart.toList → lead = "") ∧
    ∀ (keys : List String) (slug : String), slug ≠ "" → '\x00' ∉ slug.toList →
      (make keyStart defaultKeyFormats keys).slugFor (Folio.keyFor keyStart slug) = .ok (lead ++ slug) := by
  by_cases hmark : '\x00' ∈ keyStart.toList
  · have hstart : mark ∈ (make keyStart defaultKeyFormats []).keyStart.toList := mark_mem_keyStart hmark _ _
    obtain ⟨lead, hlead⟩ := exists_slugBy_second hstart
    refine ⟨String.ofList lead, fun h => absurd hmark h, fun keys slug hne hslug => ?_⟩
    have hkey : (Folio.keyFor keyStart slug).toList
        = (make keyStart defaultKeyFormats keys).keyStart.toList ++ '/' :: (slug.toList ++ ".md".toList) := by
      rw [keyFor_eq keyStart slug defaultKeyFormats keys]
      simp
    have hslugBy : (make keyStart defaultKeyFormats keys).slugBy ((make keyStart defaultKeyFormats keys).keyStart.toList
        ++ '/' :: (slug.toList ++ ".md".toList)) defaultKeyFormats = .ok (lead ++ slug.toList) :=
      (slugBy_first_marked (mark_mem_keyStart hmark _ _) (Path.toList_ne_nil hne) hslug _).trans (hlead _ _)
    have hformats : (make keyStart defaultKeyFormats keys).formats = defaultKeyFormats := rfl
    rw [slugFor, hformats, hkey, hslugBy]
    refine congrArg Except.ok (String.toList_inj.1 ?_)
    simp
  · refine ⟨"", fun _ => rfl, fun keys slug hne _ => ?_⟩
    rw [String.empty_append]
    exact slugFor_default hmark hne keys

end Catalogue

end Folio
