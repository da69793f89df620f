import Folio.Proofs.Catalogue.Inversion

set_option autoImplicit false

/-! # Keys that are made again of their slugs

A format whose text beside the slug's place has braces only in fields for what keys start with is a format of keys
(`isKeyFormat_of_affixes`). The first format that a key fits makes the key again of the slug that it reads, and the slug leads
to a key that is held; it is another one exactly if an earlier format makes it of the slug (`ReadBy.found_eq_iff`). -/

namespace Folio.Catalogue

variable {c : Catalogue} {key slug : String} {earlier : List String}

/-! ## Texts beside the slug's place -/

/-- A piece beside the slug's place: a character other than a brace, or the field for what keys start with. -/
inductive IsAffixPiece : Template.Piece → Prop
  | char {c : Char} (opens : c ≠ '\x7b') (closes : c ≠ '\x7d') : IsAffixPiece (.char c)
  | keyStart : IsAffixPiece (.field ⟨"alias".toList, none, []⟩)

/-- A text beside the slug's place: braces stand only in fields for what keys start with. -/
def IsAffix (text : String) : Prop :=
  ∃ pieces : List Template.Piece, text.toList = pieces.flatMap Template.Piece.spell ∧ ∀ p ∈ pieces, IsAffixPiece p

/-- What a piece beside the slug's place gives. -/
def affixText (keyStart : String) : Template.Piece → List Char
  | .char c => [c]
  | .field _ => keyStart.toList

theorem IsAffixPiece.gives {p : Template.Piece} (h : IsAffixPiece p) (keyStart : String) :
    p.Gives [("alias", keyStart)] (affixText keyStart p) := by
  cases h with
  | char opens closes => exact .char opens closes
  | keyStart => exact .field isPlain_alias rfl

/-- A text beside the slug's place is filled in, and its characters are its own or those of what keys start with. -/
theorem IsAffix.exists_fill {text : String} (h : IsAffix text) (keyStart : String) :
    ∃ filled, Template.fill text [("alias", keyStart)] = .ok filled ∧
      ∀ d ∈ filled.toList, d ∈ text.toList ∨ d ∈ keyStart.toList := by
  obtain ⟨pieces, htext, hpieces⟩ := h
  have hgives : ∀ p ∈ pieces.map fun p => (p, affixText keyStart p), p.1.Gives [("alias", keyStart)] p.2 := by
    intro p hp
    obtain ⟨q, hq, rfl⟩ := List.mem_map.1 hp
    exact (hpieces q hq).gives keyStart
  refine ⟨_, Template.fill_pieces hgives (by rw [List.flatMap_map]; exact htext), fun d hd => ?_⟩
  rw [String.toList_ofList, List.flatMap_map, List.mem_flatMap] at hd
  obtain ⟨p, hp, hd⟩ := hd
  cases hpieces p hp with
  | char =>
    rw [htext, List.mem_flatMap]
    exact .inl ⟨_, hp, hd⟩
  | keyStart => exact .inr hd

/-- A slug between two such texts makes a format of keys, if nothing in front of it looks like its mark. -/
theorem isKeyFormat_of_affixes {front back : String} (hfront : IsAffix front) (hback : IsAffix back)
    (hmark : mark ∉ front.toList) (hstart : mark ∉ c.keyStart.toList) :
    c.IsKeyFormat (front ++ "\x7bslug\x7d" ++ back) := by
  obtain ⟨before, hbefore, hchars⟩ := hfront.exists_fill c.keyStart
  obtain ⟨after, hafter, -⟩ := hback.exists_fill c.keyStart
  refine ⟨before, after, ⟨front, back, rfl, hbefore, hafter⟩, fun hmem => ?_⟩
  rcases hchars mark hmem with h | h
  · exact hmark h
  · exact hstart h

/-! ## Slashes at the end of what keys start with -/

/-- Some slashes. -/
def slashes (n : Nat) : String :=
  String.ofList (List.replicate n '/')

theorem make_slashes (keyStart : String) (n : Nat) (formats keys : List String) :
    make (keyStart ++ slashes n) formats keys = make keyStart formats keys := by
  have hdrop : (keyStart ++ slashes n).toList.reverse.dropWhile (· == '/')
      = keyStart.toList.reverse.dropWhile (· == '/') := by
    rw [String.toList_append, slashes, String.toList_ofList, List.reverse_append, List.reverse_replicate]
    exact List.dropWhile_append_of_pos fun d hd => by simpa using List.eq_of_mem_replicate hd
  rw [make, make, hdrop]

theorem keyFor_slashes (keyStart slug : String) (n : Nat) :
    Folio.keyFor (keyStart ++ slashes n) slug = Folio.keyFor keyStart slug := by
  rw [keyFor_eq _ _ [] [], keyFor_eq _ _ [] [], make_slashes]

/-! ## There and back again -/

/-- The slug that is read of a key leads to the key exactly if no earlier format makes another key of it that is held. -/
theorem ReadBy.found_eq_iff {found : String} {earlier' : List String} (h : c.ReadBy key slug earlier)
    (hheld : key ∈ c.keys) (hfound : c.FoundBy slug found earlier')
    (hformats : ∀ format ∈ c.formats, c.IsKeyFormat format) :
    found = key ↔ ¬ ∃ format ∈ earlier, ∃ other ∈ c.keys, other ≠ key ∧ c.keyFrom format slug = .ok other := by
  constructor
  · rintro rfl ⟨format, hformat, other, hother, -, hmakes⟩
    exact h.missing_of_found hfound format hformat other hother hmakes
  · intro hclear
    -- an earlier format does not make the key itself either, as the key does not fit it
    have hown : c.FoundBy slug key earlier := by
      refine ⟨hheld, h.first, fun format hformat other hother hmakes => ?_⟩
      by_cases heq : other = key
      · exact h.unfit format hformat ⟨slug, h.nonempty, heq ▸ hmakes⟩
      · exact hclear ⟨format, hformat, other, hother, heq, hmakes⟩
    exact Option.some.inj (Except.ok.inj ((hfound.keyFor hformats).symm.trans (hown.keyFor hformats)))

/-- Slugs are read of keys as formats put them there.

    * Every format with braces only in fields for what keys start with, besides one for the slug, is a format of keys, unless
      the mark of the slug's place stands in it or in what keys start with.
    * A key that fits a format is made again, by the first format that it fits, of the slug that is read of it. The slug leads
      to a key that is held, and that is the key itself exactly if no earlier format makes another one of the slug.
    * With the default formats the slug of a build's key is the one for which it was made, and the slug leads back to the key
      if it is held, whatever slashes what keys start with ends in. -/
theorem keys_are_made_again (c : Catalogue) (hformats : ∀ format ∈ c.formats, c.IsKeyFormat format) :
    (∀ front back, IsAffix front → IsAffix back → mark ∉ front.toList → mark ∉ c.keyStart.toList →
      c.IsKeyFormat (front ++ "\x7bslug\x7d" ++ back)) ∧
    (∀ key ∈ c.keys, (∃ format ∈ c.formats, c.Fits format key) →
      ∃ earlier format later slug, c.formats = earlier ++ format :: later ∧ (∀ f ∈ earlier, ¬ c.Fits f key) ∧
        slug ≠ "" ∧ c.slugFor key = .ok slug ∧ c.keyFrom format slug = .ok key ∧
        ∃ found ∈ c.keys, c.keyFor slug = .ok (some found) ∧
          (found = key ↔ ¬ ∃ f ∈ earlier, ∃ other ∈ c.keys, other ≠ key ∧ c.keyFrom f slug = .ok other)) ∧
    ∀ keyStart slug keys n m, mark ∉ keyStart.toList → slug ≠ "" →
      let c := make (keyStart ++ slashes n) defaultKeyFormats keys
      let key := Folio.keyFor (keyStart ++ slashes m) slug
      c.slugFor key = .ok slug ∧ (key ∈ keys → c.keyFor slug = .ok (some key)) := by
  refine ⟨fun front back hfront hback => isKeyFormat_of_affixes hfront hback, fun key hheld hfits => ?_, ?_⟩
  · obtain ⟨slug, earlier, hread⟩ := exists_readBy hfits
    obtain ⟨format, later, hsplit, hkey⟩ := hread.first
    obtain ⟨found, earlier', hfound, -⟩ := hread.found hheld
    exact ⟨earlier, format, later, slug, hsplit, hread.unfit, hread.nonempty, hread.slugFor hformats, hkey, found,
      hfound.held, hfound.keyFor hformats, hread.found_eq_iff hheld hfound hformats⟩
  · intro keyStart slug keys n m hmark hslug c key
    have hc : c = make keyStart defaultKeyFormats keys := make_slashes keyStart n _ keys
    have hkey : key = Folio.keyFor keyStart slug := keyFor_slashes keyStart slug m
    rw [hc, hkey]
    exact ⟨slugFor_default hmark hslug keys, keyFor_default⟩

/-- A catalogue with formats that overlap: the slug of the second key makes the third one with the first format. -/
def crossedCatalogue : Catalogue :=
  .make "@content/" ["a\x7bslug\x7d", "\x7bslug\x7db", "\x7balias\x7d/\x7bslug\x7d"] ["axb", "xb", "ax", "@content/s"]

theorem isKeyFormat_crossed {format : String} (h : format ∈ crossedCatalogue.formats) :
    crossedCatalogue.IsKeyFormat format := by
  simp only [crossedCatalogue, make, List.mem_cons, List.not_mem_nil, or_false] at h
  rcases h with rfl | rfl | rfl
  · exact ⟨"a", "", ⟨"a", "", rfl, rfl, rfl⟩, by decide⟩
  · exact ⟨"", "b", ⟨"", "b", rfl, rfl, rfl⟩, by decide⟩
  · exact ⟨"@content/", "", ⟨"\x7balias\x7d/", "", rfl, rfl, rfl⟩, by decide⟩

/-- The first key comes back, though it fits two formats; the second one does not, as the third is in its way. -/
theorem crossedCatalogue_is_made_again :
    (∀ format ∈ crossedCatalogue.formats, crossedCatalogue.IsKeyFormat format) ∧
    (∃ slug, crossedCatalogue.slugFor "axb" = .ok slug ∧ crossedCatalogue.keyFor slug = .ok (some "axb")) ∧
    ∃ slug found, crossedCatalogue.slugFor "xb" = .ok slug ∧ crossedCatalogue.keyFor slug = .ok (some found) ∧
      found ∈ crossedCatalogue.keys ∧ found ≠ "xb" := by
  have hformats := fun format (h : format ∈ crossedCatalogue.formats) => isKeyFormat_crossed h
  obtain ⟨-, hagain, -⟩ := keys_are_made_again crossedCatalogue hformats
  refine ⟨hformats, ?_, ?_⟩
  · obtain ⟨_, _, _, slug, -, -, -, hslug, -, found, -, hfound, -⟩ :=
      hagain "axb" (by decide) ⟨_, List.mem_cons_self, "xb", by decide, rfl⟩
    obtain rfl : slug = "xb" := Except.ok.inj (hslug.symm.trans rfl)
    obtain rfl : found = "axb" := Option.some.inj (Except.ok.inj (hfound.symm.trans rfl))
    exact ⟨_, hslug, hfound⟩
  · obtain ⟨_, _, _, slug, -, -, -, hslug, -, found, hheld, hfound, -⟩ :=
      hagain "xb" (by decide) ⟨_, List.mem_cons_of_mem _ List.mem_cons_self, "x", by decide, rfl⟩
    obtain rfl : slug = "x" := Except.ok.inj (hslug.symm.trans rfl)
    obtain rfl : found = "ax" := Option.some.inj (Except.ok.inj (hfound.symm.trans rfl))
    exact ⟨_, _, hslug, hfound, hheld, by decide⟩

end Folio.Catalogue
