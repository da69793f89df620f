import Folio.Proofs.Catalogue.Inversion
import Folio.Proofs.Provider.CollectionOrder

set_option autoImplicit false

/-! # Catalogues as lists of documents

The slugs of a catalogue are offered when a page is not found, and asked for when someone asks for all pages. The theorem
of this module says when they are good for both: every key fits a format, and no key is in the way of another. -/

namespace Folio

namespace Catalogue

variable {c : Catalogue}

/-- A catalogue has a slug for each of its keys. -/
theorem exists_slugs (hformats : ∀ format ∈ c.formats, c.IsKeyFormat format) :
    ∃ slugs, c.slugs = .ok slugs ∧ List.Forall₂ (fun key slug => c.slugFor key = .ok slug) c.keys slugs := by
  obtain ⟨slugs, hslugs⟩ := exists_forall₂ fun key (_ : key ∈ c.keys) => exists_slugFor hformats key
  exact ⟨slugs, mapM_eq_ok_iff.2 hslugs, hslugs⟩

/-- The slugs of a catalogue whose keys fit formats lead to documents, under keys that are held. -/
theorem exists_documents (hformats : ∀ format ∈ c.formats, c.IsKeyFormat format) (hcovers : c.Covers)
    {slugs : List String} (hslugs : List.Forall₂ (fun key slug => c.slugFor key = .ok slug) c.keys slugs) :
    ∃ documents, List.Forall₂ (fun slug key => key ∈ c.keys ∧ c.keyFor slug = .ok (some key)) slugs documents ∧
      List.Forall₂ c.Leads c.keys documents := by
  obtain ⟨documents, hdocuments⟩ := exists_forall₂ fun key (hheld : key ∈ c.keys) =>
    exists_leads hformats hheld (hcovers key hheld)
  refine ⟨documents, forall₂_of_both hslugs hdocuments ?_, hdocuments.imp fun _ _ h => h.2⟩
  rintro key slug found hslug ⟨hheld, slug', hslug', hfound⟩
  obtain rfl := Except.ok.inj (hslug.symm.trans hslug')
  exact ⟨hheld, hfound⟩

end Catalogue

namespace Provider

variable {ε : Type}

open Catalogue (exists_leads exists_slugs exists_documents nodup_iff_unshadowed)

/-- What is offered when a page is not found are the slugs of the catalogue. -/
theorem available_of_notFound {p : Provider ε} {slug : String} {cause : NotFound}
    (h : p.resolve slug = .error (.notFound cause)) :
    ∃ slugs, p.catalogue.slugs = .ok slugs ∧ ∀ offered ∈ cause.available, offered ∈ slugs := by
  unfold resolve at h
  cases hkey : p.catalogue.keyFor slug with
  | error e => simp [hkey, Except.mapError, bind, Except.bind] at h
  | ok found =>
    cases found with
    | some key => simp [hkey, Except.mapError, bind, Except.bind, pure, Except.pure] at h
    | none =>
      cases hslugs : p.catalogue.slugs with
      | error e =>
        simp [hkey, hslugs, Except.mapError, bind, Except.bind] at h
      | ok slugs =>
        obtain rfl : NotFound.make slug slugs = cause := by
          simpa [hkey, hslugs, Except.mapError, bind, Except.bind, throw, throwThe, MonadExceptOf.throw] using h
        exact ⟨slugs, rfl, fun offered hmem => (List.mergeSort_perm slugs _).mem_iff.1 hmem⟩

/-! ## What loads bring -/

/-- A document is what the loader for its key has answered to a load that has called it. -/
def IsDocument (h : List (Occurrence ε)) (key : String) (a : Artifact) : Prop :=
  ∃ load slug, .called load slug key ∈ h ∧ .answered load (.ok a) ∈ h

/-- A loader has failed. -/
def LoaderFails (h : List (Occurrence ε)) (error : ε) : Prop :=
  ∃ load, .answered load (.error error) ∈ h

section

variable {c : Catalogue} {events : List (Event ε)}

/-- A load of a slug that has a key ends as the loader for the key has answered. -/
theorem outcome_of_keyFor {loadId : Nat} {slug key : String} {outcome : Outcome ε Artifact}
    (hkey : c.keyFor slug = .ok (some key))
    (h : OutcomeOf ((initial c : Provider ε).run events) loadId slug outcome) :
    (∃ a, outcome = .done a ∧ IsDocument ((initial c).history events) key a) ∨
      ∃ error, outcome = .failed (.loader error) ∧ LoaderFails ((initial c).history events) error := by
  obtain ⟨l, result, hl, rfl, hs, rfl⟩ := h
  have hresolve : (initial c : Provider ε).resolve l.slug = .ok key := resolve_of_keyFor hkey
  have hex := explained_run (initial c) events (Nat.zero_le _) hl
  rw [hs] at hex
  cases hex with
  | @finished key' answer known calls answered =>
    obtain rfl : key = key' := Except.ok.inj (hresolve.symm.trans known)
    cases answer with
    | ok a =>
      have hcalled : .called loadId l.slug key ∈ callsBy loadId ((initial c).history events) := calls ▸ by simp
      exact .inl ⟨a, rfl, loadId, l.slug, List.mem_of_mem_filter hcalled, answered⟩
    | error e => exact .inr ⟨e, rfl, loadId, answered⟩
  | unresolved unknown => cases hresolve.symm.trans unknown

/-- A collection over slugs that lead to documents ends with all of them, or because a loader has failed. -/
theorem collection_of_documents {k : Nat} {filters : Option ContentFilters} {h : List (Occurrence ε)}
    {rs : List (Nat × Outcome ε Artifact)} {outcome : CollectOutcome ε} {slugs documents : List String}
    (hslugs : c.slugs = .ok slugs)
    (hdocuments : List.Forall₂ (fun slug key => c.keyFor slug = .ok (some key)) slugs documents)
    (hend : CollectionEnd c filters ((initial c).run events) h k rs outcome) :
    (∃ error, outcome = .failed (.loader error) ∧ LoaderFails ((initial c).history events) error) ∨
      ∃ artifacts, List.Forall₂ (IsDocument ((initial c).history events)) documents artifacts ∧
        Selects filters artifacts outcome := by
  cases hend with
  | refused unknown => cases hslugs.symm.trans unknown
  | @failed slugs' slug error known first own obtained =>
    obtain rfl := Except.ok.inj (hslugs.symm.trans known)
    obtain ⟨-, -, loadId, -, -, -, -, houtcome, -⟩ := obtained
    have hkeyed : ∀ slug ∈ slugs, ∃ key, c.keyFor slug = .ok (some key) :=
      forall_mem_right hdocuments.flip fun key _ _ h => ⟨key, h⟩
    obtain ⟨key, hkey⟩ := hkeyed slug own
    rcases outcome_of_keyFor hkey houtcome with ⟨a, hdone, -⟩ | ⟨error', hfailed, hfails⟩
    · cases hdone
    · obtain rfl := Outcome.failed.inj hfailed
      exact .inl ⟨error', rfl, hfails⟩
  | @returned slugs' artifacts _ known good obtained selects =>
    obtain rfl := Except.ok.inj (hslugs.symm.trans known)
    refine .inr ⟨artifacts, forall₂_of_both hdocuments obtained ?_, selects⟩
    rintro slug key a hkey ⟨-, -, loadId, -, -, -, -, houtcome, -⟩
    rcases outcome_of_keyFor hkey houtcome with ⟨a', hdone, hbrings⟩ | ⟨error, hfailed, -⟩
    · obtain rfl := Outcome.done.inj hdone
      exact hbrings
    · cases hfailed

end

/-- A collection that nobody disturbs ends as its callers have reported. -/
theorem collectionEnd_run (c : Catalogue) (filters : Option ContentFilters) (before after : List (Event ε)) :
    let p := (initial c : Provider ε).run before
    let k := p.collections.length
    let asked := p.step (.requestAll filters)
    let q := asked.run after
    Undisturbed k asked after → ∀ col outcome, q.collections[k]? = some col → col.stage = .finished outcome →
      CollectionEnd c filters q (asked.history after) k (asked.reports k after) outcome := by
  intro p k asked q hquiet col outcome hcol hs
  have hasked : Followed asked k filters [] :=
    followed_asked (sound_run_initial c before) (enrolled_run (enrolled_initial c) before) (placed_run c before) filters
  have hq : Followed q k filters (asked.reports k after) := followed_run after hasked hquiet
  have hcat : q.catalogue = c :=
    (catalogue_run asked after).trans ((catalogue_step p _).trans (catalogue_run _ before))
  obtain ⟨col', hcol', -, -, hstands⟩ := hq.stands
  obtain rfl := Option.some.inj (hcol.symm.trans hcol')
  rw [← hcat]
  exact collectionEnd_of_standing (hs ▸ hstands) hq.tallied fun id caller outcome hcaller hk hends =>
    obtained_of_ended hasked.sound hasked.enrolled hquiet hq.backed hcaller hk hends

/-! ## Catalogues that are faithful -/

/-- Slugs and documents of a catalogue whose keys are different, with formats that have one place for the slug each.

    * There is a slug for each key, and the slug of a key that fits a format leads to a key that is held.
    * If all keys fit formats, all slugs lead to documents, and so do those that are offered when a page is not found.
    * The documents are different then exactly if no slug makes another key with an earlier format than the one that reads
      it; and then the slugs are different, too, and each leads to the key of which it is read.
    * Someone who asks for all pages gets the documents then, those that pass the filters, unless a loader fails. -/
theorem slugs_are_faithful (c : Catalogue) (hformats : ∀ format ∈ c.formats, c.IsKeyFormat format)
    (hkeys : c.keys.Nodup) :
    ∃ slugs, c.slugs = .ok slugs ∧ slugs.length = c.keys.length ∧
      (∀ key ∈ c.keys, (∃ format ∈ c.formats, c.Fits format key) →
        ∃ slug ∈ slugs, c.slugFor key = .ok slug ∧ ∃ found ∈ c.keys, c.keyFor slug = .ok (some found)) ∧
      (c.Covers → ∃ documents,
        List.Forall₂ (fun slug key => key ∈ c.keys ∧ c.keyFor slug = .ok (some key)) slugs documents ∧
        (∀ (p : Provider ε) slug cause, p.catalogue = c → p.resolve slug = .error (.notFound cause) →
          ∀ offered ∈ cause.available, ∃ key ∈ c.keys, c.keyFor offered = .ok (some key)) ∧
        (documents.Nodup ↔ c.Unshadowed) ∧ (c.Unshadowed → slugs.Nodup ∧ documents = c.keys) ∧
        ∀ (filters : Option ContentFilters) (before after : List (Event ε)),
          let p := (initial c : Provider ε).run before
          let k := p.collections.length
          let q := (p.step (.requestAll filters)).run after
          let h := (initial c).history (before ++ .requestAll filters :: after)
          Undisturbed k (p.step (.requestAll filters)) after →
          ∀ col outcome, q.collections[k]? = some col → col.stage = .finished outcome →
            (∃ error, outcome = .failed (.loader error) ∧ LoaderFails h error) ∨
              ∃ artifacts, List.Forall₂ (IsDocument h) documents artifacts ∧ Selects filters artifacts outcome) := by
  obtain ⟨slugs, hslugs, hread⟩ := exists_slugs hformats
  refine ⟨slugs, hslugs, hread.length_eq.symm, fun key hheld hfits => ?_, fun hcovers => ?_⟩
  · obtain ⟨found, hfound, slug, hslug, hkey⟩ := exists_leads hformats hheld hfits
    have hmem : ∀ key ∈ c.keys, ∃ slug ∈ slugs, c.slugFor key = .ok slug :=
      forall_mem_right hread.flip fun slug hmem _ h => ⟨slug, hmem, h⟩
    obtain ⟨slug', hmem', hslug'⟩ := hmem key hheld
    obtain rfl := Except.ok.inj (hslug.symm.trans hslug')
    exact ⟨slug, hmem', hslug, found, hfound, hkey⟩
  · obtain ⟨documents, hdocuments, hleads⟩ := exists_documents hformats hcovers hread
    have hkeyed : ∀ slug ∈ slugs, ∃ key ∈ c.keys, c.keyFor slug = .ok (some key) :=
      forall_mem_right hdocuments.flip fun key _ _ h => ⟨key, h⟩
    refine ⟨documents, hdocuments, ?_, nodup_iff_unshadowed hformats hcovers hkeys hleads, ?_, ?_⟩
    · intro p slug cause hp hmissing offered hoffered
      obtain ⟨slugs', hslugs', havailable⟩ := available_of_notFound hmissing
      rw [hp, hslugs] at hslugs'
      obtain rfl := Except.ok.inj hslugs'
      exact hkeyed offered (havailable offered hoffered)
    · intro hclear
      obtain rfl := hclear.eq hformats hcovers hleads
      refine ⟨nodup_of_forall₂ hdocuments (fun slug key key' h h' => ?_) hkeys, rfl⟩
      exact Option.some.inj (Except.ok.inj (h.2.symm.trans h'.2))
    · intro filters before after p k q h hquiet col outcome hcol hs
      have hrun : q = (initial c).run (before ++ .requestAll filters :: after) := by
        rw [run_append]
        rfl
      have hend : CollectionEnd c filters q _ k _ outcome :=
        collectionEnd_run c filters before after hquiet col outcome hcol hs
      rw [hrun] at hend
      exact collection_of_documents hslugs (hdocuments.imp fun _ _ h => h.2) hend

/-- A catalogue with a key for each of the two default formats. -/
def mixedCatalogue : Catalogue :=
  .make "@content" defaultKeyFormats ["@content/a.md", "/content/b.md"]

theorem isKeyFormat_default {format : String} (h : format ∈ mixedCatalogue.formats) :
    mixedCatalogue.IsKeyFormat format := by
  rcases List.mem_cons.1 h with rfl | h
  · exact ⟨"@content/", ".md", ⟨"\x7balias\x7d/", ".md", rfl, rfl, rfl⟩, by decide⟩
  · obtain rfl := List.mem_singleton.1 h
    exact ⟨"/content/", ".md", ⟨"/content/", ".md", rfl, rfl, rfl⟩, by decide⟩

/-- Both slugs lead to their own keys, and both documents are different. -/
theorem mixedCatalogue_is_faithful : mixedCatalogue.Covers ∧ mixedCatalogue.Unshadowed ∧
    ∃ slugs, mixedCatalogue.slugs = .ok slugs ∧ slugs.Nodup ∧
      List.Forall₂ (fun slug key => mixedCatalogue.keyFor slug = .ok (some key)) slugs mixedCatalogue.keys := by
  have hcovers : mixedCatalogue.Covers := by
    intro key hkey
    rcases List.mem_cons.1 hkey with rfl | hkey
    · exact ⟨_, List.mem_cons_self, "a", by decide, rfl⟩
    · obtain rfl := List.mem_singleton.1 hkey
      exact ⟨_, List.mem_cons_of_mem _ List.mem_cons_self, "b", by decide, rfl⟩
  obtain ⟨slugs, hslugs, -, -, hdocuments⟩ :=
    @slugs_are_faithful String mixedCatalogue (fun _ => isKeyFormat_default) (by decide)
  obtain ⟨documents, hkeys, -, hiff, hclear, -⟩ := hdocuments hcovers
  have hread : mixedCatalogue.slugs = .ok ["a", "b"] := rfl
  obtain rfl := Except.ok.inj (hslugs.symm.trans hread)
  have hown : List.Forall₂ (fun slug key => mixedCatalogue.keyFor slug = .ok (some key)) ["a", "b"]
      mixedCatalogue.keys := .cons rfl (.cons rfl .nil)
  obtain rfl : documents = mixedCatalogue.keys := by
    refine List.right_unique_forall₂' (fun slug key key' h h' => ?_) (hkeys.imp fun _ _ h => h.2) hown
    exact Option.some.inj (Except.ok.inj (h.symm.trans h'))
  have hunshadowed := hiff.1 (by decide)
  exact ⟨hcovers, hunshadowed, _, hread, (hclear hunshadowed).1, hown⟩

/-- A catalogue with formats that overlap. -/
def overlappingCatalogue : Catalogue :=
  .make "@content" ["a\x7bslug\x7d", "\x7bslug\x7db", "c\x7bslug\x7d"] ["axb", "cax"]

/-- Slugs are not faithful without such conditions: with keys of both formats for one page its slug is there twice; the slug
    of a key with another start leads nowhere; with formats that overlap a document is in the way of another; and where the
    mark of the slug's place stands in front of the place, the slug leads nowhere. -/
theorem slugs_are_not_faithful :
    (Catalogue.make "@content" defaultKeyFormats ["@content/a.md", "/content/a.md"]).slugs = .ok ["a", "a"] ∧
    ((Catalogue.make "@content" defaultKeyFormats ["@docs/a.md"]).slugs = .ok ["@docs/a"] ∧
      (Catalogue.make "@content" defaultKeyFormats ["@docs/a.md"]).keyFor "@docs/a" = .ok none) ∧
    (overlappingCatalogue.slugs = .ok ["xb", "ax"] ∧ overlappingCatalogue.keyFor "xb" = .ok (some "axb") ∧
      overlappingCatalogue.keyFor "ax" = .ok (some "axb")) ∧
    (Catalogue.make "a\x00b" defaultKeyFormats ["a\x00b/x.md"]).slugs = .ok ["a\x00b/x"] ∧
      (Catalogue.make "a\x00b" defaultKeyFormats ["a\x00b/x.md"]).keyFor "a\x00b/x" = .ok none :=
  ⟨rfl, ⟨rfl, rfl⟩, ⟨rfl, rfl, rfl⟩, rfl, rfl⟩

end Provider

end Folio
