import Folio.Proofs.Provider.Documents
import Folio.Proofs.Server.Pages

set_option autoImplicit false

/-! # All pages of a server

A server that has been opened has all pages at once, since its loaders answer at once: when each slug of its catalogue has an
artifact, someone who asks for all pages gets these artifacts in the order of the catalogue (`loadAll_serve`). -/

namespace Folio.Server

open Provider

section

variable {tree : FileTree} {server : Server} {p : Provider LoaderError} {slug : String} {outcome : Outcome LoaderError Artifact}

/-- Who asks for a collection and has ended has what there is. -/
theorem Serves.obtained (h : Serves tree server p) (hquiet : p.ready = []) {k : Nat} {history : List (Occurrence LoaderError)}
    (ho : Obtained p history k slug outcome) : outcome = .ofResult (server.fetch tree slug) := by
  obtain ⟨id, c, -, hc, -, rfl, hs, -⟩ := ho
  exact CallerStage.finished.inj (hs.symm.trans (h.ended hquiet hc))

theorem fetch_of_done {a : Artifact} (h : .done a = Outcome.ofResult (server.fetch tree slug)) :
    server.fetch tree slug = .ok a := by
  cases hfetch : server.fetch tree slug with
  | ok a' =>
    rw [hfetch] at h
    rw [Outcome.done.inj h]
  | error e =>
    rw [hfetch] at h
    cases h

theorem fetch_of_failed {e : LoadError LoaderError} (h : .failed e = Outcome.ofResult (server.fetch tree slug)) :
    server.fetch tree slug = .error e := by
  cases hfetch : server.fetch tree slug with
  | ok a =>
    rw [hfetch] at h
    cases h
  | error e' =>
    rw [hfetch] at h
    rw [Outcome.failed.inj h]

end

section

variable {tree : FileTree} {b : Backend} {keyStart : String} {formats slugs : List String} {artifacts : List Artifact}

/-- A collection of a server that has been opened has ended when nothing can move. -/
theorem exists_collectionEnd (tree : FileTree) (b : Backend) (keyStart : String) (formats : List String)
    (filters : Option ContentFilters) :
    let server := b.serve keyStart formats
    let q := (server.provider.requestAll filters).drain (server.answer tree)
    Serves tree server q ∧ q.ready = [] ∧ ∃ col outcome history reports, q.collections[0]? = some col ∧
      col.stage = .finished outcome ∧ CollectionEnd server.provider.catalogue filters q history 0 reports outcome := by
  intro server q
  have hserves : Serves tree server q :=
    ((settled_serve tree b keyStart formats).serves.step (e := .requestAll filters) trivial).drain
  have hquiet : q.ready = [] := drain_ready _ _
  have hfollowed : Followed (server.provider.requestAll filters) 0 filters [] :=
    followed_asked (sound_initial server.provider.catalogue) (enrolled_initial _) (placed_run _ []) filters
  obtain ⟨col, hcol, -, hends⟩ := settles_drain (server.answer tree) hfollowed
  refine ⟨hserves, hquiet, ?_⟩
  rcases hends with ⟨outcome, hs⟩ | ⟨_, loadId, -, l, key, n, -, -, -, hl, hwaits⟩
  · obtain ⟨turns, hturns⟩ := turns_eq_run (server.answer tree) (server.provider.requestAll filters).turnBound
      (server.provider.requestAll filters)
    have hq : q = (server.provider.requestAll filters).run (List.replicate turns (.turn (server.answer tree))) := hturns
    have hend := collectionEnd_run server.provider.catalogue filters [] (List.replicate turns (.turn (server.answer tree)))
      (undisturbed_replicate_turn _ _ _ _) col outcome (hq ▸ hcol) hs
    exact ⟨col, outcome, _, _, hcol, hs, hq ▸ hend⟩
  · exact absurd hwaits (hserves.prompt loadId l key n hl)

/-- When someone asks a server for all pages, a failure of one of the slugs of its catalogue is reported, or there is an
    artifact for each of them, and what is selected from these is returned. -/
theorem loadAll_cases (hslugs : (Catalogue.make keyStart formats b.keys).slugs = .ok slugs) (filters : Option ContentFilters) :
    (∃ slug ∈ slugs, ∃ e, (b.serve keyStart formats).fetch tree slug = .error e ∧
      ((b.serve keyStart formats).loadAll tree filters).1 = .error (.load e)) ∨
    ∃ (given : List Artifact) (outcome : CollectOutcome LoaderError),
      List.Forall₂ (fun slug a => (b.serve keyStart formats).fetch tree slug = .ok a) slugs given ∧
      Selects filters given outcome ∧
      ∀ artifacts, outcome = .done artifacts → ((b.serve keyStart formats).loadAll tree filters).1 = .ok artifacts := by
  obtain ⟨hserves, hquiet, col, outcome, history, reports, hcol, hs, hend⟩ :=
    exists_collectionEnd tree b keyStart formats filters
  have hstage : (((b.serve keyStart formats).provider.requestAll filters).drain
      ((b.serve keyStart formats).answer tree)).collections[0]?.map Collection.stage = some (.finished outcome) := by
    rw [hcol, Option.map_some, hs]
  have hfirst : (b.serve keyStart formats).provider.collections.length = 0 := rfl
  have hanswer : Server.answer
      { b.serve keyStart formats with provider := (b.serve keyStart formats).provider.requestAll filters } tree
        = (b.serve keyStart formats).answer tree := rfl
  unfold Server.loadAll Server.drain
  dsimp only
  rw [hanswer, hfirst, hstage]
  cases hend with
  | refused unknown => cases hslugs.symm.trans unknown
  | failed known first own obtained =>
    obtain rfl := Except.ok.inj (hslugs.symm.trans known)
    exact .inl ⟨_, own, _, fetch_of_failed (hserves.obtained hquiet obtained), rfl⟩
  | @returned slugs' given _ known good obtained selects =>
    obtain rfl := Except.ok.inj (hslugs.symm.trans known)
    refine .inr ⟨given, outcome, obtained.imp fun _ _ h => fetch_of_done (hserves.obtained hquiet h), selects, ?_⟩
    rintro artifacts rfl
    rfl

/-- Someone who asks a server for all pages gets what there is for the slugs of its catalogue, as far as it passes. -/
theorem loadAll_serve (hslugs : (Catalogue.make keyStart formats b.keys).slugs = .ok slugs)
    (hfetch : List.Forall₂ (fun slug a => (b.serve keyStart formats).fetch tree slug = .ok a) slugs artifacts)
    {filters : Option ContentFilters} {passes : Artifact → Bool}
    (hnone : filters = none → ∀ a ∈ artifacts, passes a = true)
    (hpass : ∀ f, filters = some f → ∀ a ∈ artifacts, f.isMatch a.header = .ok (passes a)) :
    ((b.serve keyStart formats).loadAll tree filters).1 = .ok (artifacts.filter passes) := by
  rcases loadAll_cases hslugs filters with
    ⟨slug, hslug, e, herror, -⟩ | ⟨given, outcome, hgiven, hselects, hreturns⟩
  · have hthere : ∀ slug ∈ slugs, ∃ a, (b.serve keyStart formats).fetch tree slug = .ok a :=
      forall_mem_right hfetch.flip fun a _ _ h => ⟨a, h⟩
    obtain ⟨a, ha⟩ := hthere slug hslug
    cases herror.symm.trans ha
  · have hsame : List.Forall₂ Eq given artifacts := forall₂_of_both hgiven hfetch fun _ _ _ h h' =>
      Except.ok.inj (h.symm.trans h')
    obtain rfl : given = artifacts := List.forall₂_eq_eq_eq ▸ hsame
    refine hreturns _ ?_
    cases hfilters : filters with
    | none => rw [hselects.1 hfilters, List.filter_eq_self.2 (hnone hfilters)]
    | some f => exact hselects.2 f passes hfilters (hpass f hfilters)

/-- A server that returns all pages has one for each slug of its catalogue. -/
theorem exists_given_of_loadAll (hslugs : (Catalogue.make keyStart formats b.keys).slugs = .ok slugs)
    {filters : Option ContentFilters} (h : ((b.serve keyStart formats).loadAll tree filters).1 = .ok artifacts) :
    ∃ given, List.Forall₂ (fun slug a => (b.serve keyStart formats).fetch tree slug = .ok a) slugs given := by
  rcases loadAll_cases hslugs filters with ⟨slug, -, e, -, hfailed⟩ | ⟨given, -, hgiven, -⟩
  · cases hfailed.symm.trans h
  · exact ⟨given, hgiven⟩

end

/-! ## Pages that a manifest lists -/

section

variable {rules : BuildRules} {tree : FileTree} {ns : List PageName} {keyStart : String} {formats : List String}

theorem fetch_of_keyFor {b : Backend} {slug key : String} {a : Artifact}
    (hkey : (Catalogue.make keyStart formats b.keys).keyFor slug = .ok (some key)) (hload : b.load tree key = .ok a) :
    (b.serve keyStart formats).fetch tree slug = .ok a := by
  have hresolve : (b.serve keyStart formats).provider.resolve slug = .ok key := Provider.resolve_of_keyFor hkey
  rw [fetch, hresolve]
  change (b.load tree key).mapError LoadError.loader = _
  rw [hload]
  rfl

/-- A slug that is resolved to the key of a page has the artifact of the page. -/
theorem fetch_listed {n : PageName} (hn : n ∈ ns) {a : Artifact} (himport : importArtifact tree (rules.modulePath n) = .ok a)
    {slug : String} (hkey : (Catalogue.make keyStart formats ((ns.map PageName.slug).map (keyFor rules.keyStart))).keyFor slug
      = .ok (some (keyFor rules.keyStart n.slug))) :
    ((Backend.compiled (keyedPages rules.keyStart rules.modulePath ns)).serve keyStart formats).fetch tree slug = .ok a := by
  rw [← Backend.keys_compiled rules.keyStart rules.modulePath ns] at hkey
  refine fetch_of_keyFor hkey ?_
  rw [Backend.load, lookup_keyedPages hn]
  simp only [himport]
  rfl

/-- If the slug of each key leads back to the key, all pages that a manifest lists are loaded. -/
theorem loadAll_listed {artifacts : List Artifact}
    (himport : List.Forall₂ (fun n a => importArtifact tree (rules.modulePath n) = .ok a) ns artifacts)
    (hleads : ∀ n ∈ ns, (Catalogue.make keyStart formats ((ns.map PageName.slug).map (keyFor rules.keyStart))).Leads
      (keyFor rules.keyStart n.slug) (keyFor rules.keyStart n.slug)) {filters : Option ContentFilters}
    (hpass : ∀ f, filters = some f → ∀ a ∈ artifacts, f.isMatch a.header = .ok true) :
    (((Backend.compiled (keyedPages rules.keyStart rules.modulePath ns)).serve keyStart formats).loadAll tree filters).1
      = .ok artifacts := by
  obtain ⟨slugs, hslugs⟩ := exists_forall₂ hleads
  have hread : (Catalogue.make keyStart formats (Backend.compiled (keyedPages rules.keyStart rules.modulePath ns)).keys).slugs
      = .ok slugs := by
    rw [Backend.keys_compiled, Catalogue.slugs, mapM_eq_ok_iff]
    show List.Forall₂ _ ((ns.map PageName.slug).map (keyFor rules.keyStart)) slugs
    rw [List.forall₂_map_left_iff, List.forall₂_map_left_iff]
    exact hslugs.imp fun _ _ h => h.1
  have hown := (List.forall₂_and_left _ _).2 ⟨fun _ (hn : _ ∈ ns) => hn, himport⟩
  rw [← List.filter_true artifacts]
  refine loadAll_serve hread (forall₂_of_both hslugs hown fun n slug a hslug ha => ?_) (fun _ _ _ => rfl) hpass
  exact fetch_listed ha.1 ha.2 hslug.2

end

end Folio.Server
