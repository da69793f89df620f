import Folio.Proofs.Server.Reloading
import Folio.Proofs.Server.Settling

set_option autoImplicit false

/-! # A provider keeps the keys of its opening

While a site is watched sources are added and deleted, and what is rebuilt compiles. When all that has been changed
has been reported and the watcher has nothing to do (`Live.Settles`), a provider that is freshly opened has the pages
whose sources are there. The provider of the site still has the keys with which it was opened: it gives what the fresh
one gives for a page that both have, it has no page that was added, and of one that was deleted it can only say that
its file cannot be read (`Live.KeepsOpening`). -/

namespace Folio

/-! ## Opening -/

/-- What the loaders for some pages read: their sources, or their modules. -/
def pagesBackend (s : Settings) (fromSources : Bool) (ns : List PageName) : Backend :=
  if fromSources then
    .sources (keyedPages s.contentAlias s.buildRules.sourcePath ns) s.buildRules.root s.compileRules
  else .compiled (keyedPages s.contentAlias s.buildRules.modulePath ns)

/-- The server of some pages. -/
def pagesServer (s : Settings) (fromSources : Bool) (ns : List PageName) : Server :=
  (pagesBackend s fromSources ns).serve s.contentAlias s.keyFormats

section

variable {s : Settings} {fromSources : Bool} {ns : List PageName} {n : PageName} {tree : FileTree}
variable {modules : List (String × Json)}

theorem mem_keys_pagesBackend :
    keyFor s.contentAlias n.slug ∈ (pagesBackend s fromSources ns).keys ↔ n ∈ ns := by
  unfold pagesBackend
  split <;> exact mem_keyedPages_iff

theorem load_pagesBackend_sources (hn : n ∈ ns) : (pagesBackend s true ns).load tree (keyFor s.contentAlias n.slug)
    = (compileFile s.compileRules tree (s.buildRules.sourcePath n) (some s.buildRules.root)).mapError .building := by
  rw [pagesBackend, if_pos rfl, Backend.load, lookup_keyedPages hn]

theorem load_pagesBackend_modules (hn : n ∈ ns) :
    (pagesBackend s false ns).load tree (keyFor s.contentAlias n.slug)
      = (importArtifact tree (s.buildRules.modulePath n)).mapError .importing := by
  rw [pagesBackend, if_neg (by simp), Backend.load, lookup_keyedPages hn]

/-- A server of sources has the pages that are there, and one of modules those that the manifest lists. -/
theorem start_pages (hproper : tree.IsProper) (hroot : tree.isDirectory s.buildRules.root = true)
    (hledger : fromSources = false → Ledger s.buildRules tree modules)
    (hread : fromSources = false → Manifest.read tree s.buildRules.out
      = .ok (Json.toEntries (modules.mergeSort Manifest.keyLe))) :
    ∃ ns, Server.start tree s fromSources = .ok (pagesServer s fromSources ns) ∧
      (fromSources = true → ∀ n, n ∈ ns ↔ tree.IsPage s.buildRules.root n) ∧
      (fromSources = false → ∀ n, n ∈ ns ↔ s.buildRules.entry n ∈ modules) := by
  cases fromSources with
  | true =>
    obtain ⟨ns, hstart, hmem⟩ := Server.start_sources hproper hroot
    exact ⟨ns, hstart, fun _ => hmem, nofun⟩
  | false =>
    obtain ⟨ns, hstart, hmem⟩ := Server.start_listed (hledger rfl) (hread rfl)
    exact ⟨ns, hstart, nofun, fun _ => hmem⟩

/-- A server of modules that is opened has read the manifest. -/
theorem Ledger.read_of_start (h : Ledger s.buildRules tree modules) {server : Server}
    (hstart : Server.start tree s false = .ok server) :
    Manifest.read tree s.buildRules.out = .ok (Json.toEntries (modules.mergeSort Manifest.keyLe)) := by
  obtain ⟨backend, hbackend, -⟩ := Except.bind_eq_ok_iff.1 hstart
  obtain ⟨listed, hlisted, -⟩ := Except.map_eq_ok_iff.1 hbackend
  obtain ⟨entries, hentries, -⟩ := Except.bind_eq_ok_iff.1 hlisted
  have hread := Except.mapError_eq_ok_iff.1 hentries
  exact h.entries_eq hread ▸ hread

end

namespace Live

open Provider

/-! ## The result -/

/-- How the provider of a site compares, when a run has settled, with one that is then freshly opened. -/
structure KeepsOpening (o : Live) (hs : List Happening) (k : Nat) (fresh : Server) : Prop where
  /-- The fresh provider has a page whose source has been written, as its source compiles. -/
  added : ∀ n a, Changed o hs k n → n.IsServable →
    compileFile o.rules.compiling (o.moment hs k).tree (o.rules.sourcePath n) (some o.rules.root) = .ok a →
    keyFor o.rules.keyStart n.slug ∈ fresh.backend.keys ∧
      (fresh.provider.resolve n.slug = .ok (keyFor o.rules.keyStart n.slug) →
        (fresh.load (o.moment hs k).tree n.slug).1 = .ok a)
  /-- It has no page whose source has been deleted. -/
  deleted : ∀ n, Changed o hs k n → ¬ (o.moment hs k).tree.IsPage o.rules.root n →
    keyFor o.rules.keyStart n.slug ∉ fresh.backend.keys
  /-- Whoever asks for a slug that had no key when the site was opened is told what there was then. -/
  unknown : ∀ (id : Nat) c outcome e, (o.moment hs hs.length).provider.callers[id]? = some c →
    c.stage = .finished outcome → outcome ≠ .cancelled → o.provider.resolve c.slug = .error e → outcome = .failed e
  /-- Whoever asks, once the run has settled, for a page that had a key gets what the fresh provider gives for the
      key; if the fresh one does not have it, no file can be read. -/
  known : ∀ (n : PageName) (id : Nat) c outcome, o.provider.resolve n.slug = .ok (keyFor o.rules.keyStart n.slug) → n.stem ≠ "" →
    Late (o.moment hs k).provider id → (o.moment hs hs.length).provider.callers[id]? = some c → c.slug = n.slug →
    c.stage = .finished outcome → outcome ≠ .cancelled →
    (fresh.provider.resolve n.slug = .ok (keyFor o.rules.keyStart n.slug) → ∃ r r', Agrees r r' ∧
      outcome = .ofResult (r.mapError .loader) ∧
      (fresh.load (o.moment hs k).tree n.slug).1 = (r'.mapError .loader).mapError .load) ∧
    (keyFor o.rules.keyStart n.slug ∉ fresh.backend.keys →
      ∃ e, outcome = .failed (.loader e) ∧ e.IsUnreadable)
  /-- When nothing can move, all who have asked have an outcome. -/
  ended : (o.moment hs hs.length).provider.ready = [] → Prompt (o.moment hs hs.length).provider → ∀ (id : Nat) c,
    (o.moment hs hs.length).provider.callers[id]? = some c → ∃ outcome, c.stage = .finished outcome

section

variable {s : Settings} {fromSources : Bool} {tree : FileTree} {ns : List PageName} {n : PageName}

/-- A server of pages that has been opened, and watched. -/
def openedPages (tree : FileTree) (s : Settings) (fromSources : Bool) (ns : List PageName) : Live :=
  { tree := tree, site := ⟨s, pagesServer s fromSources ns⟩ }

theorem rebuilding_openedPages :
    (openedPages tree s fromSources ns).site.rebuilding.isSome = true ↔ fromSources = false := by
  cases fromSources <;> simp [openedPages, pagesServer, pagesBackend, Backend.serve, Site.rebuilding]

theorem untouched_openedPages : (openedPages tree s fromSources ns).Untouched :=
  ⟨rfl, rfl, rfl⟩

/-- A server of pages that is asked for one whose slug has its key answers what its loader gives. -/
theorem load_pagesServer {slug key : String}
    (hresolve : (pagesServer s fromSources ns).provider.resolve slug = .ok key) :
    ((pagesServer s fromSources ns).load tree slug).1
      = (((pagesBackend s fromSources ns).load tree key).mapError .loader).mapError .load := by
  have hsettled : Server.Settled tree (pagesServer s fromSources ns) := Server.settled_serve tree _ _ _
  rw [hsettled.load, Server.fetch, hresolve]
  rfl

theorem loads_openedPages (hn : n ∈ ns) (hout : fromSources = false → tree.isDirectory s.buildRules.out = true) :
    Loads (openedPages tree s fromSources ns) n := by
  cases fromSources with
  | true => exact .source fun tree => load_pagesBackend_sources hn
  | false => exact .module (hout rfl) fun tree => load_pagesBackend_modules hn

/-- A page that a server has opened, and that is neither there nor listed, has nothing that its loader can read. -/
theorem unreadable_of_unlisted {l : Live} (hn : n ∈ ns)
    (hgone : fromSources = true → ¬ l.tree.IsPage s.buildRules.root n)
    (hunlisted : fromSources = false → ¬ l.tree.IsFileAt (s.buildRules.out.place l.tree.home ++ n.module)) :
    ∃ e, given (openedPages tree s fromSources ns) n l = .error e ∧ e.IsUnreadable := by
  cases fromSources with
  | true =>
    rw [show given (openedPages tree s true ns) n l = _ from load_pagesBackend_sources hn]
    cases hread : l.tree.read (s.buildRules.sourcePath n) with
    | ok found => exact absurd ⟨_, _, BuildRules.hasSource_of_read hread⟩ (hgone rfl)
    | error e =>
      refine ⟨_, congrArg _ (compileFile_of_read_error hread), ?_⟩
      trivial
  | false =>
    rw [show given (openedPages tree s false ns) n l = _ from load_pagesBackend_modules hn]
    cases hread : l.tree.read (s.buildRules.modulePath n) with
    | ok found =>
      have hfile := FileTree.isFileAt_of_read hread
      rw [BuildRules.modulePath, n.place_module] at hfile
      exact absurd hfile (hunlisted rfl)
    | error e =>
      refine ⟨_, congrArg _ (importArtifact_of_read_error hread), ?_⟩
      trivial

/-- A run of a site of pages has settled. At the opening, and then, a server of sources has the pages that are
    there, and one of modules those that are listed. -/
structure AtRest (tree : FileTree) (s : Settings) (fromSources : Bool) (ns ns' : List PageName)
    (first modules : List (String × Json)) (hs : List Happening) (k : Nat) : Prop where
  settles : Settles (openedPages tree s fromSources ns) hs k
  followed : Followed (openedPages tree s fromSources ns) hs first k modules
    ((openedPages tree s fromSources ns).moment hs k)
  ledger : fromSources = false → Ledger s.buildRules tree first
  opened : fromSources = false → ∀ n, n ∈ ns ↔ s.buildRules.entry n ∈ first
  listed : fromSources = false → ∀ n, n ∈ ns' ↔ s.buildRules.entry n ∈ modules
  there : fromSources = true →
    ∀ n, n ∈ ns' ↔ ((openedPages tree s fromSources ns).moment hs k).tree.IsPage s.buildRules.root n

variable {ns' : List PageName} {first modules : List (String × Json)} {hs : List Happening} {k : Nat}
variable (h : AtRest tree s fromSources ns ns' first modules hs k)
include h

/-- A page of modules whose source has been written or deleted is listed with what its source says, or is neither
    there nor listed. -/
theorem AtRest.upkeep (hmodules : fromSources = false)
    (hchanged : Changed (openedPages tree s fromSources ns) hs k n) :
    (n ∈ ns' ∧ ∃ text, SourceMakes (openedPages tree s fromSources ns) n text
        ((openedPages tree s fromSources ns).moment hs k) ∧
      Has (openedPages tree s fromSources ns) n text ((openedPages tree s fromSources ns).moment hs k)) ∨
    n ∉ ns' ∧ ¬ ((openedPages tree s fromSources ns).moment hs k).tree.IsPage s.buildRules.root n := by
  have hidle := h.settles.idle
  cases h.followed.upkeep (rebuilding_openedPages.2 hmodules) n hchanged (h.settles.told n) with
  | queued watcher | underway watcher => simp [hidle] at watcher
  | built _ listed makes module => exact .inl ⟨(h.listed hmodules n).2 listed, _, makes, module⟩
  | gone _ unlisted gone => exact .inr ⟨mt (h.listed hmodules n).1 unlisted, gone⟩

/-- A fresh server has a page whose source has been written and compiles. -/
theorem AtRest.mem_of_compiles (hchanged : Changed (openedPages tree s fromSources ns) hs k n)
    (hservable : n.IsServable) {a : Artifact}
    (hcompile : compileFile s.compileRules ((openedPages tree s fromSources ns).moment hs k).tree
      (s.buildRules.sourcePath n) (some s.buildRules.root) = .ok a) :
    n ∈ ns' ∧ (pagesBackend s fromSources ns').load ((openedPages tree s fromSources ns).moment hs k).tree
      (keyFor s.contentAlias n.slug) = .ok a := by
  obtain ⟨bytes, modified, hread, hcompiles⟩ := compileFile_eq_ok_iff.1 hcompile
  have hsource := BuildRules.hasSource_of_read hread
  cases fromSources with
  | true =>
    have hn : n ∈ ns' := (h.there rfl n).2 ⟨bytes, modified, hsource⟩
    exact ⟨hn, by rw [load_pagesBackend_sources hn, hcompile]; rfl⟩
  | false =>
    rcases h.upkeep rfl hchanged with ⟨hn, text, ⟨_, _, hsource', hmakes⟩, time, hmodule⟩ | ⟨-, hgone⟩
    · refine ⟨hn, ?_⟩
      obtain ⟨a', hcompiles', -, -, himport⟩ := hmakes.decodes hservable.fitsLine
      have hslug : pathSlug _ (s.buildRules.sourcePath n) (some s.buildRules.root) = n.slug :=
        pathSlug_sourcePath h.followed.tended.root n
      rw [hslug] at hcompiles
      obtain ⟨rfl, rfl⟩ := Entry.file.inj (Option.some.inj (hsource.symm.trans hsource'))
      have himport : importArtifact _ (s.buildRules.modulePath n) = .ok a' := himport _ _ _ hmodule
      rw [load_pagesBackend_modules hn, himport, hcompiles'.unique hcompiles]
      rfl
    · exact absurd ⟨bytes, modified, hsource⟩ hgone

/-- A fresh server does not have a page whose source has been deleted. -/
theorem AtRest.not_mem_of_gone (hchanged : Changed (openedPages tree s fromSources ns) hs k n)
    (hgone : ¬ ((openedPages tree s fromSources ns).moment hs k).tree.IsPage s.buildRules.root n) : n ∉ ns' := by
  cases fromSources with
  | true => exact mt (h.there rfl n).1 hgone
  | false =>
    rcases h.upkeep rfl hchanged with ⟨-, _, ⟨bytes, modified, hsource, -⟩, -⟩ | ⟨hn, -⟩
    · exact absurd ⟨bytes, modified, hsource⟩ hgone
    · exact hn

/-- A page that the site has opened and a fresh server does not have has no file that its loader can read. -/
theorem AtRest.unreadable (hn : n ∈ ns) (hn' : n ∉ ns') : ∃ e,
    given (openedPages tree s fromSources ns) n ((openedPages tree s fromSources ns).moment hs k) = .error e ∧
      e.IsUnreadable := by
  refine unreadable_of_unlisted hn (fun hsources => mt (h.there hsources n).2 hn') fun hmodules => ?_
  rcases h.followed.accounted n ((h.opened hmodules n).1 hn) with hlisted | ⟨_, _, _, hw, _⟩ | hfree
  · exact absurd ((h.listed hmodules n).2 hlisted) hn'
  · simp [h.settles.idle] at hw
  · exact hfree

/-- Who asks, once the run has settled, for a page that had a key gets what its loader gives. -/
theorem AtRest.outcome_of_late (hn : n ∈ ns) (hresolve : (pagesServer s fromSources ns).provider.resolve n.slug
      = .ok (keyFor s.contentAlias n.slug)) (hstem : n.stem ≠ "") {id : Nat} {c : Caller LoaderError}
    {outcome : Outcome LoaderError Artifact}
    (hlate : Late ((openedPages tree s fromSources ns).moment hs k).provider id)
    (hc : ((openedPages tree s fromSources ns).moment hs hs.length).provider.callers[id]? = some c)
    (hslug : c.slug = n.slug) (hfinished : c.stage = .finished outcome) (hspared : outcome ≠ .cancelled) :
    ∃ r, Agrees r (given (openedPages tree s fromSources ns) n ((openedPages tree s fromSources ns).moment hs k)) ∧
      outcome = .ofResult (r.mapError .loader) := by
  have hloads : Loads (openedPages tree s fromSources ns) n := loads_openedPages hn fun hmodules =>
    (h.ledger hmodules).isDirectory_out ((h.opened hmodules n).1 hn)
  rcases h.followed.supplied n hresolve hstem hloads (h.settles.told n) with
    ⟨_, _, _, hw, -⟩ | ⟨first, hsteady⟩
  · simp [h.settles.idle] at hw
  · have hlast := steady_last h.settles hresolve h.followed.tended.attended hsteady (.inl rfl)
    exact (hlast.ended id c outcome hlate hc hslug (.inr hfinished)).resolve_left hspared

omit h in
theorem load_pagesBackend_congr (hn : n ∈ ns) (hn' : n ∈ ns') :
    (pagesBackend s fromSources ns).load tree (keyFor s.contentAlias n.slug)
      = (pagesBackend s fromSources ns').load tree (keyFor s.contentAlias n.slug) := by
  cases fromSources with
  | true => rw [load_pagesBackend_sources hn, load_pagesBackend_sources hn']
  | false => rw [load_pagesBackend_modules hn, load_pagesBackend_modules hn']

theorem AtRest.keepsOpening :
    KeepsOpening (openedPages tree s fromSources ns) hs k (pagesServer s fromSources ns') where
  added n a hchanged hservable hcompile := by
    obtain ⟨hn, hload⟩ := h.mem_of_compiles hchanged hservable hcompile
    exact ⟨mem_keys_pagesBackend.2 hn, fun hresolve => (load_pagesServer hresolve).trans
      (congrArg (fun r => (r.mapError LoadError.loader).mapError Server.RequestError.load) hload)⟩
  deleted n hchanged hgone := mt mem_keys_pagesBackend.1 (h.not_mem_of_gone hchanged hgone)
  unknown id c outcome e hc hfinished hspared hresolve := by
    obtain ⟨-, hgives⟩ := attended_moment untouched_openedPages (Nat.le_refl hs.length)
    exact (hgives.ended id c outcome hc (.inr hfinished) e hresolve).resolve_right hspared
  known n id c outcome hresolve hstem hlate hc hslug hfinished hspared := by
    have hn : n ∈ ns := mem_keys_pagesBackend.1 (Backend.mem_keys_of_resolve hresolve)
    obtain ⟨r, hr, houtcome⟩ := h.outcome_of_late hn hresolve hstem hlate hc hslug hfinished hspared
    refine ⟨fun hresolve' => ⟨r, _, hr, houtcome, ?_⟩, fun hkey => ?_⟩
    · have hn' : n ∈ ns' := mem_keys_pagesBackend.1 (Backend.mem_keys_of_resolve hresolve')
      exact (load_pagesServer hresolve').trans (congrArg
        (fun r => (r.mapError LoadError.loader).mapError Server.RequestError.load) (load_pagesBackend_congr hn' hn))
    · obtain ⟨e, hgiven, he⟩ := h.unreadable hn (mt mem_keys_pagesBackend.2 hkey)
      rw [hgiven] at hr
      rcases hr with rfl | ⟨e', _, rfl, he', -⟩
      · exact ⟨e, houtcome, he⟩
      · exact ⟨e', houtcome, he'⟩
  ended hready hprompt id c hc := by
    obtain ⟨ha, -⟩ := attended_moment untouched_openedPages (Nat.le_refl hs.length)
    exact finished_of_quiet ha.sound hready hc fun loadId l key number _ hl => hprompt loadId l key number hl

end

end Live

section

variable {s : Settings} {tree : FileTree} (hproper : tree.IsProper)
variable (hroot : tree.isDirectory s.buildRules.root = true) {fromSources : Bool} {site : Site}
variable (hstart : Site.start tree s fromSources = .ok site) {modules : List (String × Json)}
variable (hledger : fromSources = false → Ledger s.buildRules tree modules) {hs : List Live.Happening} {k : Nat}
variable (hsettles : Live.Settles { tree := tree, site := site } hs k)
variable (hfree : fromSources = false → (({ tree := tree, site := site } : Live).moment hs k).tree.entry?
  (s.buildRules.out.place (({ tree := tree, site := site } : Live).moment hs k).tree.home ++ [Manifest.fileName])
    ≠ some .directory)
include hproper hroot hstart hledger hsettles hfree

/-- When a run has settled a server of pages can be opened. -/
theorem Live.exists_atRest : ∃ ns ns' modules', site = ⟨s, pagesServer s fromSources ns⟩ ∧
    Server.start (({ tree := tree, site := site } : Live).moment hs k).tree s fromSources
      = .ok (pagesServer s fromSources ns') ∧
    Live.AtRest tree s fromSources ns ns' modules modules' hs k := by
  obtain ⟨server, hserver, rfl⟩ := Except.map_eq_ok_iff.1 hstart
  obtain ⟨ns, hopen, -, hopened⟩ := start_pages hproper hroot hledger fun hmodules =>
    (hledger hmodules).read_of_start (hmodules ▸ hserver)
  obtain rfl := Except.ok.inj (hserver.symm.trans hopen)
  have htended : Live.Tended (Live.openedPages tree s fromSources ns) modules _ :=
    Live.untouched_openedPages.tended hproper hroot fun hsome => hledger (Live.rebuilding_openedPages.1 hsome)
  obtain ⟨modules', hfollowed⟩ :=
    Live.followed_moment Live.untouched_openedPages htended hsettles (Nat.le_refl k)
  have hledger' : fromSources = false → Ledger s.buildRules _ modules' := fun hmodules =>
    hfollowed.tended.ledger (Live.rebuilding_openedPages.2 hmodules)
  obtain ⟨ns', hfresh, hthere, hlisted⟩ := start_pages hfollowed.tended.proper hfollowed.tended.root hledger'
    fun hmodules => (hledger' hmodules).read (hfree hmodules)
  exact ⟨ns, ns', modules', rfl, hfresh, hsettles, hfollowed, hledger, hopened, hlisted, hthere⟩

/-- A site of modules or of sources is opened and watched. Whatever goes on then, as long as only sources of pages
    are written, deleted and reported, and those that are rebuilt compile: when all changes have been reported and the
    last batch has been applied, a provider can be opened, unless a directory has the name of the manifest, and the
    provider of the site compares with it as `KeepsOpening` says. -/
theorem reload_keeps_opening_keys :
    ∃ fresh, Server.start (({ tree := tree, site := site } : Live).moment hs k).tree s fromSources = .ok fresh ∧
      Live.KeepsOpening { tree := tree, site := site } hs k fresh := by
  obtain ⟨ns, ns', modules', rfl, hfresh, hrest⟩ :=
    Live.exists_atRest hproper hroot hstart hledger hsettles hfree
  exact ⟨_, hfresh, hrest.keepsOpening⟩

end

/-! ## A page that comes and one that goes -/

namespace Live

theorem not_changes_of_quiet {l : Live} {h : Happening} {n : PageName} (hquiet : h.isQuiet = true) :
    ¬ l.Changes n h := by
  intro hchanges
  cases h with
  | edit e => simp [Happening.isQuiet] at hquiet
  | act act => cases act <;> simp [Happening.isQuiet, Changes] at hquiet hchanges

theorem proper_of_quiet {l : Live} {h : Happening} (hquiet : h.isQuiet = true) : l.Proper h := by
  cases h with
  | edit e => simp [Happening.isQuiet] at hquiet
  | act act => cases act <;> trivial

/-- Whether the source to which the watcher comes next compiles, if it is there. -/
def turnCompiles (l : Live) : Bool :=
  match l.watcher with
  | .rebuilding _ (p :: _) none => !l.tree.doesExist p ||
    (compileFile l.rules.compiling l.tree p (some l.rules.root)).toOption.isSome
  | _ => true

theorem turnCompiles_of {l : Live} (h : l.turnCompiles = true) : l.TurnCompiles := by
  intro batch p rest hw hexists
  simp only [turnCompiles, hw, hexists, Bool.not_true, Bool.false_or] at h
  obtain ⟨a, ha⟩ := Option.isSome_iff_exists.1 h
  exact ⟨a, Except.toOption_eq_some_iff.1 ha⟩

end Live

/-- Whether a watcher does nothing. -/
def Watcher.isIdle : Watcher → Bool
  | .idle => true
  | _ => false

theorem Watcher.isIdle_iff {w : Watcher} : w.isIdle = true ↔ w = .idle := by
  cases w <;> simp [isIdle]

/-- The page that is added to the small site. -/
def addedPage : PageName where
  dirs := []
  stem := "z"
  dirs_names := smallPage.dirs_names
  noSlash := by decide
  noNul := by decide

/-- A page is added to the small site and the one that is there is deleted, and both are reported and applied. Then
    both are asked for. -/
def comingAndGoing : List Live.Happening :=
  [.edit (.write (.ofText "c/z.md") (Text.encodeUtf8 ['n', 'e', 'w']) 5), .edit (.delete (.ofText "c/a.md")),
    .act (.report ["c/a.md"]), .act .watch, .act .watch, .act (.report ["c/z.md"])] ++
  (List.replicate 5 .watch ++ [.request "z", .request "a"] ++ List.replicate 9 .turn ++ [.read 1, .answer 1] ++
    List.replicate 4 .turn : List Live.Act).map .act

/-- The site when all of that has been applied. -/
def cameAndWent : Live :=
  smallLive.moment comingAndGoing 11

/-- The site when who has asked has an answer. -/
def answeredAfter : Live :=
  smallLive.moment comingAndGoing comingAndGoing.length

theorem isQuiet_comingAndGoing {i : Nat} {h : Live.Happening} (hi : 6 ≤ i) (hact : comingAndGoing[i]? = some h) :
    h.isQuiet = true := by
  have hall : (comingAndGoing.drop 6).all Live.Happening.isQuiet = true := by decide
  refine List.all_eq_true.1 hall h (List.mem_of_getElem? (i := i - 6) ?_)
  rw [List.getElem?_drop, Nat.add_sub_cancel' hi]
  exact hact

/-- The provider that is freshly opened when all has been applied. -/
def freshServer : Server :=
  (Backend.compiled [("@pages/z.md", .ofText "o/z.py")]).serve "@pages//" defaultKeyFormats

theorem place_addedPage : smallSettings.buildRules.root.place [] ++ addedPage.source = ["c", "z.md"] := by
  decide

theorem place_deletedPage : smallSettings.buildRules.root.place [] ++ smallPage.source = ["c", "a.md"] := by
  decide

theorem changedPaths_addedPage : changedPaths ["c/z.md"] = [.ofText "c/z.md"] := by decide +kernel

theorem place_manifest : smallSettings.buildRules.out.place [] ++ [Manifest.fileName] = ["o", "manifest.json"] := by
  decide

theorem exists_built_builtSite : ∃ modules, Built smallSettings.buildRules builtSite modules := by
  have hroot : smallSite.isDirectory smallSettings.buildRules.root = true := by decide
  obtain ⟨hbuilt, -, -⟩ :=
    built_of_build isProper_smallSite (Path.isSpelled_ofText _) hroot build_smallSettings
  exact ⟨_, hbuilt⟩

/-- Each provider has the key of one of the two pages. -/
theorem keys_comingAndGoing :
    (smallLive.provider.resolve smallPage.slug).toOption
      = some (keyFor smallSettings.contentAlias smallPage.slug) ∧
    (freshServer.provider.resolve addedPage.slug).toOption
      = some (keyFor smallSettings.contentAlias addedPage.slug) ∧
    (smallLive.provider.resolve "z").toOption = none ∧
    (match freshServer.provider.resolve "a" with
      | .error (.notFound missing) => missing == ⟨"a", ["z"]⟩
      | _ => false) = true := by
  decide +kernel

/-- What the watcher does at each moment until all has been applied, and what the two paths lead to. -/
theorem moments_comingAndGoing : ∀ i < 12, (smallLive.moment comingAndGoing i).turnCompiles = true ∧
    (smallLive.moment comingAndGoing i).watcher.isIdle = decide (i ∈ [0, 1, 2, 5, 11]) ∧
    (smallLive.moment comingAndGoing i).tree.home = [] ∧
    ((smallLive.moment comingAndGoing i).tree.locate (.ofText "c/z.md")).toOption = some ["c", "z.md"] ∧
    ((smallLive.moment comingAndGoing i).tree.locate (.ofText "c/a.md")).toOption = some ["c", "a.md"] := by
  decide +kernel

/-- What is edited can be edited, and what has been applied can be opened. -/
theorem files_comingAndGoing :
    ((Edit.write (.ofText "c/z.md") (Text.encodeUtf8 ['n', 'e', 'w']) 5).apply smallLive.tree).toOption.isSome = true ∧
    ((Edit.delete (.ofText "c/a.md")).apply (smallLive.moment comingAndGoing 1).tree).toOption.isSome = true ∧
    cameAndWent.tree.entry? ["c", "a.md"] = none ∧ cameAndWent.tree.entry? ["o", "manifest.json"] ≠ some .directory ∧
    (listedModules cameAndWent.tree (.ofText "o")).toOption = some [("@pages/z.md", .ofText "o/z.py")] ∧
    (compileFile smallSettings.compileRules cameAndWent.tree (smallSettings.buildRules.sourcePath addedPage)
      (some smallSettings.buildRules.root)).toOption.isSome = true ∧
    cameAndWent.provider.callers.length = 0 := by
  decide +kernel

section

variable {i : Nat} (hi : i < 12)
include hi

theorem rules_comingAndGoing : (smallLive.moment comingAndGoing i).rules = smallSettings.buildRules := by
  have huntouched : smallLive.Untouched := ⟨rfl, rfl, rfl⟩
  have hlength : i ≤ comingAndGoing.length := Nat.le_of_lt (hi.trans (by decide))
  exact (Live.attended_moment huntouched hlength).1.rules_eq

theorem leads_addedPage : (smallLive.moment comingAndGoing i).rules.Leads
    (smallLive.moment comingAndGoing i).tree (.ofText "c/z.md") addedPage := by
  obtain ⟨-, -, hhome, hlocates, -⟩ := moments_comingAndGoing i hi
  rw [BuildRules.Leads, rules_comingAndGoing hi, hhome, place_addedPage]
  exact Except.toOption_eq_some_iff.1 hlocates

theorem leads_deletedPage : (smallLive.moment comingAndGoing i).rules.Leads
    (smallLive.moment comingAndGoing i).tree (.ofText "c/a.md") smallPage := by
  obtain ⟨-, -, hhome, -, hlocates⟩ := moments_comingAndGoing i hi
  rw [BuildRules.Leads, rules_comingAndGoing hi, hhome, place_deletedPage]
  exact Except.toOption_eq_some_iff.1 hlocates

theorem idle_comingAndGoing (hidle : i ∈ [0, 1, 2, 5, 11]) : (smallLive.moment comingAndGoing i).watcher = .idle := by
  obtain ⟨-, hwatcher, -⟩ := moments_comingAndGoing i hi
  rw [Watcher.isIdle_iff.symm, hwatcher]
  exact decide_eq_true hidle

end

theorem heard_addedPage : Live.Heard smallLive comingAndGoing 5 addedPage :=
  ⟨["c/z.md"], rfl, idle_comingAndGoing (by decide) (by decide), .ofText "c/z.md", by simp [changedPaths_addedPage],
    leads_addedPage (by decide)⟩

theorem heard_deletedPage : Live.Heard smallLive comingAndGoing 2 smallPage :=
  ⟨["c/a.md"], rfl, idle_comingAndGoing (by decide) (by decide), .ofText "c/a.md", by simp [places_smallPage.2.2.2],
    leads_deletedPage (by decide)⟩

/-- What is not quiet: the source of each page is changed, and then reported. -/
theorem loud_comingAndGoing {i : Nat} {h : Live.Happening} (hact : comingAndGoing[i]? = some h)
    (hloud : h.isQuiet = false) :
    i = 0 ∧ h = .edit (.write (.ofText "c/z.md") (Text.encodeUtf8 ['n', 'e', 'w']) 5) ∨
      i = 1 ∧ h = .edit (.delete (.ofText "c/a.md")) ∨
      i = 2 ∧ h = .act (.report ["c/a.md"]) ∨ i = 5 ∧ h = .act (.report ["c/z.md"]) := by
  rcases Nat.lt_or_ge i 6 with hi | hi
  · match i, hi with
    | 0, _ => exact .inl ⟨rfl, (Option.some.inj hact).symm⟩
    | 1, _ => exact .inr (.inl ⟨rfl, (Option.some.inj hact).symm⟩)
    | 2, _ => exact .inr (.inr (.inl ⟨rfl, (Option.some.inj hact).symm⟩))
    | 3, _ | 4, _ =>
      obtain rfl := Option.some.inj hact
      cases hloud
    | 5, _ => exact .inr (.inr (.inr ⟨rfl, (Option.some.inj hact).symm⟩))
  · rw [isQuiet_comingAndGoing hi hact] at hloud
    cases hloud

theorem proper_comingAndGoing {i : Nat} {h : Live.Happening} (hact : comingAndGoing[i]? = some h) :
    (smallLive.moment comingAndGoing i).Proper h := by
  cases hquiet : h.isQuiet with
  | true => exact Live.proper_of_quiet hquiet
  | false =>
    have hfirst : i < 12 := Nat.lt_of_not_ge fun hi => by
      simp [isQuiet_comingAndGoing (Nat.le_trans (by decide) hi) hact] at hquiet
    have hrules := rules_comingAndGoing hfirst
    obtain ⟨-, -, hhome, -⟩ := moments_comingAndGoing i hfirst
    rcases loud_comingAndGoing hact hquiet with ⟨-, rfl⟩ | ⟨-, rfl⟩ | ⟨-, rfl⟩ | ⟨-, rfl⟩
    · rw [Live.Proper, hrules, hhome]
      exact ⟨Path.isSpelled_ofText _, addedPage, place_addedPage.symm⟩
    · rw [Live.Proper, hrules, hhome]
      exact ⟨Path.isSpelled_ofText _, smallPage, place_deletedPage.symm⟩
    · rw [Live.Proper, places_smallPage.2.2.2]
      exact fun p hp => ⟨smallPage, List.mem_singleton.1 hp ▸ leads_deletedPage hfirst⟩
    · rw [Live.Proper, changedPaths_addedPage]
      exact fun p hp => ⟨addedPage, List.mem_singleton.1 hp ▸ leads_addedPage hfirst⟩

theorem told_comingAndGoing (n : PageName) : Live.Told smallLive comingAndGoing 11 n := by
  intro i h hi hact hchanges
  have hhome : ∀ i < 12, (smallLive.moment comingAndGoing i).tree.home = [] := fun i hi =>
    (moments_comingAndGoing i hi).2.2.1
  cases hquiet : h.isQuiet with
  | true => exact absurd hchanges (Live.not_changes_of_quiet hquiet)
  | false =>
    rcases loud_comingAndGoing hact hquiet with ⟨rfl, rfl⟩ | ⟨rfl, rfl⟩ | ⟨-, rfl⟩ | ⟨-, rfl⟩
    · obtain ⟨-, hplace⟩ := hchanges
      rw [rules_comingAndGoing (by decide), hhome 0 (by decide)] at hplace
      obtain rfl : addedPage = n := PageName.source_inj (List.append_cancel_left (place_addedPage.trans hplace))
      exact ⟨5, by decide, by decide, heard_addedPage⟩
    · obtain ⟨-, hplace⟩ := hchanges
      rw [rules_comingAndGoing (by decide), hhome 1 (by decide)] at hplace
      obtain rfl : smallPage = n := PageName.source_inj (List.append_cancel_left (place_deletedPage.trans hplace))
      exact ⟨2, by decide, by decide, heard_deletedPage⟩
    · exact hchanges.elim
    · exact hchanges.elim

/-- All that is edited is reported, and what is rebuilt compiles. -/
theorem settles_comingAndGoing : Live.Settles smallLive comingAndGoing 11 where
  within := by decide
  proper _ _ := proper_comingAndGoing
  compiles i hi := Live.turnCompiles_of (moments_comingAndGoing i (Nat.lt_succ_of_lt hi)).1
  idle := idle_comingAndGoing (by decide) (by decide)
  told := told_comingAndGoing
  quiet i h hi hact := isQuiet_comingAndGoing (Nat.le_trans (by decide) hi) hact

theorem changed_addedPage : Live.Changed smallLive comingAndGoing 11 addedPage := by
  obtain ⟨hwrites, -⟩ := files_comingAndGoing
  obtain ⟨tree, htree⟩ := Option.isSome_iff_exists.1 hwrites
  refine ⟨0, _, by decide, rfl, ⟨tree, Except.toOption_eq_some_iff.1 htree⟩, ?_⟩
  rw [rules_comingAndGoing (by decide), (moments_comingAndGoing 0 (by decide)).2.2.1, place_addedPage]
  rfl

theorem changed_deletedPage : Live.Changed smallLive comingAndGoing 11 smallPage := by
  obtain ⟨-, hdeletes, -⟩ := files_comingAndGoing
  obtain ⟨tree, htree⟩ := Option.isSome_iff_exists.1 hdeletes
  refine ⟨1, _, by decide, rfl, ⟨tree, Except.toOption_eq_some_iff.1 htree⟩, ?_⟩
  rw [rules_comingAndGoing (by decide), (moments_comingAndGoing 1 (by decide)).2.2.1, place_deletedPage]
  rfl

theorem compiles_addedPage : ∃ a, compileFile smallSettings.compileRules cameAndWent.tree
    (smallSettings.buildRules.sourcePath addedPage) (some smallSettings.buildRules.root) = .ok a := by
  obtain ⟨-, -, -, -, -, hcompiles, -⟩ := files_comingAndGoing
  obtain ⟨a, ha⟩ := Option.isSome_iff_exists.1 hcompiles
  exact ⟨a, Except.toOption_eq_some_iff.1 ha⟩

theorem gone_deletedPage : ¬ cameAndWent.tree.IsPage smallSettings.buildRules.root smallPage := by
  rintro ⟨bytes, modified, hsource⟩
  obtain ⟨-, -, hnone, -⟩ := files_comingAndGoing
  have hhome : cameAndWent.tree.home = [] := (moments_comingAndGoing 11 (by decide)).2.2.1
  rw [FileTree.HasSource, hhome, place_deletedPage, hnone] at hsource
  cases hsource

theorem manifest_cameAndWent : cameAndWent.tree.entry?
    (smallSettings.buildRules.out.place cameAndWent.tree.home ++ [Manifest.fileName]) ≠ some .directory := by
  obtain ⟨-, -, -, hfree, -⟩ := files_comingAndGoing
  have hhome : cameAndWent.tree.home = [] := (moments_comingAndGoing 11 (by decide)).2.2.1
  rw [hhome, place_manifest]
  exact hfree

theorem late_cameAndWent (id : Nat) : Provider.Late cameAndWent.provider id := by
  obtain ⟨-, -, -, -, -, -, hnone⟩ := files_comingAndGoing
  intro c hc
  exact absurd (List.getElem?_eq_some_iff.1 hc).1 (by simp [hnone])

theorem start_cameAndWent : Server.start cameAndWent.tree smallSettings false = .ok freshServer := by
  obtain ⟨-, -, -, -, hlisted, -⟩ := files_comingAndGoing
  have hlisted : listedModules cameAndWent.tree (.ofText smallSettings.outputDir)
    = .ok [("@pages/z.md", .ofText "o/z.py")] := Except.toOption_eq_some_iff.1 hlisted
  rw [Server.start]
  simp only [Bool.false_eq_true, if_false, hlisted]
  rfl

/-- Of two callers the first has been told that there is no such page, the second that its module cannot be
    read. -/
def toldSo : List (Caller LoaderError) → Bool
  | [⟨z, none, .finished (.failed (.notFound missing))⟩,
      ⟨a, none, .finished (.failed (.loader (.importing (.read (.file _)))))⟩] =>
    z == "z" && a == "a" && missing == ⟨"z", ["a"]⟩
  | _ => false

theorem toldSo_iff {callers : List (Caller LoaderError)} : toldSo callers = true ↔ ∃ cause, callers =
    [⟨"z", none, .finished (.failed (.notFound ⟨"z", ["a"]⟩))⟩,
      ⟨"a", none, .finished (.failed (.loader (.importing (.read (.file cause)))))⟩] := by
  constructor
  · intro h
    unfold toldSo at h
    split at h
    · simp only [Bool.and_eq_true, beq_iff_eq] at h
      obtain ⟨⟨rfl, rfl⟩, rfl⟩ := h
      exact ⟨_, rfl⟩
    · cases h
  · rintro ⟨cause, rfl⟩
    rfl

/-- Who has asked has been told so. -/
theorem callers_answeredAfter : ∃ cause, answeredAfter.provider.callers =
    [⟨"z", none, .finished (.failed (.notFound ⟨"z", ["a"]⟩))⟩,
      ⟨"a", none, .finished (.failed (.loader (.importing (.read (.file cause)))))⟩] :=
  toldSo_iff.1 (by decide +kernel)

theorem resolve_addedPage : freshServer.provider.resolve addedPage.slug
    = .ok (keyFor smallSettings.contentAlias addedPage.slug) :=
  Except.toOption_eq_some_iff.1 keys_comingAndGoing.2.1

theorem resolve_deletedPage : smallLive.provider.resolve smallPage.slug
    = .ok (keyFor smallSettings.contentAlias smallPage.slug) :=
  Except.toOption_eq_some_iff.1 keys_comingAndGoing.1

theorem isServable_addedPage : addedPage.IsServable :=
  ⟨by decide, by decide⟩

/-- The fresh provider has the page that was added, and not the one that was deleted. The provider of the site tells
    who asks for the one what there was, and who asks for the other that a file cannot be read. -/
theorem smallSite_keeps_opening_keys : ∃ modules,
    builtSite.IsProper ∧ builtSite.isDirectory smallSettings.buildRules.root = true ∧
    Site.start builtSite smallSettings false = .ok smallLive.site ∧
    Ledger smallSettings.buildRules builtSite modules ∧ Live.Settles smallLive comingAndGoing 11 ∧
    cameAndWent.tree.entry? (smallSettings.buildRules.out.place cameAndWent.tree.home ++ [Manifest.fileName])
      ≠ some .directory ∧
    ∃ fresh, Server.start cameAndWent.tree smallSettings false = .ok fresh ∧
      (∃ a, (fresh.load cameAndWent.tree addedPage.slug).1 = .ok a) ∧
      keyFor smallSettings.contentAlias smallPage.slug ∉ fresh.backend.keys ∧
      (∃ e, smallLive.provider.resolve "z" = .error e ∧
        answeredAfter.provider.callers[0]? = some ⟨"z", none, .finished (.failed e)⟩) ∧
      ∃ e, answeredAfter.provider.callers[1]? = some ⟨"a", none, .finished (.failed (.loader e))⟩ ∧
        e.IsUnreadable := by
  obtain ⟨modules, hbuilt⟩ := exists_built_builtSite
  obtain ⟨fresh, hfresh, hkeeps⟩ := reload_keeps_opening_keys hbuilt.proper hbuilt.root start_builtSite
    (fun _ => hbuilt.ledger) settles_comingAndGoing fun _ => manifest_cameAndWent
  obtain rfl : freshServer = fresh := Except.ok.inj (start_cameAndWent.symm.trans hfresh)
  obtain ⟨a, ha⟩ := compiles_addedPage
  obtain ⟨-, hadded⟩ := hkeeps.added addedPage a changed_addedPage isServable_addedPage ha
  have hdeleted := hkeeps.deleted smallPage changed_deletedPage gone_deletedPage
  obtain ⟨cause, hcallers⟩ := callers_answeredAfter
  have hfirst := (congrArg (·[0]?) hcallers).trans List.getElem?_cons_zero
  have hsecond := (congrArg (·[1]?) hcallers).trans List.getElem?_cons_succ
  obtain ⟨-, -, hunknown, -⟩ := keys_comingAndGoing
  obtain ⟨e, he⟩ : ∃ e, smallLive.provider.resolve "z" = .error e := by
    cases hresolve : smallLive.provider.resolve "z" with
    | ok key => simp [hresolve, Except.toOption] at hunknown
    | error e => exact ⟨e, rfl⟩
  have houtcome := hkeeps.unknown 0 _ _ e hfirst rfl (by simp) he
  obtain ⟨-, hunreadable⟩ := hkeeps.known smallPage 1 _ _ resolve_deletedPage (by decide) (late_cameAndWent 1) hsecond
    rfl rfl (by simp)
  obtain ⟨e', houtcome', he'⟩ := hunreadable hdeleted
  exact ⟨modules, hbuilt.proper, hbuilt.root, start_builtSite, hbuilt.ledger, settles_comingAndGoing,
    manifest_cameAndWent, freshServer, start_cameAndWent, ⟨a, hadded resolve_addedPage⟩, hdeleted,
    ⟨e, he, houtcome ▸ hfirst⟩, e', houtcome' ▸ hsecond, he'⟩

/-- The provider of the site does not give for these pages what the fresh one gives. -/
theorem running_differs_from_fresh :
    Site.start builtSite smallSettings false = .ok smallLive.site ∧ Live.Settles smallLive comingAndGoing 11 ∧
    Server.start cameAndWent.tree smallSettings false = .ok freshServer ∧
    (∃ a, (freshServer.load cameAndWent.tree "z").1 = .ok a) ∧
    (freshServer.load cameAndWent.tree "a").1 = .error (.load (.notFound ⟨"a", ["z"]⟩)) ∧
    ∃ cause, answeredAfter.provider.callers =
      [⟨"z", none, .finished (.failed (.notFound ⟨"z", ["a"]⟩))⟩,
        ⟨"a", none, .finished (.failed (.loader (.importing (.read (.file cause)))))⟩] := by
  refine ⟨start_builtSite, settles_comingAndGoing, start_cameAndWent, ?_, ?_, callers_answeredAfter⟩
  · obtain ⟨modules, hbuilt⟩ := exists_built_builtSite
    obtain ⟨ns, ns', modules', hsite, hfresh, hrest⟩ := Live.exists_atRest hbuilt.proper hbuilt.root start_builtSite
      (fun _ => hbuilt.ledger) settles_comingAndGoing fun _ => manifest_cameAndWent
    have hopened : smallLive = Live.openedPages builtSite smallSettings false ns := by
      rw [Live.openedPages, ← hsite]
      rfl
    have hserver : freshServer = pagesServer smallSettings false ns' :=
      Except.ok.inj (start_cameAndWent.symm.trans hfresh)
    obtain ⟨a, ha⟩ := compiles_addedPage
    have hchanged := changed_addedPage
    rw [hopened] at hchanged
    obtain ⟨-, hload⟩ := hrest.mem_of_compiles hchanged isServable_addedPage (a := a) (by rw [← hopened]; exact ha)
    refine ⟨a, ?_⟩
    have hresolve := resolve_addedPage
    rw [hserver] at hresolve ⊢
    refine (Live.load_pagesServer hresolve).trans ?_
    rw [show cameAndWent = (Live.openedPages builtSite smallSettings false ns).moment comingAndGoing 11 by
      rw [← hopened, cameAndWent], hload]
    rfl
  · obtain ⟨-, -, -, hmissing⟩ := keys_comingAndGoing
    have hsettled : Server.Settled cameAndWent.tree freshServer := Server.settled_serve _ _ _ _
    rw [hsettled.load, Server.fetch]
    split at hmissing
    · next heq =>
      rw [heq, beq_iff_eq.1 hmissing]
      rfl
    · cases hmissing

end Folio
