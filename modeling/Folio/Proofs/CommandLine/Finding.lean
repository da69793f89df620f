import Folio.Proofs.CommandLine.Rereading
import Folio.Proofs.Server.Agreement
import Folio.Proofs.Server.Collecting

set_option autoImplicit false

/-! # What was built is found

A build and the commands after it share the output directory and nothing else: each reads its settings anew. A page is shown
if the formats of keys and what keys start with, as they are for the command, make of its slug the key that the build gave
it; all pages are listed and checked if each of these keys is read back. -/

namespace Folio

namespace CommandLine

variable {environment : List (String × String)} {batches : List Batch} {tree tree' : FileTree} {words : List String}
  {common g : Given} {command : String} {s : Settings} {artifacts artifacts' : List Artifact}
  {overrides : List (String × Value)}

/-! ## Builds that exit cleanly -/

/-- A build that comes to its pages says so and exits with status 0. -/
theorem report_of_build (batches : List Batch) (h : Invokes tree words common "build" g)
    (hsettings : readSettings environment (overridesOf "build" g) tree = .ok s) {pages : List BuiltPage}
    (hwork : (build s.buildRules).result tree = (.ok pages, tree')) :
    (report environment batches tree words).tree = tree' ∧
      (Finish.completes (builtLines s pages) 0).Shows (report environment batches tree words) := by
  have hlog := not_logFails_of_readSettings hsettings common
  refine ⟨?_, (ComesTo.built hsettings hwork).shows_report h hlog batches⟩
  rw [report_of_not_fails h hlog, Run.report, perform_build hsettings, buildSite_of_ok (s := ⟨tree, [], []⟩) hwork]
  rfl

/-- A build that exits with status 0 has built its pages. -/
theorem exists_build (h : Invokes tree words common "build" g)
    (hending : (report environment batches tree words).ending = .exit 0) : ∃ s pages tree',
      readSettings environment (overridesOf "build" g) tree = .ok s ∧
      (build s.buildRules).result tree = (.ok pages, tree') := by
  have hlog : ∀ cause, ¬ LogFails environment tree common cause := fun cause hfails => by
    cases (report_of_fails h hfails).symm.trans hending
  cases hsettings : readSettings environment (overridesOf "build" g) tree with
  | error e =>
    cases he : expected? e with
    | some message =>
      have hshows := (ComesTo.refused (.inl rfl) hsettings he).shows_report h hlog batches
      cases hshows.2.2.symm.trans hending
    | none =>
      have hshows := (ComesTo.unset (.inl rfl) hsettings he).shows_report h hlog batches
      cases hshows.symm.trans hending
  | ok s =>
    rcases hwork : (build s.buildRules).result tree with ⟨result, tree'⟩
    cases result with
    | ok pages => exact ⟨s, pages, tree', rfl, hwork⟩
    | error e =>
      by_cases he : ∃ cause, e = .compile cause
      · obtain ⟨cause, rfl⟩ := he
        have hshows := (ComesTo.uncompiled hsettings hwork).shows_report h hlog batches
        cases hshows.2.2.symm.trans hending
      · have hshows := (ComesTo.unbuilt hsettings hwork fun cause hcause => he ⟨cause, hcause⟩).shows_report h hlog batches
        cases hshows.symm.trans hending

theorem build_eq_ok_of_result {rules : BuildRules} {pages : List BuiltPage}
    (h : (build rules).result tree = (.ok pages, tree')) : build rules tree = .ok pages tree' := by
  have hok : build rules tree = .ok pages ((build rules).result tree).2 := Building.eq_ok_of_result (by rw [h]; rfl)
  rw [hok, h]

/-- The output directory of a build holds the artifacts of some pages: each can be read from its module, and the manifest
    lists the modules. -/
structure Holds (rules : BuildRules) (tree : FileTree) (es : List (Path × PageName)) (ns : List PageName)
    (artifacts : List Artifact) : Prop where
  artifacts : List.Forall₂ (fun e a => IsArtifactOf rules tree (rules.pageOf e) a) es artifacts
  nodup : (es.map Prod.snd).Nodup
  servable : ∀ e ∈ es, e.2.IsServable
  listed : listedModules tree rules.out = .ok (keyedPages rules.keyStart rules.modulePath ns)
  perm : ns.Perm (es.map Prod.snd)

theorem isServable_ofRoot : PageName.ofRoot.IsServable :=
  ⟨by decide, by decide⟩

/-- After a build the output directory holds its pages. -/
theorem exists_holds (hproper : tree.IsProper) {rules : BuildRules} (hout : rules.out.IsSpelled) {pages : List BuiltPage}
    (h : build rules tree = .ok pages tree') (hservable : ∀ n, tree.IsPage rules.root n → n.IsServable) :
    FileTree.Alters IsTouched tree tree' ∧ ∃ es ns artifacts, pages = es.map rules.pageOf ∧
      Holds rules tree' es ns artifacts := by
  obtain ⟨halters, es, hpages, hnodup, hes, hledger, hread⟩ := modules_of_build hproper hout h
  obtain ⟨ns, hlisted, hperm⟩ := hledger.listedModules hread
  have hservable : ∀ e ∈ es, e.2.IsServable := by
    intro e he
    rcases (hes e he).1.page with hpage | hroot
    · have hspared : ¬ IsTouched (rules.root.place tree.home ++ e.2.source) := fun htouched =>
        htouched.ne_source (Path.lastChar?_source _ e.2)
      exact hservable e.2 ((halters.isPage_iff hspared).1 hpage)
    · exact hroot ▸ isServable_ofRoot
  obtain ⟨artifacts, hartifacts⟩ := exists_forall₂ fun e he =>
    (hes e he).2.exists_artifact (hes e he).1 (hservable e he).fitsLine
  refine ⟨halters, es, ns, artifacts, hpages, hartifacts, hnodup, hservable, hlisted, ?_⟩
  exact (List.map_perm_map_iff fun _ _ heq => BuildRules.entry_inj (congrArg Prod.fst heq)).1 hperm

/-! ## Commands after a build -/

/-- The catalogue of pages that a command with some settings has. -/
def catalogueOf (s : Settings) (pages : List BuiltPage) : Catalogue :=
  .make s.contentAlias s.keyFormats (pages.map BuiltPage.key)

/-- A list without filters. -/
def IsUnfiltered (g : Given) : Prop :=
  g.option? "--type" = none ∧ g.all "--tag" = [] ∧ g.option? "--category" = none

/-- What a list without filters shows of some pages, with the lines for them. -/
def listing (lines : List String) : Finish :=
  if lines.isEmpty then .completes ["No content found."] 1 else .completes lines 0

/-- What a check shows of some pages, with the reports on them. -/
def checking (artifacts : List Artifact) (reports : List (List String)) : Finish :=
  let wrong := reports.countP (!·.isEmpty)
  .completes (reports.flatten ++ [checkedLine artifacts.length wrong]) (if wrong = 0 then 0 else 1)

theorem bySlug_congr (h : artifacts'.Perm artifacts) (hnodup : (artifacts.map Artifact.slug).Nodup) :
    bySlug artifacts' = bySlug artifacts := by
  have hle : ∀ a b : Artifact, (decide (a.slug < b.slug) || a.slug == b.slug) = true ↔ a.slug ≤ b.slug := fun a b => by
    rw [Bool.or_eq_true, decide_eq_true_eq, beq_iff_eq, Std.le_iff_lt_or_eq]
  have hsorted : ∀ as : List Artifact, (bySlug as).Pairwise fun a b => a.slug ≤ b.slug := fun as => by
    refine (List.pairwise_mergeSort (fun a b c hab hbc => ?_) (fun a b => ?_) as).imp fun {a b} => (hle a b).1
    · exact (hle a c).2 (String.le_trans ((hle a b).1 hab) ((hle b c).1 hbc))
    · rw [Bool.or_eq_true, hle, hle]
      exact String.le_total _ _
  refine List.Perm.eq_of_pairwise (fun a b ha hb hab hba => ?_) (hsorted _) (hsorted _) ?_
  · have hmem : a ∈ artifacts := h.mem_iff.1 (List.mem_mergeSort.1 ha)
    exact List.inj_on_of_nodup_map hnodup hmem (List.mem_mergeSort.1 hb) (String.le_antisymm hab hba)
  · exact (List.mergeSort_perm _ _).trans (h.trans (List.mergeSort_perm _ _).symm)

namespace Holds

variable {rules : BuildRules} {es : List (Path × PageName)} {ns : List PageName} {process : Process}

theorem mem_keys_iff (h : Holds rules tree es ns artifacts) (key : String) :
    key ∈ (ns.map PageName.slug).map (keyFor rules.keyStart) ↔ key ∈ (es.map rules.pageOf).map BuiltPage.key := by
  rw [((h.perm.map PageName.slug).map (keyFor rules.keyStart)).mem_iff]
  simp only [List.map_map]
  rfl

theorem nodup_slugs (h : Holds rules tree es ns artifacts) : (artifacts.map Artifact.slug).Nodup := by
  have hslugs : artifacts.map Artifact.slug = (es.map Prod.snd).map PageName.slug := by
    have hsame : List.Forall₂ Eq (artifacts.map Artifact.slug) ((es.map Prod.snd).map PageName.slug) := by
      rw [List.forall₂_map_left_iff, List.forall₂_map_right_iff, List.forall₂_map_right_iff]
      exact h.artifacts.flip.imp fun _ _ hartifact => hartifact.slug
    exact List.forall₂_eq_eq_eq ▸ hsame
  exact hslugs ▸ h.nodup.map fun _ _ => PageName.slug_inj

/-- A command that looks into the output directory opens a server of its modules. -/
theorem opens (h : Holds rules tree es ns artifacts) (hanswers : Answers command)
    (hsettings : readSettings environment (overridesOf command g) (tree.inProcess process) = .ok s)
    (hout : .ofText s.outputDir = rules.out) :
    Opens environment (tree.inProcess process) g command
      ((Backend.compiled (keyedPages rules.keyStart rules.modulePath ns)).serve s.contentAlias s.keyFormats) := by
  refine ⟨hanswers, s, hsettings, ?_⟩
  rw [Server.start_inProcess]
  exact Server.start_of_listed (hout ▸ h.listed)

/-- A page that can be printed is shown if its slug has its key. -/
theorem shown (h : Holds rules tree es ns artifacts) (hinvokes : Invokes (tree.inProcess process) words common "show" g)
    (hsettings : readSettings environment (overridesOf "show" g) (tree.inProcess process) = .ok s)
    (hout : .ofText s.outputDir = rules.out) {a : Artifact} (ha : a ∈ artifacts) (hword : g.words.head? = some a.slug)
    (hkey : (catalogueOf s (es.map rules.pageOf)).keyFor a.slug = .ok (some (keyFor rules.keyStart a.slug)))
    (hprintable : Json.firstBrokenMember? a.frontmatter = none) :
    (Finish.completes [a.exchangeText] 0).Shows (report environment batches (tree.inProcess process) words) := by
  have hsource : ∀ a ∈ artifacts, ∃ e ∈ es, IsArtifactOf rules tree (rules.pageOf e) a :=
    forall_mem_right h.artifacts fun e he a hartifact => ⟨e, he, hartifact⟩
  obtain ⟨e, he, hartifact⟩ := hsource a ha
  have hslug : a.slug = e.2.slug := hartifact.slug
  rw [catalogueOf, ← Catalogue.keyFor_congr h.mem_keys_iff, hslug] at hkey
  refine (ComesTo.shown (h.opens (answers_iff.2 (.inr (.inl rfl))) hsettings hout) ?_ hprintable).shows_report hinvokes
    (not_logFails_of_readSettings hsettings common) batches
  rw [hword, Option.getD_some, (Server.settled_serve _ _ _ _).load, hslug,
    Server.fetch_listed (h.perm.mem_iff.2 (List.mem_map_of_mem he)) (hartifact.module process) hkey]
  rfl

/-- All pages are loaded if each key is read back. -/
theorem loads (h : Holds rules tree es ns artifacts) (process : Process)
    (hleads : ∀ page ∈ es.map rules.pageOf, (catalogueOf s (es.map rules.pageOf)).Leads page.key page.key)
    (filters : Option ContentFilters) (hpass : ∀ f, filters = some f → ∀ a, f.isMatch a = .ok true) :
    ∃ artifacts' : List Artifact, artifacts'.Perm artifacts ∧
      (((Backend.compiled (keyedPages rules.keyStart rules.modulePath ns)).serve s.contentAlias s.keyFormats).loadAll
        (tree.inProcess process) filters).1 = .ok artifacts' := by
  have himports : List.Forall₂ (fun n a => importArtifact (tree.inProcess process) (rules.modulePath n) = .ok a)
      (es.map Prod.snd) artifacts := by
    rw [List.forall₂_map_left_iff]
    exact h.artifacts.imp fun _ _ hartifact => hartifact.module process
  obtain ⟨artifacts', hartifacts', hperm⟩ := List.perm_comp_forall₂ h.perm himports
  have hback : ∀ n ∈ ns, (Catalogue.make s.contentAlias s.keyFormats
      ((ns.map PageName.slug).map (keyFor rules.keyStart))).Leads (keyFor rules.keyStart n.slug)
        (keyFor rules.keyStart n.slug) := by
    intro n hn
    obtain ⟨e, he, rfl⟩ := List.mem_map.1 (h.perm.mem_iff.1 hn)
    rw [Catalogue.leads_congr h.mem_keys_iff]
    exact hleads (rules.pageOf e) (List.mem_map_of_mem he)
  exact ⟨artifacts', hperm, Server.loadAll_listed hartifacts' hback fun f hf a _ => hpass f hf a.header⟩

/-- All pages, if their lines can be printed, are listed if each key is read back. -/
theorem lists (h : Holds rules tree es ns artifacts) (hinvokes : Invokes (tree.inProcess process) words common "list" g)
    (hsettings : readSettings environment (overridesOf "list" g) (tree.inProcess process) = .ok s)
    (hout : .ofText s.outputDir = rules.out)
    (hleads : ∀ page ∈ es.map rules.pageOf, (catalogueOf s (es.map rules.pageOf)).Leads page.key page.key)
    (hunfiltered : IsUnfiltered g) {lines : List String} (hlines : (bySlug artifacts).mapM listLine = .ok lines) :
    (listing lines).Shows (report environment batches (tree.inProcess process) words) := by
  obtain ⟨htype, htags, hcategory⟩ := hunfiltered
  have hfilters : filtersOf "list" g = some {} := by
    rw [filtersOf, if_pos rfl, htype, htags, hcategory]
  obtain ⟨artifacts', hperm, hloads⟩ := h.loads process hleads (filtersOf "list" g) fun f hf header => by
    obtain rfl := Option.some.inj (hfilters.symm.trans hf)
    rfl
  have hopens := h.opens (g := g) (answers_iff.2 (.inl rfl)) hsettings hout
  have hlog := not_logFails_of_readSettings hsettings common
  rw [← bySlug_congr hperm h.nodup_slugs] at hlines
  have hlength : lines.length = artifacts'.length := by
    rw [← (mapM_eq_ok_iff.1 hlines).length_eq, bySlug, List.length_mergeSort]
  rw [listing]
  split
  · next hempty =>
    obtain rfl : artifacts' = [] := List.eq_nil_of_length_eq_zero (hlength ▸ by simpa using hempty)
    exact (ComesTo.empty hopens hloads).shows_report hinvokes hlog batches
  · next hsome =>
    refine (ComesTo.listed hopens hloads (fun hempty => hsome ?_) hlines).shows_report hinvokes hlog batches
    rw [hempty, List.length_nil, List.length_eq_zero_iff] at hlength
    rw [hlength, List.isEmpty_nil]

/-- All pages are checked if each key is read back. -/
theorem checks (h : Holds rules tree es ns artifacts)
    (hinvokes : Invokes (tree.inProcess process) words common "validate" g)
    (hsettings : readSettings environment (overridesOf "validate" g) (tree.inProcess process) = .ok s)
    (hout : .ofText s.outputDir = rules.out)
    (hleads : ∀ page ∈ es.map rules.pageOf, (catalogueOf s (es.map rules.pageOf)).Leads page.key page.key)
    {reports : List (List String)} (hreports : (bySlug artifacts).mapM pageReport = .ok reports) :
    (checking artifacts reports).Shows (report environment batches (tree.inProcess process) words) := by
  obtain ⟨artifacts', hperm, hloads⟩ := h.loads process hleads (filtersOf "validate" g) fun f hf header => by
    cases hf
  rw [← bySlug_congr hperm h.nodup_slugs] at hreports
  have hopens := h.opens (g := g) (answers_iff.2 (.inr (.inr rfl))) hsettings hout
  rw [checking, ← hperm.length_eq]
  exact (ComesTo.checked hopens hloads hreports).shows_report hinvokes (not_logFails_of_readSettings hsettings common) batches

/-- With the default formats, and with keys that start as those of the build, each slug has its key, and each key is read
    back if the slug's place in it can be marked. -/
theorem default_formats (h : Holds rules tree es ns artifacts) (hformats : s.keyFormats = defaultKeyFormats)
    (hstart : ∀ slug, keyFor s.contentAlias slug = keyFor rules.keyStart slug) :
    (∀ page ∈ es.map rules.pageOf, (catalogueOf s (es.map rules.pageOf)).keyFor page.slug = .ok (some page.key)) ∧
      ('\x00' ∉ s.contentAlias.toList → ∀ page ∈ es.map rules.pageOf,
        (catalogueOf s (es.map rules.pageOf)).Leads page.key page.key) := by
  have hkey : ∀ page ∈ es.map rules.pageOf,
      page.key = keyFor s.contentAlias page.slug ∧ (page.slug ≠ "") ∧
        (catalogueOf s (es.map rules.pageOf)).keyFor page.slug = .ok (some page.key) := by
    intro page hpage
    obtain ⟨e, he, rfl⟩ := List.mem_map.1 hpage
    have hown : (rules.pageOf e).key = keyFor s.contentAlias (rules.pageOf e).slug := (hstart e.2.slug).symm
    refine ⟨hown, PageName.slug_ne_empty (h.servable e he).named, ?_⟩
    rw [catalogueOf, hformats, hown]
    exact Catalogue.keyFor_default (hown ▸ List.mem_map_of_mem hpage)
  refine ⟨fun page hpage => (hkey page hpage).2.2, fun hmark page hpage => ?_⟩
  obtain ⟨hown, hslug, hfound⟩ := hkey page hpage
  refine ⟨page.slug, ?_, hfound⟩
  rw [catalogueOf, hformats, hown]
  exact Catalogue.slugFor_default hmark hslug _

end Holds

/-! ## The result -/

/-- What a command after a build finds of the pages that were built and of their artifacts, with its own settings. -/
structure Finds (s : Settings) (pages : List BuiltPage) (artifacts : List Artifact) (s' : Settings) (command : String)
    (g : Given) (r : Report) : Prop where
  /-- A page whose header has no halves is shown if its slug has the key of the build. -/
  shows : command = "show" → ∀ a ∈ artifacts, g.words.head? = some a.slug →
    (catalogueOf s' pages).keyFor a.slug = .ok (some (keyFor s.contentAlias a.slug)) →
    Json.firstBrokenMember? a.frontmatter = none → (Finish.completes [a.exchangeText] 0).Shows r
  /-- All pages, the line of each of which has no halves, are listed if each key of the build is read back. -/
  lists : command = "list" → IsUnfiltered g → (∀ page ∈ pages, (catalogueOf s' pages).Leads page.key page.key) →
    ∀ lines, (bySlug artifacts).mapM listLine = .ok lines → (listing lines).Shows r
  /-- All pages are checked, each of which can be, if each key of the build is read back. -/
  checks : command = "validate" → (∀ page ∈ pages, (catalogueOf s' pages).Leads page.key page.key) →
    ∀ reports, (bySlug artifacts).mapM pageReport = .ok reports → (checking artifacts reports).Shows r

theorem readSettings_of_textual (hfile : tree.doesExist (.ofText Settings.fileName) = false)
    (h : Settings.areTextual environment overrides = true) :
    readSettings environment overrides tree = .ok (Settings.made environment overrides) := by
  refine readSettings_eq_ok_iff.2 ⟨none, ?_, Settings.load_of_textual h⟩
  rw [settingsText, hfile, if_neg (by simp)]

/-- What is given to a build of a small site, into a directory. -/
def builtInto (out : String) : Given := { options := [("--out-dir", out)], words := ["c"] }

/-- What is given to commands after it. -/
def askedOf (out : String) (words : List String) : Given := { options := [("--out-dir", out)], words := words }

theorem invokes_build : Invokes smallSite ["build", "c", "--out-dir", "o"] {} "build" (builtInto "o") where
  command_mem := by decide
  read := ⟨_, _, rfl, rfl, by decide⟩
  word h := absurd h (by decide)
  file h := absurd h (by decide)

theorem invokes_show (tree : FileTree) :
    Invokes tree ["show", "a", "--out-dir", "o"] {} "show" (askedOf "o" ["a"]) where
  command_mem := by decide
  read := ⟨_, _, rfl, rfl, by decide⟩
  word _ := by decide
  file h := absurd h (by decide)

/-- The settings of a small site. -/
def siteSettings : Settings := { contentRoot := "c", outputDir := "o" }

theorem result_siteSettings : (build siteSettings.buildRules).result smallSite
    = (.ok [⟨.ofText "c/a.md", .ofText "o/a.py", "@content/a.md", "a"⟩], afterBuild smallRules smallSite) := by
  have hrules : siteSettings.buildRules = smallRules := rfl
  rw [hrules, Building.result, build_smallSite]

theorem readSettings_siteSettings :
    readSettings [] (overridesOf "build" (builtInto "o")) smallSite = .ok siteSettings := by
  have hmade : Settings.made [] (overridesOf "build" (builtInto "o")) = siteSettings := by decide
  rw [← hmade]
  exact readSettings_of_textual (by decide) (by decide)

/-- The page of a small site has no halves. -/
theorem firstBrokenMember?_of_smallSite {a : Artifact}
    (h : IsArtifactOf siteSettings.buildRules (afterBuild smallRules smallSite)
      ⟨.ofText "c/a.md", .ofText "o/a.py", "@content/a.md", "a"⟩ a) : Json.firstBrokenMember? a.frontmatter = none := by
  have hcompiled : (compileFile smallRules.compiling (afterBuild smallRules smallSite) (.ofText "c/a.md")
      (some smallRules.root)).toOption.map (fun a => Json.firstBrokenMember? a.frontmatter) = some none := by decide +kernel
  have hsource : compileFile smallRules.compiling _ (.ofText "c/a.md") (some smallRules.root) = .ok a := h.source
  rw [hsource] at hcompiled
  exact Option.some.inj hcompiled

/-- Why pages are not loaded, if commands expect it. -/
def missing? {α : Type} : Except Server.RequestError α → Option String
  | .ok _ => none
  | .error e => loadFailure? e

theorem missing?_eq_some_iff {α : Type} {x : Except Server.RequestError α} {message : String} :
    missing? x = some message ↔ ∃ e, x = .error e ∧ loadFailure? e = some message := by
  cases x <;> simp [missing?]

/-- What is given to a build of a small site with another start of keys. -/
def builtElsewhere : Given := { options := [("--out-dir", "o"), ("--alias", "@site")], words := ["c"] }

/-- The settings of that build. -/
def elsewhereSettings : Settings := { siteSettings with contentAlias := "@site" }

theorem invokes_elsewhere :
    Invokes smallSite ["build", "c", "--out-dir", "o", "--alias", "@site"] {} "build" builtElsewhere where
  command_mem := by decide
  read := ⟨_, _, rfl, rfl, by decide⟩
  word h := absurd h (by decide)
  file h := absurd h (by decide)

theorem invokes_all {command : String} (h : command ∈ ["list", "validate"]) (tree : FileTree) :
    Invokes tree [command, "--out-dir", "o"] {} command (askedOf "o" []) := by
  rcases List.mem_cons.1 h with rfl | h
  · exact ⟨by decide, ⟨_, _, rfl, rfl, by decide⟩, fun h => absurd h (by decide), fun h => absurd h (by decide)⟩
  · obtain rfl := List.mem_singleton.1 h
    exact ⟨by decide, ⟨_, _, rfl, rfl, by decide⟩, fun h => absurd h (by decide), fun h => absurd h (by decide)⟩

theorem result_elsewhere : (build elsewhereSettings.buildRules).result smallSite
    = (.ok [⟨.ofText "c/a.md", .ofText "o/a.py", "@site/a.md", "a"⟩],
        afterBuild elsewhereSettings.buildRules smallSite) := by
  have hbuild : build elsewhereSettings.buildRules smallSite
      = .ok [⟨.ofText "c/a.md", .ofText "o/a.py", "@site/a.md", "a"⟩] (afterBuild elsewhereSettings.buildRules smallSite) :=
    build_eq_ok_afterBuild (by decide +kernel)
  rw [Building.result, hbuild]

section

variable {listed : List (String × Path)} {server : Server} {message : String}

theorem shows_missing (hopens : Opens environment tree (askedOf "o" ["a"]) "show" server)
    (hload : missing? (server.load tree "a").1 = some message) :
    (Finish.fails message none).Shows (report environment batches tree ["show", "a", "--out-dir", "o"]) := by
  obtain ⟨e, he, hexpected⟩ := missing?_eq_some_iff.1 hload
  obtain ⟨-, s, hsettings, -⟩ := id hopens
  exact (ComesTo.missing hopens he hexpected).shows_report (invokes_show tree)
    (not_logFails_of_readSettings hsettings {}) batches

theorem shows_unloaded (hcommand : command ∈ ["list", "validate"])
    (hopens : Opens environment tree (askedOf "o" []) command server)
    (hload : missing? (server.loadAll tree (filtersOf command (askedOf "o" []))).1 = some message) :
    (Finish.fails "Could not load content" (some message)).Shows
      (report environment batches tree [command, "--out-dir", "o"]) := by
  obtain ⟨e, he, hexpected⟩ := missing?_eq_some_iff.1 hload
  obtain ⟨-, s, hsettings, -⟩ := id hopens
  have hall : command ≠ "show" := by
    rintro rfl
    simp at hcommand
  exact (ComesTo.unloaded hall hopens he hexpected).shows_report (invokes_all hcommand tree)
    (not_logFails_of_readSettings hsettings {}) batches

/-- A page of a small site is missed by all commands if it is by the server of the modules that are listed. -/
theorem shows_missing_and_unloaded {message' : String} (hfile : tree.doesExist (.ofText Settings.fileName) = false)
    (htextual : Settings.areTextual environment [override "output_dir" (some "o")] = true)
    (hmade : Settings.made environment [override "output_dir" (some "o")] = s) (hdir : s.outputDir = "o")
    (hlisted : (listedModules tree (.ofText "o")).toOption = some listed)
    (hserver : (Backend.compiled listed).serve s.contentAlias s.keyFormats = server)
    (hload : missing? (server.load tree "a").1 = some message)
    (hloads : ∀ filters ∈ [some {}, none], missing? (server.loadAll tree filters).1 = some message') :
    (Finish.fails message none).Shows (report environment batches tree ["show", "a", "--out-dir", "o"]) ∧
      ∀ command ∈ ["list", "validate"], (Finish.fails "Could not load content" (some message')).Shows
        (report environment batches tree [command, "--out-dir", "o"]) := by
  have hopens : ∀ command asked, Answers command → Opens environment tree (askedOf "o" asked) command server := by
    intro command asked hanswers
    refine ⟨hanswers, s, ?_, hserver ▸ Server.start_of_listed (hdir ▸ Except.toOption_eq_some_iff.1 hlisted)⟩
    rw [overridesOf_of_answers hanswers, ← hmade]
    exact readSettings_of_textual hfile htextual
  refine ⟨shows_missing (hopens _ _ (answers_iff.2 (.inr (.inl rfl)))) hload, fun command hcommand => ?_⟩
  rcases List.mem_cons.1 hcommand with rfl | hlast
  · exact shows_unloaded hcommand (hopens _ _ (answers_iff.2 (.inl rfl))) (hloads _ (by decide))
  · obtain rfl := List.mem_singleton.1 hlast
    exact shows_unloaded hcommand (hopens _ _ (answers_iff.2 (.inr (.inr rfl)))) (hloads _ (by decide))

end

/-- An environment with a format of keys that no build makes. -/
def otherFormats : List (String × String) := [("MDCONTENT_KEY_FORMATS", "/content/\x7bslug\x7d.md")]

/-- The settings of a small site in that environment. -/
def otherSettings : Settings := { siteSettings with keyFormats := ["/content/\x7bslug\x7d.md"] }

end CommandLine

end Folio
