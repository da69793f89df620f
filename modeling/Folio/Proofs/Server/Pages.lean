import Folio.Proofs.Build.Modules
import Folio.Proofs.Catalogue.KeyFormats
import Folio.Proofs.Provider.Deduplication
import Folio.Proofs.Server.Answers

set_option autoImplicit false

/-! # The pages of a server

A server of compiled pages has a key for each page that was built, and under it the module of the page; a
server of sources has the same keys, and under each the source of the page (`keys_compiled`, `keys_sources`). So with the
default formats both resolve the slug of a page to its key, and know the slugs of all pages. -/

namespace Folio

/-! ## Keys of pages -/

/-- The keys of some pages, each with a path of the page. -/
def keyedPages (keyStart : String) (path : PageName → Path) (ns : List PageName) : List (String × Path) :=
  ns.map fun n => (keyFor keyStart n.slug, path n)

section

variable {keyStart : String} {path : PageName → Path} {ns : List PageName}

theorem key_inj {n m : PageName} (h : keyFor keyStart n.slug = keyFor keyStart m.slug) : n = m :=
  PageName.slug_inj (keyFor_inj h)

theorem lookup_keyedPages {n : PageName} (h : n ∈ ns) :
    (keyedPages keyStart path ns).lookup (keyFor keyStart n.slug) = some (path n) := by
  induction ns with
  | nil => simp at h
  | cons m ns ih =>
    rw [keyedPages, List.map_cons, List.lookup_cons]
    by_cases hnm : n = m
    · simp [hnm]
    · have hne : (keyFor keyStart n.slug == keyFor keyStart m.slug) = false :=
        beq_eq_false_iff_ne.2 fun heq => hnm (key_inj heq)
      rw [hne]
      exact ih ((List.mem_cons.1 h).resolve_left hnm)

theorem map_fst_keyedPages :
    (keyedPages keyStart path ns).map Prod.fst = (ns.map PageName.slug).map (keyFor keyStart) := by
  simp [keyedPages]

theorem mem_keyedPages_iff {n : PageName} :
    keyFor keyStart n.slug ∈ (keyedPages keyStart path ns).map Prod.fst ↔ n ∈ ns := by
  rw [map_fst_keyedPages, List.map_map, List.mem_map]
  constructor
  · rintro ⟨m, hm, hkey⟩
    exact key_inj hkey ▸ hm
  · exact fun hn => ⟨n, hn, rfl⟩

end

section

variable {rules : BuildRules} {tree : FileTree} {ns : List PageName}

/-- The sources below a directory by their keys, in the order in which they are found. -/
theorem sourcePages_of_sources (hroot : tree.isDirectory rules.root = true)
    (hns : tree.sources rules.root = ns.map rules.sourcePath) (hnodup : ns.Nodup) (keyStart : String) :
    sourcePages tree rules.root keyStart = keyedPages keyStart rules.sourcePath ns := by
  -- a page that is added is not among those that are there, so it comes after them
  have hfold : ∀ more before : List PageName, (before ++ more).Nodup → (more.map rules.sourcePath).foldl
      (fun pages p =>
        let key := keyFor keyStart (pathSlug tree.home p (some rules.root))
        if pages.any fun e => e.1 == key then pages.map fun e => if e.1 = key then (key, p) else e
        else pages ++ [(key, p)]) (keyedPages keyStart rules.sourcePath before)
      = keyedPages keyStart rules.sourcePath (before ++ more) := by
    intro more
    induction more with
    | nil => exact fun before _ => by rw [List.append_nil]; rfl
    | cons n more ih =>
      intro before hdistinct
      have hnew : n ∉ before := fun hn => (List.nodup_append.1 hdistinct).2.2 n hn n List.mem_cons_self rfl
      have hany : ¬ ((keyedPages keyStart rules.sourcePath before).any fun e => e.1 == keyFor keyStart n.slug) = true := by
        rw [List.any_eq_true]
        rintro ⟨e, he, heq⟩
        have hkey : e.1 ∈ (keyedPages keyStart rules.sourcePath before).map Prod.fst := List.mem_map_of_mem he
        rw [beq_iff_eq.1 heq] at hkey
        exact hnew (mem_keyedPages_iff.1 hkey)
      have hadded : (if (keyedPages keyStart rules.sourcePath before).any fun e => e.1 == keyFor keyStart n.slug then
          (keyedPages keyStart rules.sourcePath before).map fun e =>
            if e.1 = keyFor keyStart n.slug then (keyFor keyStart n.slug, rules.sourcePath n) else e
        else keyedPages keyStart rules.sourcePath before ++ [(keyFor keyStart n.slug, rules.sourcePath n)])
          = keyedPages keyStart rules.sourcePath (before ++ [n]) := by
        rw [if_neg hany, keyedPages, keyedPages, List.map_append]
        rfl
      rw [List.append_cons] at hdistinct ⊢
      rw [List.map_cons, List.foldl_cons, pathSlug_sourcePath hroot n, ← ih _ hdistinct, ← hadded]
  rw [sourcePages, hns]
  exact hfold ns [] hnodup

/-- The sources below a directory by their keys. -/
theorem sourcePages_eq (hproper : tree.IsProper) (hroot : tree.isDirectory rules.root = true) (keyStart : String) :
    ∃ ns : List PageName, sourcePages tree rules.root keyStart = keyedPages keyStart rules.sourcePath ns ∧
      ∀ n, n ∈ ns ↔ tree.IsPage rules.root n := by
  obtain ⟨ns, hns, hpages⟩ := @exists_pages rules _ hproper hroot
  have hnodup : ns.Nodup := .of_map _ (hns ▸ FileTree.nodup_sources hproper rules.root)
  exact ⟨ns, sourcePages_of_sources hroot hns hnodup keyStart, hpages⟩

end

/-- The modules of pages whose entries are in a manifest. -/
theorem listedModules_of_entries {rules : BuildRules} {tree : FileTree} {ns : List PageName}
    (hread : Manifest.read tree rules.out = .ok (Json.toEntries (ns.map rules.entry))) :
    listedModules tree rules.out = .ok (keyedPages rules.keyStart rules.modulePath ns) := by
  have hlisted : ∀ ns : List PageName, (Json.toEntries (ns.map rules.entry)).mapM
      (fun e => do return (keyText e.1, ← listedModule rules.out e.2))
        = .ok (keyedPages rules.keyStart rules.modulePath ns) := by
    intro ns
    induction ns with
    | nil => rfl
    | cons n ns ih =>
      have hmodule : listedModule rules.out (rules.entry n).2.toValue = .ok (rules.modulePath n) :=
        listedModule_modulePlace rules n
      rw [List.map_cons, BuildRules.entry, Json.toEntries, List.mapM_cons]
      simp only [ih]
      rw [show listedModule rules.out (Json.string (modulePlace n.slug)).toValue
        = .ok (rules.modulePath n) from hmodule]
      rfl
  rw [Folio.listedModules, hread]
  exact hlisted ns

/-- The modules of the pages that a manifest lists. -/
theorem Ledger.listedModules {rules : BuildRules} {tree : FileTree} {modules : List (String × Json)}
    (h : Ledger rules tree modules)
    (hread : Manifest.read tree rules.out = .ok (Json.toEntries (modules.mergeSort Manifest.keyLe))) :
    ∃ ns : List PageName, listedModules tree rules.out = .ok (keyedPages rules.keyStart rules.modulePath ns) ∧
      (ns.map rules.entry).Perm modules := by
  obtain ⟨ns, hns⟩ := @exists_map_eq _ _ rules.entry (modules.mergeSort Manifest.keyLe) fun e he =>
    h.pages e (List.mem_mergeSort.1 he)
  exact ⟨ns, listedModules_of_entries (hns ▸ hread), hns ▸ List.mergeSort_perm _ _⟩

/-- Pages are among some exactly if their entries are. -/
theorem BuildRules.mem_iff_of_perm {rules : BuildRules} {ns : List PageName} {modules : List (String × Json)}
    (h : (ns.map rules.entry).Perm modules) (n : PageName) : n ∈ ns ↔ rules.entry n ∈ modules := by
  rw [← h.mem_iff, List.mem_map]
  constructor
  · exact fun hn => ⟨n, hn, rfl⟩
  · rintro ⟨m, hm, heq⟩
    exact BuildRules.entry_inj (congrArg Prod.fst heq) ▸ hm

/-! ## Serving pages -/

namespace PageName

/-- A page that can be served: its source has a name before the ending, and no name has a line break. -/
structure IsServable (n : PageName) : Prop where
  named : n.stem ≠ ""
  lines : ∀ s ∈ n.source, '\n' ∉ s.toList ∧ '\r' ∉ s.toList

theorem mem_intercalate {names : List String} {c : Char} (h : c ∈ ("/".intercalate names).toList) :
    c = '/' ∨ ∃ s ∈ names, c ∈ s.toList := by
  induction names with
  | nil => simp at h
  | cons s rest ih =>
    cases rest with
    | nil =>
      rw [String.intercalate_singleton] at h
      exact .inr ⟨s, List.mem_cons_self, h⟩
    | cons t rest =>
      rw [String.intercalate_cons_cons, String.toList_append, String.toList_append, List.mem_append,
        List.mem_append] at h
      rcases h with (h | h) | h
      · exact .inr ⟨s, List.mem_cons_self, h⟩
      · exact .inl (List.mem_singleton.1 h)
      · refine (ih h).imp id ?_
        rintro ⟨u, hu, hc⟩
        exact ⟨u, List.mem_cons_of_mem _ hu, hc⟩

/-- The slug of a page that can be served fits the first line of its module. -/
theorem IsServable.fitsLine {n : PageName} (h : n.IsServable) : PageModule.FitsLine n.slug := by
  have hnames : ∀ s ∈ n.dirs ++ [n.stem], '\n' ∉ s.toList ∧ '\r' ∉ s.toList ∧ '\x00' ∉ s.toList := by
    intro s hs
    rcases List.mem_append.1 hs with hs | hs
    · obtain ⟨hn, hr⟩ := h.lines s (List.mem_append_left _ hs)
      exact ⟨hn, hr, (n.dirs_names s hs).noNul⟩
    · obtain rfl := List.mem_singleton.1 hs
      obtain ⟨hn, hr⟩ := h.lines (n.stem ++ ".md") (List.mem_append_right _ (List.mem_singleton_self _))
      rw [String.toList_append, List.mem_append, not_or] at hn hr
      exact ⟨hn.1, hr.1, n.noNul⟩
  intro c hc
  rcases mem_intercalate hc with rfl | ⟨s, hs, hc⟩
  · decide
  · obtain ⟨hn, hr, hnul⟩ := hnames s hs
    exact ⟨fun heq => hn (heq ▸ hc), fun heq => hr (heq ▸ hc), fun heq => hnul (heq ▸ hc)⟩

theorem slug_ne_empty {n : PageName} (h : n.stem ≠ "") : n.slug ≠ "" := by
  unfold slug
  cases n.dirs with
  | nil => simpa using h
  | cons dir dirs =>
    intro hempty
    have hchars := congrArg String.toList hempty
    rw [List.cons_append, String.intercalate_cons_of_ne_nil (by simp)] at hchars
    simp at hchars

end PageName

namespace Backend

variable {b : Backend} {keyStart : String} {ns : List PageName}

theorem keys_compiled (keyStart : String) (path : PageName → Path) (ns : List PageName) :
    (compiled (keyedPages keyStart path ns)).keys = (ns.map PageName.slug).map (Folio.keyFor keyStart) :=
  map_fst_keyedPages

theorem keys_sources (keyStart : String) (path : PageName → Path) (ns : List PageName) (root : Path)
    (rules : CompileRules) : (sources (keyedPages keyStart path ns) root rules).keys
      = (ns.map PageName.slug).map (Folio.keyFor keyStart) :=
  map_fst_keyedPages

/-- A server whose keys are those of some pages knows their slugs. -/
theorem slugs_serve (hkeys : b.keys = (ns.map PageName.slug).map (Folio.keyFor keyStart))
    (hkeyStart : '\x00' ∉ keyStart.toList) (hnames : ∀ n ∈ ns, n.stem ≠ "") :
    (b.serve keyStart defaultKeyFormats).provider.catalogue.slugs = .ok (ns.map PageName.slug) := by
  change (Catalogue.make keyStart defaultKeyFormats b.keys).slugs = _
  rw [hkeys]
  refine Catalogue.slugs_default hkeyStart fun slug hslug => ?_
  obtain ⟨n, hn, rfl⟩ := List.mem_map.1 hslug
  exact PageName.slug_ne_empty (hnames n hn)

/-- What a slug is resolved to is a key of the server. -/
theorem mem_keys_of_resolve {formats : List String} {slug key : String}
    (h : (b.serve keyStart formats).provider.resolve slug = .ok key) : key ∈ b.keys := by
  obtain ⟨found, hfound, h⟩ := Except.bind_eq_ok_iff.1 h
  cases found with
  | none => obtain ⟨_, -, h⟩ := Except.bind_eq_ok_iff.1 h; cases h
  | some k =>
    obtain rfl := Except.pure_eq_ok_iff.1 h
    obtain ⟨candidates, -, hfind⟩ := Except.bind_eq_ok_iff.1 (Except.mapError_eq_ok_iff.1 hfound)
    exact List.contains_iff_mem.1 (List.find?_some (Except.pure_eq_ok_iff.1 hfind))

/-- The slug of a page is resolved to its key. -/
theorem resolve_serve (hkeys : b.keys = (ns.map PageName.slug).map (Folio.keyFor keyStart))
    {n : PageName} (hn : n ∈ ns) :
    (b.serve keyStart defaultKeyFormats).provider.resolve n.slug = .ok (Folio.keyFor keyStart n.slug) := by
  refine Provider.resolve_of_keyFor (Catalogue.keyFor_default ?_)
  rw [hkeys]
  exact List.mem_map.2 ⟨n.slug, List.mem_map.2 ⟨n, hn, rfl⟩, rfl⟩

/-- Whatever was asked before, a page is loaded as what the loader for its key gives. -/
theorem load_serve (hkeys : b.keys = (ns.map PageName.slug).map (Folio.keyFor keyStart)) {tree : FileTree}
    {n : PageName} (hn : n ∈ ns) {a : Artifact} (hload : b.load tree (Folio.keyFor keyStart n.slug) = .ok a)
    (requests : List Server.Request) :
    ((requests.foldl (Server.after tree) (b.serve keyStart defaultKeyFormats)).load tree n.slug).1
      = .ok a := by
  obtain ⟨hsettled, hfetch⟩ := (Server.settled_serve tree b keyStart defaultKeyFormats).run requests
  have hthere : (b.serve keyStart defaultKeyFormats).fetch tree n.slug = .ok a := by
    rw [Server.fetch, resolve_serve hkeys hn]
    change (b.load tree (Folio.keyFor keyStart n.slug)).mapError LoadError.loader = _
    rw [hload]
    rfl
  rw [hsettled.load, hfetch, hthere]
  rfl

end Backend

namespace Server

variable {s : Settings} {tree : FileTree}

theorem start_of_listed {listed : List (String × Path)} (h : listedModules tree (.ofText s.outputDir) = .ok listed) :
    start tree s false = .ok ((Backend.compiled listed).serve s.contentAlias s.keyFormats) := by
  rw [start]
  simp only [Bool.false_eq_true, if_false, h]
  rfl

/-- A server of compiled pages is opened with the modules that the manifest lists. -/
theorem start_listed {modules : List (String × Json)} (h : Ledger s.buildRules tree modules)
    (hread : Manifest.read tree s.buildRules.out = .ok (Json.toEntries (modules.mergeSort Manifest.keyLe))) :
    ∃ ns : List PageName, start tree s false
      = .ok ((Backend.compiled (keyedPages s.contentAlias s.buildRules.modulePath ns)).serve s.contentAlias
          s.keyFormats) ∧ ∀ n, n ∈ ns ↔ s.buildRules.entry n ∈ modules := by
  obtain ⟨ns, hlisted, hperm⟩ := h.listedModules hread
  exact ⟨ns, start_of_listed hlisted, BuildRules.mem_iff_of_perm hperm⟩

/-- A server of compiled pages is opened with the modules of a build. -/
theorem start_compiled {modules : List (String × Json)} (h : Built s.buildRules tree modules) :
    ∃ ns : List PageName, start tree s false
      = .ok ((Backend.compiled (keyedPages s.contentAlias s.buildRules.modulePath ns)).serve s.contentAlias
          s.keyFormats) ∧ ∀ n, n ∈ ns ↔ tree.IsPage s.buildRules.root n := by
  obtain ⟨ns, hstart, hmem⟩ := start_listed h.ledger h.read
  exact ⟨ns, hstart, fun n => (hmem n).trans h.mem_iff⟩

/-- A server of compiled pages is opened alike by every process. -/
theorem start_inProcess (tree : FileTree) (process : Process) (s : Settings) :
    start (tree.inProcess process) s false = start tree s false := by
  have hread (out : Path) : Manifest.read (tree.inProcess process) out = Manifest.read tree out := by
    rw [Manifest.read, Manifest.read, FileTree.doesExist_inProcess, FileTree.readText_inProcess]
  simp only [start, listedModules, hread, Bool.false_eq_true, if_false]

/-- A server of sources is opened with the sources below the root. -/
theorem start_sources (hproper : tree.IsProper) (hroot : tree.isDirectory s.buildRules.root = true) :
    ∃ ns : List PageName, start tree s true
      = .ok ((Backend.sources (keyedPages s.contentAlias s.buildRules.sourcePath ns) s.buildRules.root
          s.compileRules).serve s.contentAlias s.keyFormats) ∧
        ∀ n, n ∈ ns ↔ tree.IsPage s.buildRules.root n := by
  obtain ⟨ns, hpages, hmem⟩ := sourcePages_eq hproper hroot s.contentAlias
  refine ⟨ns, ?_, hmem⟩
  have hpages : sourcePages tree (.ofText s.contentRoot) s.contentAlias
      = keyedPages s.contentAlias s.buildRules.sourcePath ns := hpages
  rw [start]
  simp only [if_true, hpages]
  rfl

end Server

end Folio
