import Folio.Proofs.Path.Order
import Folio.Proofs.Server.Agreement
import Folio.Proofs.Server.Collecting

set_option autoImplicit false

/-! # The order of all pages

A server of compiled pages knows their slugs in the order of the manifest, in which the sources are spelled; a server of
sources knows them in the order in which the sources are found. After a build the two servers have the same documents
(`Built.exists_servers`), and their orders are the same exactly if no page crosses another
(`slugs_agree_iff_uncrossed`). -/

namespace Folio

/-! ## Pages in two orders -/

/-- A list in two strict orders is one list exactly if the orders agree on it. -/
theorem eq_iff_of_pairwise {α : Type} {r r' : α → α → Prop} {l l' : List α} (hr : ∀ a b, r a b → ¬ r b a)
    (hr' : ∀ a b, r' a b → ¬ r' b a) (hl : l.Pairwise r) (hl' : l'.Pairwise r') (hperm : l.Perm l') :
    l = l' ↔ ∀ a ∈ l, ∀ b ∈ l, r' a b → r a b := by
  constructor
  · rintro rfl a ha b hb hab
    have hboth : l.Pairwise fun a b => (r a b ∧ r' a b) ∨ (r b a ∧ r' b a) := (hl.and hl').imp .inl
    have : Std.Symm fun a b => (r a b ∧ r' a b) ∨ (r b a ∧ r' b a) := ⟨fun _ _ => Or.symm⟩
    rcases hboth.forall ha hb (fun heq => hr' a b hab (heq ▸ heq ▸ hab)) with ⟨h, -⟩ | ⟨-, h⟩
    · exact h
    · exact absurd h (hr' a b hab)
  · intro hagree
    have hl'' : l'.Pairwise r := hl'.imp_of_mem fun ha hb hab => hagree _ (hperm.mem_iff.2 ha) _ (hperm.mem_iff.2 hb) hab
    exact hperm.eq_of_pairwise (fun a b _ _ hab hba => absurd hba (hr a b hab)) hl hl''

/-- The source of a page is found before that of another. -/
def PageName.IsFoundBefore (n m : PageName) : Prop :=
  Path.namesLe n.source m.source = true ∧ n.source ≠ m.source

/-- The source of a page is spelled before that of another. -/
def PageName.IsSpelledBefore (n m : PageName) : Prop :=
  Path.spell n.source < Path.spell m.source

namespace PageName

variable {n m : PageName}

theorem IsFoundBefore.asymm (h : n.IsFoundBefore m) : ¬ m.IsFoundBefore n := fun h' =>
  h.2 (Path.namesLe_antisymm h.1 h'.1)

theorem IsSpelledBefore.asymm (h : n.IsSpelledBefore m) : ¬ m.IsSpelledBefore n :=
  LT.lt.asymm h

theorem IsFoundBefore.isSpelledBefore_iff (h : n.IsFoundBefore m) :
    n.IsSpelledBefore m ↔ ¬ Path.Crosses n.source m.source :=
  Path.spell_lt_iff (fun s hs => (m.isName_of_mem_source s hs).noSlash) h.1 h.2

/-- Keys are in the order in which the sources are spelled. -/
theorem keyFor_lt_iff (keyStart : String) : keyFor keyStart n.slug < keyFor keyStart m.slug ↔ n.IsSpelledBefore m := by
  have hkey : ∀ n : PageName, (keyFor keyStart n.slug).toList
      = (keyStart.toList.reverse.dropWhile (· == '/')).reverse ++ Path.spell n.source := by
    intro n
    have hlabel : n.slug ++ ".md" = "/".intercalate n.source := n.sourceLabel_slug
    rw [Path.spell_eq (by simp [source]), ← hlabel]
    simp [keyFor, Path.sourceEnding]
  rw [String.lt_iff, hkey, hkey, Path.append_lt_append_iff]
  rfl

end PageName

/-- A list has the pages of a root, each once and in an order. -/
structure Enumerates (tree : FileTree) (root : Path) (before : PageName → PageName → Prop) (ns : List PageName) : Prop where
  distinct : ns.Nodup
  pages : ∀ n, n ∈ ns ↔ tree.IsPage root n
  ordered : ns.Pairwise before

theorem Enumerates.perm {tree : FileTree} {root : Path} {before before' : PageName → PageName → Prop} {ns ms : List PageName}
    (h : Enumerates tree root before ns) (h' : Enumerates tree root before' ms) : ns.Perm ms :=
  (List.perm_ext_iff_of_nodup h.distinct h'.distinct).2 fun n => (h.pages n).trans (h'.pages n).symm

/-- The sources below a directory are found in the order of their names. -/
theorem FileTree.pairwise_sources {tree : FileTree} {root : Path} (hroot : tree.isDirectory root = true) :
    (tree.sources root).Pairwise fun p q => ∀ names names', p = root.join ⟨false, names⟩ → q = root.join ⟨false, names'⟩ →
      Path.namesLe names names' = true := by
  rw [sources, isFile_of_isDirectory hroot, if_neg (by simp), filesBelow, (isDirectory_iff.1 hroot).1]
  refine List.Pairwise.filter _ (List.pairwise_map.2 ?_)
  refine (List.pairwise_mergeSort Path.namesLe_trans Path.namesLe_total _).imp fun {as bs} hle names names' h h' => ?_
  obtain rfl := Path.join_inj h
  obtain rfl := Path.join_inj h'
  exact hle

section

variable {rules : BuildRules} {tree : FileTree}

theorem enumerates_of_sources (hproper : tree.IsProper) (hroot : tree.isDirectory rules.root = true) {ns : List PageName}
    (hns : tree.sources rules.root = ns.map rules.sourcePath) : Enumerates tree rules.root PageName.IsFoundBefore ns := by
  obtain ⟨ms, hms, hpages⟩ := @exists_pages rules _ hproper hroot
  have hinj : Function.Injective rules.sourcePath := fun n m h => PageName.source_inj (Path.join_inj h)
  obtain rfl : ns = ms := List.map_injective_iff.2 hinj (hns.symm.trans hms)
  have hnodup : ns.Nodup := .of_map _ (hns ▸ FileTree.nodup_sources hproper rules.root)
  have hsorted := List.pairwise_map.1 (hns ▸ FileTree.pairwise_sources hroot)
  refine ⟨hnodup, hpages, (hsorted.and hnodup).imp fun {n m} h => ⟨h.1 _ _ rfl rfl, fun heq => h.2 ?_⟩⟩
  exact PageName.source_inj heq

/-- A manifest lists the pages of a build in the order in which their sources are spelled. -/
theorem Built.exists_listed {modules : List (String × Json)} (h : Built rules tree modules) :
    ∃ ns : List PageName, listedModules tree rules.out = .ok (keyedPages rules.keyStart rules.modulePath ns) ∧
      Enumerates tree rules.root PageName.IsSpelledBefore ns := by
  obtain ⟨ns, hns⟩ := @exists_map_eq _ _ rules.entry (modules.mergeSort Manifest.keyLe) fun e he =>
    h.ledger.pages e (List.mem_mergeSort.1 he)
  have hperm : (ns.map rules.entry).Perm modules := by
    rw [hns]
    exact List.mergeSort_perm _ _
  have hnodup : ns.Nodup := .of_map _ (hperm.nodup_iff.2 (Manifest.nodup_of_distinct h.isListing.distinct))
  have hsorted := List.pairwise_mergeSort Manifest.keyLe_trans Manifest.keyLe_total modules
  rw [← hns] at hsorted
  refine ⟨ns, listedModules_of_entries (hns ▸ h.read), hnodup, fun n => ?_, ?_⟩
  · exact (BuildRules.mem_iff_of_perm hperm n).trans h.mem_iff
  · refine ((List.pairwise_map.1 hsorted).and hnodup).imp fun {n m} hnm => ?_
    have hle : (rules.entry n).1 ≤ (rules.entry m).1 := Manifest.keyLe_iff.1 hnm.1
    exact (PageName.keyFor_lt_iff rules.keyStart).1 (lt_of_le_of_ne hle fun heq => hnm.2 (key_inj heq))

end

/-! ## Servers alike -/

namespace Server

variable {tree : FileTree} {b b' : Backend} {keyStart : String} {formats slugs slugs' : List String}

theorem notFound_congr (h : slugs.Perm slugs') (slug : String) : NotFound.make slug slugs = NotFound.make slug slugs' := by
  have hle : ∀ s t : String, (decide (s < t) || s == t) = true ↔ s ≤ t := fun s t => by
    rw [Bool.or_eq_true, decide_eq_true_eq, beq_iff_eq, Std.le_iff_lt_or_eq]
  have hsorted : ∀ l : List String, (l.mergeSort fun s t => s < t || s == t).Pairwise (· ≤ ·) := fun l => by
    refine (List.pairwise_mergeSort (fun s t u hst htu => ?_) (fun s t => ?_) l).imp fun {s t} => (hle s t).1
    · exact (hle s u).2 (le_trans ((hle s t).1 hst) ((hle t u).1 htu))
    · rw [Bool.or_eq_true, hle, hle]
      exact le_total s t
  refine congrArg (NotFound.mk slug) (List.Perm.eq_of_pairwise (fun s t _ _ => le_antisymm) (hsorted _) (hsorted _) ?_)
  exact (List.mergeSort_perm _ _).trans (h.trans (List.mergeSort_perm _ _).symm)

/-- Servers with the same keys and the same artifacts under them have the same for each slug, in whatever order the
    keys are. -/
theorem fetch_congr (hslugs : (Catalogue.make keyStart formats b.keys).slugs = .ok slugs)
    (hslugs' : (Catalogue.make keyStart formats b'.keys).slugs = .ok slugs') (hperm : slugs.Perm slugs')
    (hkeys : b.keys.Perm b'.keys) (hload : ∀ key ∈ b.keys, b.load tree key = b'.load tree key) (slug : String) :
    (b.serve keyStart formats).fetch tree slug = (b'.serve keyStart formats).fetch tree slug := by
  have hfound : (Catalogue.make keyStart formats b.keys).keyFor slug = (Catalogue.make keyStart formats b'.keys).keyFor slug :=
    Catalogue.keyFor_congr (fun _ => hkeys.mem_iff) slug
  have hresolve : (b.serve keyStart formats).provider.resolve slug = (b'.serve keyStart formats).provider.resolve slug := by
    have hown : (b.serve keyStart formats).provider.catalogue = Catalogue.make keyStart formats b.keys := rfl
    have hother : (b'.serve keyStart formats).provider.catalogue = Catalogue.make keyStart formats b'.keys := rfl
    unfold Provider.resolve
    rw [hown, hother, hfound, hslugs, hslugs']
    cases (Catalogue.make keyStart formats b'.keys).keyFor slug with
    | error e => rfl
    | ok found =>
      cases found with
      | some key => rfl
      | none => exact congrArg (fun cause => Except.error (LoadError.notFound cause)) (notFound_congr hperm slug)
  cases hkey : (b.serve keyStart formats).provider.resolve slug with
  | error e => rw [fetch, fetch, ← hresolve, hkey]; rfl
  | ok key =>
    rw [fetch, fetch, ← hresolve, hkey]
    exact congrArg (Except.mapError LoadError.loader) (hload key (Backend.mem_keys_of_resolve hkey))

/-- What passes some filters, among some artifacts. -/
def Decides (filters : Option ContentFilters) (passes : Artifact → Bool) (artifacts : List Artifact) : Prop :=
  (filters = none → ∀ a ∈ artifacts, passes a = true) ∧
    ∀ f, filters = some f → ∀ a ∈ artifacts, f.isMatch a.header = .ok (passes a)

/-- A server has documents for slugs, and knows some slugs in an order: who asks for all pages gets their documents in this
    order, as far as they pass, and gets nothing else. -/
structure Lists (tree : FileTree) (server : Server) (document : String → Except (LoadError LoaderError) Artifact)
    (slugs : List String) : Prop where
  known : server.provider.catalogue.slugs = .ok slugs
  load : ∀ slug, (server.load tree slug).1 = (document slug).mapError .load
  loadAll : ∀ filters passes given, List.Forall₂ (fun slug a => document slug = .ok a) slugs given →
    Decides filters passes given → (server.loadAll tree filters).1 = .ok (given.filter passes)
  only : ∀ filters artifacts, (server.loadAll tree filters).1 = .ok artifacts →
    ∃ given, List.Forall₂ (fun slug a => document slug = .ok a) slugs given

theorem lists_serve {document : String → Except (LoadError LoaderError) Artifact}
    (hslugs : (Catalogue.make keyStart formats b.keys).slugs = .ok slugs)
    (hfetch : ∀ slug, (b.serve keyStart formats).fetch tree slug = document slug) :
    Lists tree (b.serve keyStart formats) document slugs where
  known := hslugs
  load slug := by rw [(settled_serve tree b keyStart formats).load, hfetch]
  loadAll filters passes given hgiven hdecides :=
    loadAll_serve hslugs (hgiven.imp fun _ _ h => (hfetch _).trans h) hdecides.1 hdecides.2
  only filters artifacts h := by
    obtain ⟨given, hgiven⟩ := exists_given_of_loadAll hslugs h
    exact ⟨given, hgiven.imp fun slug _ h => (hfetch slug).symm.trans h⟩

end Server

/-- The slugs that a server with the keys of some pages knows are those of the pages, in the order of the keys. -/
theorem slugs_of_pages {b : Backend} {keyStart lead : String} {ns : List PageName}
    (hkeys : b.keys = (ns.map PageName.slug).map (keyFor keyStart)) (hservable : ∀ n ∈ ns, n.IsServable)
    (hlead : ∀ (keys : List String) (slug : String), slug ≠ "" → '\x00' ∉ slug.toList →
      (Catalogue.make keyStart defaultKeyFormats keys).slugFor (keyFor keyStart slug) = .ok (lead ++ slug)) :
    (Catalogue.make keyStart defaultKeyFormats b.keys).slugs = .ok (ns.map fun n => lead ++ n.slug) := by
  have hkeys' : (Catalogue.make keyStart defaultKeyFormats b.keys).keys
      = ns.map fun n => keyFor keyStart n.slug := by
    rw [show (Catalogue.make keyStart defaultKeyFormats b.keys).keys = b.keys from rfl, hkeys, List.map_map]
    rfl
  rw [Catalogue.slugs, mapM_eq_ok_iff, hkeys', List.forall₂_map_left_iff, List.forall₂_map_right_iff,
    List.forall₂_same]
  refine fun n hn => hlead _ _ (PageName.slug_ne_empty (hservable n hn).named) fun hnul => ?_
  exact ((hservable n hn).fitsLine _ hnul).2.2 rfl

/-- Under the key of a page its module has the artifact that its source is compiled to. -/
theorem Built.exists_loads {s : Settings} {tree : FileTree} {modules : List (String × Json)} {ns ms : List PageName}
    {n : PageName} (h : Built s.buildRules tree modules) (hpage : tree.IsPage s.buildRules.root n) (hservable : n.IsServable)
    (hn : n ∈ ns) (hm : n ∈ ms) :
    ∃ a, (Backend.compiled (keyedPages s.contentAlias s.buildRules.modulePath ns)).load tree (keyFor s.contentAlias n.slug)
        = .ok a ∧
      (Backend.sources (keyedPages s.contentAlias s.buildRules.sourcePath ms) s.buildRules.root s.compileRules).load tree
        (keyFor s.contentAlias n.slug) = .ok a := by
  obtain ⟨a, _, _, -, hforms⟩ := h.exists_artifact hpage hservable
  obtain ⟨himport, b, _, hcompile, -, -, -, hsame⟩ := hforms tree.process
  obtain rfl := hsame fun bytes _ _ => .refl _ _ bytes
  rw [FileTree.inProcess_self] at himport hcompile
  refine ⟨b, ?_, ?_⟩
  · rw [Backend.load, lookup_keyedPages hn]
    simp only [himport]
    rfl
  · rw [Backend.load, lookup_keyedPages hm]
    simp only [hcompile]
    rfl

/-- After a build a server of compiled pages and one of sources can be opened. They have the same documents. The slugs of
    one are in the order in which the manifest lists the pages, those of the other in the order in which sources are
    found. -/
theorem Built.exists_servers {s : Settings} {tree : FileTree} {modules : List (String × Json)}
    (h : Built s.buildRules tree modules) (hformats : s.keyFormats = defaultKeyFormats)
    (hservable : ∀ n, tree.IsPage s.buildRules.root n → n.IsServable) :
    ∃ (compiled sources : Server) (document : String → Except (LoadError LoaderError) Artifact) (lead : String)
      (ns ms : List PageName),
      Server.start tree s false = .ok compiled ∧ Server.start tree s true = .ok sources ∧
      Server.Lists tree compiled document (ns.map fun n => lead ++ n.slug) ∧
      Server.Lists tree sources document (ms.map fun n => lead ++ n.slug) ∧
      Enumerates tree s.buildRules.root PageName.IsSpelledBefore ns ∧
      Enumerates tree s.buildRules.root PageName.IsFoundBefore ms ∧
      ('\x00' ∉ s.contentAlias.toList → lead = "" ∧ ∀ n ∈ ns, ∃ a, document n.slug = .ok a) := by
  obtain ⟨ns, hlisted, hns⟩ := h.exists_listed
  obtain ⟨ms, hsources, -⟩ := @exists_pages s.buildRules _ h.proper h.root
  have hms := enumerates_of_sources h.proper h.root hsources
  have hperm := hns.perm hms
  obtain ⟨lead, hnone, hlead⟩ := Catalogue.exists_slugFor_default s.contentAlias
  have hserves : ∀ n ∈ ns, n.IsServable := fun n hn => hservable n ((hns.pages n).1 hn)
  let b := Backend.compiled (keyedPages s.contentAlias s.buildRules.modulePath ns)
  let b' := Backend.sources (keyedPages s.contentAlias s.buildRules.sourcePath ms) s.buildRules.root s.compileRules
  have hkeys : b.keys = (ns.map PageName.slug).map (keyFor s.contentAlias) := Backend.keys_compiled _ _ ns
  have hkeys' : b'.keys = (ms.map PageName.slug).map (keyFor s.contentAlias) := Backend.keys_sources _ _ ms _ _
  have hslugs := slugs_of_pages hkeys hserves hlead
  have hslugs' := slugs_of_pages hkeys' (fun n hn => hserves n (hperm.mem_iff.2 hn)) hlead
  have hload : ∀ n ∈ ns, ∃ a, b.load tree (keyFor s.contentAlias n.slug) = .ok a ∧
      b'.load tree (keyFor s.contentAlias n.slug) = .ok a := fun n hn =>
    h.exists_loads ((hns.pages n).1 hn) (hserves n hn) hn (hperm.mem_iff.1 hn)
  have hkeysPerm : b.keys.Perm b'.keys := by
    rw [hkeys, hkeys']
    exact (hperm.map _).map _
  have hsame : ∀ key ∈ b.keys, b.load tree key = b'.load tree key := by
    intro key hkey
    rw [hkeys, List.map_map] at hkey
    obtain ⟨n, hn, rfl⟩ := List.mem_map.1 hkey
    obtain ⟨a, ha, ha'⟩ := hload n hn
    exact ha.trans ha'.symm
  have hfetch := Server.fetch_congr hslugs hslugs' (hperm.map _) hkeysPerm hsame
  refine ⟨b.serve s.contentAlias defaultKeyFormats, b'.serve s.contentAlias defaultKeyFormats,
    (b.serve s.contentAlias defaultKeyFormats).fetch tree, lead, ns, ms, hformats ▸ Server.start_of_listed hlisted, ?_,
    Server.lists_serve hslugs fun _ => rfl, Server.lists_serve hslugs' fun slug => (hfetch slug).symm, hns, hms,
    fun halias => ⟨hnone halias, fun n hn => ?_⟩⟩
  · have hfound := sourcePages_of_sources h.root hsources hms.distinct s.contentAlias
    have hstart : Server.start tree s true = .ok ((Backend.sources (sourcePages tree s.buildRules.root s.contentAlias)
      s.buildRules.root s.compileRules).serve s.contentAlias s.keyFormats) := rfl
    rw [hstart, hfound, hformats]
  · obtain ⟨a, ha, -⟩ := hload n hn
    refine ⟨a, Server.fetch_of_keyFor (Catalogue.keyFor_default ?_) ha⟩
    rw [hkeys, List.map_map]
    exact List.mem_map_of_mem hn

/-- After a build a server of compiled pages and one of sources can be opened. They have the same documents, and know the
    same slugs, each once.

    * Each of them gives its documents in the order of its own slugs.
    * The two orders are the same exactly if no page crosses another: beside no directory in which a source stands, there is a
      name that continues the name of the directory with a character before the slash. -/
theorem slugs_agree_iff_uncrossed {s : Settings} {tree tree' : FileTree} (hproper : tree.IsProper)
    (hroot : tree.isDirectory s.buildRules.root = true) (hformats : s.keyFormats = defaultKeyFormats)
    (hservable : ∀ n, tree.IsPage s.buildRules.root n → n.IsServable) {built : List BuiltPage}
    (hbuild : build s.buildRules tree = .ok built tree') :
    ∃ (compiled sources : Server) (document : String → Except (LoadError LoaderError) Artifact) (listed found : List String),
      Server.start tree' s false = .ok compiled ∧ Server.start tree' s true = .ok sources ∧
      Server.Lists tree' compiled document listed ∧ Server.Lists tree' sources document found ∧
      listed.Nodup ∧ listed.Perm found ∧
      ('\x00' ∉ s.contentAlias.toList → ∀ slug, (slug ∈ listed ↔ ∃ n, tree.IsPage s.buildRules.root n ∧ slug = n.slug) ∧
        (slug ∈ listed → ∃ a, document slug = .ok a)) ∧
      (listed = found ↔ ∀ n m, tree.IsPage s.buildRules.root n → tree.IsPage s.buildRules.root m →
        ¬ Path.Crosses n.source m.source) := by
  obtain ⟨hbuilt, halters, -⟩ := built_of_build hproper (Path.isSpelled_ofText s.outputDir) hroot hbuild
  -- the build touches no source
  have hpages : ∀ n, tree'.IsPage s.buildRules.root n ↔ tree.IsPage s.buildRules.root n := fun n =>
    halters.isPage_iff (not_not_intro (Path.lastChar?_source _ n))
  obtain ⟨compiled, sources, document, lead, ns, ms, hcompiled, hsources, hlists, hlists', hns, hms, hplain⟩ :=
    hbuilt.exists_servers hformats fun n hn => hservable n ((hpages n).1 hn)
  have hmem : ∀ n, n ∈ ns ↔ tree.IsPage s.buildRules.root n := fun n => (hns.pages n).trans (hpages n)
  have hinj : Function.Injective fun n : PageName => lead ++ n.slug := fun n m h =>
    PageName.slug_inj ((String.append_right_inj lead).1 h)
  refine ⟨compiled, sources, document, _, _, hcompiled, hsources, hlists, hlists', hns.distinct.map hinj,
    (hns.perm hms).map _, fun halias slug => ?_, ?_⟩
  · obtain ⟨rfl, hthere⟩ := hplain halias
    simp only [String.empty_append, List.mem_map]
    constructor
    · constructor
      · rintro ⟨n, hn, rfl⟩
        exact ⟨n, (hmem n).1 hn, rfl⟩
      · rintro ⟨n, hn, rfl⟩
        exact ⟨n, (hmem n).2 hn, rfl⟩
    · rintro ⟨n, hn, rfl⟩
      exact hthere n hn
  · rw [List.map_inj_right fun n m h => hinj h, eq_iff_of_pairwise (fun _ _ => PageName.IsSpelledBefore.asymm)
      (fun _ _ => PageName.IsFoundBefore.asymm) hns.ordered hms.ordered (hns.perm hms)]
    constructor
    · intro hagree n m hn hm hcrosses
      have hbefore : n.IsFoundBefore m := hcrosses.comesBefore
      exact hbefore.isSpelledBefore_iff.1 (hagree n ((hmem n).2 hn) m ((hmem m).2 hm) hbefore) hcrosses
    · intro huncrossed n hn m hm hbefore
      exact hbefore.isSpelledBefore_iff.2 (huncrossed n m ((hmem n).1 hn) ((hmem m).1 hm))

/-! ## Two small sites -/

/-- The page of a source `d/b.md`. -/
def nestedPage : PageName :=
  ⟨["d"], "b", List.forall_mem_singleton.2 ⟨⟨by decide, by decide, by decide⟩, by decide, by decide⟩, by decide, by decide⟩

/-- The page of a source `d.md`. -/
def dottedPage : PageName :=
  ⟨[], "d", List.forall_mem_nil IsName, by decide, by decide⟩

/-- The page of a source `d0.md`. -/
def numberedPage : PageName :=
  ⟨[], "d0", List.forall_mem_nil IsName, by decide, by decide⟩

/-- A site with a source in a directory, and another source. -/
def nestedSite (n : PageName) : FileTree :=
  ⟨[], [(["c"], .directory), (["c", "d"], .directory), (["c", "d", "b.md"], .file [0x42] 0),
    ("c" :: n.source, .file [0x41] 0), (["o"], .directory)], .plain⟩

section

variable {rules : BuildRules} {tree : FileTree} {ns : List PageName}

/-- A build whose pages are known has a result if each of them can be built, and no directory has the name of the manifest
    then. -/
theorem exists_build_of_each (hproper : tree.IsProper) (hout : rules.out.IsSpelled)
    (hdirectory : tree.isDirectory rules.out = true) (hroot : tree.isDirectory rules.root = true)
    (hns : tree.sources rules.root = ns.map rules.sourcePath)
    (heach : ((buildEach rules (ns.map rules.sourcePath)).result tree).1.toOption.any (·.failed.isEmpty) = true)
    (hfree : FileTree.entry? ((buildEach rules (ns.map rules.sourcePath)).result tree).2
      (rules.out.place tree.home ++ [Manifest.fileName]) ≠ some .directory) :
    ∃ built tree', build rules tree = .ok built tree' := by
  obtain ⟨done, hdone, hfailed⟩ := (Option.any_eq_true _ _).1 heach
  have hmid := Building.eq_ok_of_result hdone
  have hnul := (FileTree.place_of_locate (FileTree.isDirectory_iff.1 hroot).1).2
  obtain ⟨-, halters, -⟩ := buildEach_upToDate hout hnul hproper hmid (List.isEmpty_iff.1 hfailed)
  obtain ⟨tree', hwrite⟩ := write_manifest_succeeds halters.proper
    (FileTree.isDirectory_mono halters.directories hdirectory) (halters.home ▸ hfree) (modulesOf done.built)
  refine ⟨done.built, tree', ?_⟩
  unfold build
  refine Building.bind_eq_ok_iff.2
    ⟨(), tree, Building.change_eq_ok_iff.2 (makeDirectories_of_isDirectory hdirectory), ?_⟩
  refine Building.bind_eq_ok_iff.2 ⟨_, tree, Building.inspect_eq_ok_iff.2 ⟨congrArg Except.ok hns, rfl⟩, ?_⟩
  refine Building.bind_eq_ok_iff.2 ⟨done, _, hmid, ?_⟩
  refine Building.bind_eq_ok_iff.2 ⟨(), tree', Building.change_eq_ok_iff.2 hwrite, ?_⟩
  simp only [List.isEmpty_iff.1 hfailed]
  rfl

end

section

variable {n : PageName}

theorem sources_nestedSite (h : Path.namesLe nestedPage.source n.source = true) :
    (nestedSite n).sources smallSettings.buildRules.root = [nestedPage, n].map smallSettings.buildRules.sourcePath := by
  have hnames : (nestedSite n).namesBelow ["c"] = [nestedPage.source, n.source] := by
    refine (congrArg (List.mergeSort · Path.namesLe) ?_).trans (List.mergeSort_of_pairwise (List.pairwise_pair.2 h))
    rfl
  have hlocate : (nestedSite n).locate smallSettings.buildRules.root = .ok ["c"] := by rfl
  have hfile : (nestedSite n).isFile smallSettings.buildRules.root = false := by rfl
  have hends : ∀ m : PageName, Path.endsAsSource (smallSettings.buildRules.sourcePath m).name = true := by
    intro m
    rw [BuildRules.sourcePath, FileTree.name_join (by simp [PageName.source])]
    simpa [PageName.source] using Path.endsAsSource_append m.stem
  rw [FileTree.sources, hfile, if_neg (by simp), FileTree.filesBelow, hlocate]
  have hpaths : [nestedPage.source, n.source].map (fun names => smallSettings.buildRules.root.join ⟨false, names⟩)
      = [nestedPage, n].map smallSettings.buildRules.sourcePath := rfl
  simp only [hnames, hpaths]
  exact List.filter_eq_self.2 (List.forall_mem_map.2 fun m _ => hends m)

/-- The two sources of a site are its pages, and it can be built. -/
theorem nestedSite_is_built (hproper : (nestedSite n).IsProper)
    (h : Path.namesLe nestedPage.source n.source = true) (hservable : n.IsServable)
    (heach : ((buildEach smallSettings.buildRules ([nestedPage, n].map smallSettings.buildRules.sourcePath)).result
      (nestedSite n)).1.toOption.any (·.failed.isEmpty) = true)
    (hfree : FileTree.entry? ((buildEach smallSettings.buildRules ([nestedPage, n].map
      smallSettings.buildRules.sourcePath)).result (nestedSite n)).2 ["o", Manifest.fileName] ≠ some .directory) :
    (nestedSite n).isDirectory smallSettings.buildRules.root = true ∧
    Enumerates (nestedSite n) smallSettings.buildRules.root PageName.IsFoundBefore [nestedPage, n] ∧
    (∀ m, (nestedSite n).IsPage smallSettings.buildRules.root m → m.IsServable) ∧
    ∃ built tree', build smallSettings.buildRules (nestedSite n) = .ok built tree' := by
  have hroot : (nestedSite n).isDirectory smallSettings.buildRules.root = true := by rfl
  have hsources := sources_nestedSite h
  have hfound := enumerates_of_sources hproper hroot hsources
  refine ⟨hroot, hfound, fun m hm => ?_, ?_⟩
  · rcases List.mem_pair.1 ((hfound.pages m).2 hm) with rfl | rfl
    · refine ⟨by decide, fun s hs => ?_⟩
      rcases List.mem_pair.1 hs with rfl | rfl <;> decide
    · exact hservable
  · exact exists_build_of_each hproper (Path.isSpelled_ofText _) (by rfl) hroot hsources heach hfree

end

/-- Beside a directory `d` the source `d.md` is found after what is in the directory, and listed before it. -/
theorem nestedSite_has_two_orders :
    let tree := nestedSite dottedPage
    tree.IsProper ∧ tree.isDirectory smallSettings.buildRules.root = true ∧
    smallSettings.keyFormats = defaultKeyFormats ∧ '\x00' ∉ smallSettings.contentAlias.toList ∧
    (∀ n, tree.IsPage smallSettings.buildRules.root n → n.IsServable) ∧
    ∃ built tree' compiled sources, build smallSettings.buildRules tree = .ok built tree' ∧
      Server.start tree' smallSettings false = .ok compiled ∧ Server.start tree' smallSettings true = .ok sources ∧
      compiled.provider.catalogue.slugs = .ok ["d", "d/b"] ∧ sources.provider.catalogue.slugs = .ok ["d/b", "d"] := by
  intro tree
  have hproper : tree.IsProper := by decide
  have halias : '\x00' ∉ smallSettings.contentAlias.toList := by decide
  have hdotted : dottedPage.IsServable := ⟨by decide, List.forall_mem_singleton.2 (by decide)⟩
  obtain ⟨hroot, hfound, hservable, built, tree', hbuild⟩ :=
    nestedSite_is_built hproper (by decide) hdotted (by decide +kernel) (by decide +kernel)
  obtain ⟨hbuilt, halters, -⟩ := built_of_build hproper (Path.isSpelled_ofText _) hroot hbuild
  have hpages : ∀ n, tree'.IsPage smallSettings.buildRules.root n ↔ tree.IsPage smallSettings.buildRules.root n := fun n =>
    halters.isPage_iff (not_not_intro (Path.lastChar?_source _ n))
  obtain ⟨compiled, sources, document, lead, ns, ms, hcompiled, hsources, hlists, hlists', hns, hms, hplain⟩ :=
    hbuilt.exists_servers rfl fun n hn => hservable n ((hpages n).1 hn)
  obtain ⟨rfl, -⟩ := hplain halias
  have hperm : ms.Perm [nestedPage, dottedPage] := (List.perm_ext_iff_of_nodup hms.distinct hfound.distinct).2 fun n =>
    (hms.pages n).trans ((hpages n).trans (hfound.pages n).symm)
  obtain rfl : ms = [nestedPage, dottedPage] :=
    hperm.eq_of_pairwise (fun _ _ _ _ h h' => absurd h' h.asymm) hms.ordered hfound.ordered
  have hspelled : dottedPage.IsSpelledBefore nestedPage :=
    (@Path.append_lt_append_iff "/d".toList ".md".toList "/b.md".toList).2
      (List.cons_lt_cons_iff.2 (.inl (by decide)))
  obtain rfl : ns = [dottedPage, nestedPage] :=
    ((hns.perm hms).trans (List.Perm.swap _ _ _)).eq_of_pairwise (fun _ _ _ _ h h' => absurd h' h.asymm) hns.ordered
      (List.pairwise_pair.2 hspelled)
  exact ⟨hproper, hroot, rfl, halias, hservable, built, tree', compiled, sources, hbuild, hcompiled, hsources,
    hlists.known, hlists'.known⟩

/-- Beside a directory `d` the source `d0.md` is found and listed after what is in the directory. -/
theorem nestedSite_has_one_order :
    let tree := nestedSite numberedPage
    tree.IsProper ∧ tree.isDirectory smallSettings.buildRules.root = true ∧
    smallSettings.keyFormats = defaultKeyFormats ∧
    (∀ n, tree.IsPage smallSettings.buildRules.root n → n.IsServable) ∧
    ∃ built tree' compiled sources slugs, build smallSettings.buildRules tree = .ok built tree' ∧
      Server.start tree' smallSettings false = .ok compiled ∧ Server.start tree' smallSettings true = .ok sources ∧
      compiled.provider.catalogue.slugs = .ok slugs ∧ sources.provider.catalogue.slugs = .ok slugs ∧
      "d/b" ∈ slugs ∧ "d0" ∈ slugs := by
  intro tree
  have hproper : tree.IsProper := by decide
  have hnumbered : numberedPage.IsServable := ⟨by decide, List.forall_mem_singleton.2 (by decide)⟩
  obtain ⟨hroot, hfound, hservable, built, tree', hbuild⟩ :=
    nestedSite_is_built hproper (by decide) hnumbered (by decide +kernel) (by decide +kernel)
  obtain ⟨compiled, sources, document, listed, found, hcompiled, hsources, hlists, hlists', -, -, hslugs, hsame⟩ :=
    slugs_agree_iff_uncrossed hproper hroot rfl hservable hbuild
  have huncrossed : ∀ n m, tree.IsPage smallSettings.buildRules.root n → tree.IsPage smallSettings.buildRules.root m →
      ¬ Path.Crosses n.source m.source := by
    intro n m hn hm hcrosses
    rcases List.mem_pair.1 ((hfound.pages n).2 hn) with rfl | rfl
    · rcases List.mem_pair.1 ((hfound.pages m).2 hm) with rfl | rfl
      · exact hcrosses.comesBefore.2 rfl
      · -- the name `d0.md` goes on with a character after the slash
        rcases Path.crosses_cons_iff.1 hcrosses with ⟨-, c, more, hcontinues, hearly⟩ | ⟨hname, -⟩
        · have hnext : "0.md".toList = c :: more := @List.append_cancel_left _ "d".toList _ _ hcontinues
          obtain rfl : c = '0' := (List.cons.inj hnext).1.symm
          exact absurd hearly (by decide)
        · exact absurd hname (by decide)
    · exact Path.not_crosses_singleton _ _ hcrosses
  obtain rfl := hsame.2 huncrossed
  have hmem := fun slug => (hslugs (by decide) slug).1
  exact ⟨hproper, hroot, rfl, hservable, built, tree', compiled, sources, listed, hbuild, hcompiled, hsources,
    hlists.known, hlists'.known, (hmem _).2 ⟨nestedPage, (hfound.pages _).1 (by simp), rfl⟩,
    (hmem _).2 ⟨numberedPage, (hfound.pages _).1 (by simp), rfl⟩⟩

end Folio
