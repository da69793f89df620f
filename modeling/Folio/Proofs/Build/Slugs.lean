import Folio.Proofs.Build.Modules
import Folio.Proofs.Build.Partial
import Folio.Proofs.Server.Notices

set_option autoImplicit false

/-! # Slugs tell sources apart

A path that leads to a source below a root has the slug that the names from the root spell, however the path and the root are
spelled; so two such paths have one slug exactly if they lead to one place. What a build makes of its sources is told apart by
their slugs, also if some of them do not compile (`slugs_tell_sources_apart`). -/

namespace Folio

/-! ## Places of spelled paths -/

namespace Path

variable {home place names names' : Place} {p p' root root' : Path}

theorem isName_of_mem_follow {parts : List String} (hplace : ∀ s ∈ place, IsName s)
    (hparts : ∀ s ∈ parts, IsPart s ∧ '\x00' ∉ s.toList) : ∀ s ∈ follow place parts, IsName s := by
  induction parts generalizing place with
  | nil => exact hplace
  | cons part parts ih =>
    obtain ⟨⟨hpart, hnul⟩, hparts⟩ := List.forall_mem_cons.1 hparts
    rw [follow]
    split
    · exact ih (fun s hs => hplace s (List.dropLast_subset _ hs)) hparts
    · next hparent =>
      refine ih (fun s hs => ?_) hparts
      rcases List.mem_append.1 hs with hs | hs
      · exact hplace s hs
      · rw [List.mem_singleton.1 hs]
        exact ⟨hpart, hparent, hnul⟩

/-- A path of a text leads to a place with proper names. -/
theorem isName_of_mem_place (hhome : ∀ s ∈ home, IsName s) (hp : p.IsSpelled) (hnul : p.hasNul = false) :
    ∀ s ∈ p.place home, IsName s := by
  have hparts : ∀ s ∈ p.parts, IsPart s ∧ '\x00' ∉ s.toList := fun s hs =>
    ⟨hp s hs, by simpa using List.any_eq_false.1 hnul s hs⟩
  rw [Path.place]
  split
  · exact isName_of_mem_follow (List.forall_mem_nil _) hparts
  · exact isName_of_mem_follow hhome hparts

/-- A path leads to a place below a root by names of which the last has the ending of sources. -/
structure LeadsToSource (p : Path) (home : Place) (root : Path) (names : Place) : Prop
    extends p.LeadsBelow home root names where
  ending : endsAsSource (names.getLast?.getD "") = true

/-- The names from a root to a source are those of a page, and the slug is its slug. -/
theorem LeadsToSource.exists_page (h : p.LeadsToSource home root names) (hhome : ∀ s ∈ home, IsName s)
    (hp : p.IsSpelled) : ∃ n : PageName, n.source = names ∧ Folio.pathSlug home p (some root) = n.slug := by
  have hnames : ∀ s ∈ names, IsName s := fun s hs =>
    isName_of_mem_place hhome hp h.noNul s (h.place_eq ▸ List.mem_append_right _ hs)
  obtain ⟨n, rfl⟩ := PageName.exists_of_source hnames h.ending
  exact ⟨n, rfl, n.pathSlug_eq h.noNul h.rootNoNul h.place_eq⟩

/-- The slug of a source is spelled by the names from the root, without the ending. -/
theorem LeadsToSource.spelling (h : p.LeadsToSource home root names) (hhome : ∀ s ∈ home, IsName s) (hp : p.IsSpelled) :
    Folio.pathSlug home p (some root) ++ ".md" = "/".intercalate names := by
  obtain ⟨n, rfl, hslug⟩ := h.exists_page hhome hp
  rw [hslug, ← n.sourceLabel_slug]
  rfl

theorem LeadsToSource.pathSlug_eq_iff (h : p.LeadsToSource home root names) (h' : p'.LeadsToSource home root' names')
    (hroot : root'.place home = root.place home) (hhome : ∀ s ∈ home, IsName s) (hp : p.IsSpelled) (hp' : p'.IsSpelled) :
    Folio.pathSlug home p (some root) = Folio.pathSlug home p' (some root') ↔ p.place home = p'.place home := by
  obtain ⟨n, rfl, hslug⟩ := h.exists_page hhome hp
  obtain ⟨m, rfl, hslug'⟩ := h'.exists_page hhome hp'
  rw [hslug, hslug', h.place_eq, h'.place_eq, hroot, List.append_cancel_left_eq]
  exact ⟨fun heq => PageName.slug_inj heq ▸ rfl, fun heq => PageName.source_inj heq ▸ rfl⟩

end Path

/-! ## Sources of a build -/

/-- What a build makes of the source at a path. -/
def BuildRules.pageAt (rules : BuildRules) (home : Place) (p : Path) : BuiltPage :=
  let slug := pathSlug home p (some rules.root)
  ⟨p, rules.out.join (.ofText (moduleName slug)), keyFor rules.keyStart slug, slug⟩

section

variable {rules : BuildRules} {tree tree' : FileTree}

theorem IsSourceOf.pageAt {p : Path} {n : PageName} (h : IsSourceOf rules tree p n) :
    rules.pageAt tree.home p = rules.pageOf (p, n) := by
  rw [BuildRules.pageAt, h.slug, moduleName, n.ofText_moduleText]
  rfl

/-- A build reports pages of its sources, in order: those of the sources that compile. -/
theorem built_sublist (hout : rules.out.IsSpelled) {es : List (Path × PageName)} (hproper : tree.IsProper)
    (hes : ∀ e ∈ es, IsSourceOf rules tree e.1 e.2) {done : BuildProgress}
    (h : buildEach rules (es.map Prod.fst) tree = .ok done tree') : done.built.Sublist (es.map rules.pageOf) := by
  induction es generalizing tree done with
  | nil =>
    obtain ⟨rfl, -⟩ := Building.pure_eq_ok_iff.1 h
    exact .slnil
  | cons e es ih =>
    obtain ⟨hfirst, hes⟩ := List.forall_mem_cons.1 hes
    rw [List.map_cons, buildEach] at h
    dsimp only at h
    split at h
    · next page mid hone =>
      obtain ⟨rest, last, hrest, h⟩ := Building.bind_eq_ok_iff.1 h
      obtain ⟨rfl, rfl⟩ := Building.pure_eq_ok_iff.1 h
      obtain ⟨rfl, halters, -⟩ := buildOne_hasModule hproper hout hfirst hone
      exact .cons_cons _ (ih halters.proper (fun e he => (hes e he).alters halters fun q htouched => htouched.ne_source) hrest)
    · next cause mid hone =>
      obtain ⟨rest, last, hrest, h⟩ := Building.bind_eq_ok_iff.1 h
      obtain ⟨rfl, rfl⟩ := Building.pure_eq_ok_iff.1 h
      have halters := alters_buildOne_error hproper hout hfirst.slug hone
      have hspared : ∀ q, q = rules.out.place tree.home ++ e.2.draft → Path.lastChar? q ≠ some 'd' := by
        rintro _ rfl
        simp [Path.lastChar?_draft]
      have hlater : rest.built.Sublist (es.map rules.pageOf) :=
        ih halters.proper (fun e he => (hes e he).alters halters hspared) hrest
      exact .cons _ hlater
    · cases h

/-- No two of some pages share a slug, a key, or the file of a module. -/
structure AreApart (home : Place) (pages : List BuiltPage) : Prop where
  slugs : (pages.map (·.slug)).Nodup
  keys : (pages.map (·.key)).Nodup
  modules : (pages.map (·.module.place home)).Nodup

theorem areApart_pageOf {es : List (Path × PageName)} (h : (es.map Prod.snd).Nodup) (home : Place) :
    AreApart home (es.map rules.pageOf) := by
  have hmap : ∀ {α : Type} (f : PageName → α), Function.Injective f → (es.map fun e => f e.2).Nodup := fun f hf => by
    rw [show (fun e : Path × PageName => f e.2) = f ∘ Prod.snd from rfl, ← List.map_map]
    exact h.map hf
  refine ⟨?_, ?_, ?_⟩
  · rw [List.map_map]
    exact hmap PageName.slug fun _ _ => PageName.slug_inj
  · rw [List.map_map]
    exact hmap (fun n => keyFor rules.keyStart n.slug) fun _ _ heq => PageName.slug_inj (keyFor_inj heq)
  · rw [List.map_map]
    refine hmap (fun n => (rules.modulePath n).place home) fun n m heq => ?_
    have hplace : (rules.modulePath n).place home = (rules.modulePath m).place home := heq
    rw [BuildRules.modulePath, BuildRules.modulePath, n.place_module, m.place_module] at hplace
    exact PageName.module_inj (List.append_cancel_left hplace)

/-- Slugs tell sources apart, however the working directory, the root and the paths are spelled.

    * The slug of a source strictly below the root is the names from the root to it, joined by slashes, without the ending.
    * Two sources below one root have one slug exactly if they are at one place.
    * No two sources of a build share a slug, a key or the file of a module. The build reports pages of its sources in order, of
      those that compile. -/
theorem slugs_tell_sources_apart {home : Place} (hhome : ∀ s ∈ home, IsName s) (hproper : tree.IsProper)
    (hout : rules.out.IsSpelled) :
    (∀ root p names, (Path.ofText p).LeadsToSource home (.ofText root) names →
      pathSlug home (.ofText p) (some (.ofText root)) ++ ".md" = "/".intercalate names) ∧
    (∀ root root' p p' names names', (Path.ofText root').place home = (Path.ofText root).place home →
      (Path.ofText p).LeadsToSource home (.ofText root) names →
      (Path.ofText p').LeadsToSource home (.ofText root') names' →
      (pathSlug home (.ofText p) (some (.ofText root)) = pathSlug home (.ofText p') (some (.ofText root')) ↔
        (Path.ofText p).place home = (Path.ofText p').place home)) ∧
    AreApart tree.home ((tree.sources rules.root).map (rules.pageAt tree.home)) ∧
    (∀ done tree', buildEach rules (tree.sources rules.root) tree = .ok done tree' →
      done.built.Sublist ((tree.sources rules.root).map (rules.pageAt tree.home))) ∧
    ∀ built tree', build rules tree = .ok built tree' → AreApart tree.home built := by
  obtain ⟨es, hsources, hes, hnodup⟩ := exists_sources hproper rules
  have hpages : (tree.sources rules.root).map (rules.pageAt tree.home) = es.map rules.pageOf := by
    rw [hsources, List.map_map]
    exact List.map_congr_left fun e he => (hes e he).pageAt
  rw [hpages]
  refine ⟨fun root p names h => h.spelling hhome (Path.isSpelled_ofText p), ?_, areApart_pageOf hnodup _, ?_, ?_⟩
  · intro root root' p p' names names' hroot h h'
    exact h.pathSlug_eq_iff h' hroot hhome (Path.isSpelled_ofText p) (Path.isSpelled_ofText p')
  · intro done tree' h
    exact built_sublist hout hproper hes (hsources ▸ h)
  · intro built tree' h
    obtain ⟨-, es, rfl, hnodup, -⟩ := modules_of_build hproper hout h
    exact areApart_pageOf hnodup _

end

/-- One source under one root, each in two spellings, and the sources of the mixed site, of which one does not compile. -/
theorem mixedSite_is_apart :
    let home : Place := ["site"]
    let root := Path.ofText "content"
    let root' := Path.ofText "/site/.//content/x/.."
    let p := Path.ofText "content/x/y.md/../b.md"
    let p' := Path.ofText "../site/./content//x/b.md"
    (∀ s ∈ home, IsName s) ∧ mixedSite.IsProper ∧ smallRules.out.IsSpelled ∧ root'.place home = root.place home ∧
    p.LeadsToSource home root ["x", "b.md"] ∧ p'.LeadsToSource home root' ["x", "b.md"] ∧
    pathSlug home p (some root) ++ ".md" = "x/b.md" ∧ pathSlug home p (some root) = pathSlug home p' (some root') ∧
    AreApart [] [smallRules.pageAt [] (.ofText "c/a.md"), smallRules.pageAt [] (.ofText "c/b.md")] := by
  intro home root root' p p'
  have hhome : ∀ s ∈ home, IsName s := fun s hs => by
    rw [List.mem_singleton.1 hs]
    exact ⟨⟨by decide, by decide, by decide⟩, by decide, by decide⟩
  have hproper : mixedSite.IsProper := by decide
  have hout := Path.isSpelled_ofText "o"
  have hroot : root'.place home = root.place home := by decide
  have hp : p.LeadsToSource home root ["x", "b.md"] := ⟨Path.relative?_eq_some_iff.1 (by decide), by decide⟩
  have hp' : p'.LeadsToSource home root' ["x", "b.md"] := ⟨Path.relative?_eq_some_iff.1 (by decide), by decide⟩
  obtain ⟨hspelling, hsame, hapart, -, -⟩ := @slugs_tell_sources_apart smallRules mixedSite home hhome hproper hout
  refine ⟨hhome, hproper, hout, hroot, hp, hp', ?_, (hsame _ _ _ _ _ _ hroot hp hp').2 ?_, ?_⟩
  · exact (hspelling _ _ _ hp).trans (by decide)
  · rw [hp.place_eq, hp'.place_eq, hroot]
  · rw [sources_mixedSite] at hapart
    exact hapart

/-! ## Identifiers -/

/-- The names that a slug spells. -/
def slugParts (slug : String) : List String :=
  (Text.cutAt '/' slug.toList).map String.ofList

/-- A slug identifies a source by its name: it spells names of which none is missing or leads elsewhere, and of which the last is
    the name of the source without the ending. -/
structure Identifies (slug name : String) : Prop where
  proper : ∀ s ∈ slugParts slug, s ≠ "" ∧ s ≠ "." ∧ s ≠ ".."
  last : ∃ dirs stem, slugParts slug = dirs ++ [stem] ∧ stem ++ ".md" = name

theorem slugParts_slug (n : PageName) : slugParts n.slug = n.dirs ++ [n.stem] := by
  have hslash : ∀ s ∈ n.dirs ++ [n.stem], '/' ∉ s.toList := by
    intro s hs
    rcases List.mem_append.1 hs with hs | hs
    · exact (n.dirs_names s hs).noSlash
    · exact List.mem_singleton.1 hs ▸ n.noSlash
  rw [slugParts, PageName.slug, Path.cutAt_intercalate (by simp) hslash, Path.map_ofList_toList]

/-- The slug of a page identifies the page unless its source is called by at most two dots and the ending. -/
theorem identifies_slug_iff (n : PageName) :
    Identifies n.slug (n.stem ++ ".md") ↔ n.stem ++ ".md" ∉ [".md", "..md", "...md"] := by
  have hstem : n.stem ++ ".md" ∉ [".md", "..md", "...md"] ↔ n.stem ≠ "" ∧ n.stem ≠ "." ∧ n.stem ≠ ".." := by
    have hsame (dots : String) : n.stem ++ ".md" = dots ++ ".md" ↔ n.stem = dots := String.append_left_inj ".md"
    simp only [List.mem_cons, List.not_mem_nil, or_false, not_or]
    exact and_congr (not_congr (hsame "")) (and_congr (not_congr (hsame ".")) (not_congr (hsame "..")))
  rw [hstem]
  constructor
  · intro h
    exact h.proper n.stem (by simp [slugParts_slug])
  · refine fun h => ⟨fun s hs => ?_, n.dirs, n.stem, slugParts_slug n, rfl⟩
    rw [slugParts_slug] at hs
    rcases List.mem_append.1 hs with hs | hs
    · have hname := n.dirs_names s hs
      exact ⟨hname.nonempty, hname.notSelf, hname.notParent⟩
    · exact List.mem_singleton.1 hs ▸ h

section

variable {rules : BuildRules} {tree tree' : FileTree} {p : Path}

/-- The page of a source: its slug is spelled by the directories and the stem of the page, and its module is in these directories
    below the output and called by the stem. Below a directory they are those of the source. A root that is a source itself is
    called by a dot. -/
structure IsFiledAs (rules : BuildRules) (tree : FileTree) (p : Path) (n : PageName) : Prop where
  slug : (rules.pageAt tree.home p).slug = n.slug
  module : (rules.pageAt tree.home p).module.place tree.home = rules.out.place tree.home ++ n.module
  path : if tree.isFile rules.root then p = rules.root ∧ n = .ofRoot else p = rules.root.join ⟨false, n.source⟩
  identifies : Identifies n.slug p.name ↔ tree.isFile rules.root = false ∧ p.name ∉ [".md", "..md", "...md"]

theorem exists_isFiledAs (hproper : tree.IsProper) (h : p ∈ tree.sources rules.root) :
    ∃ n, IsFiledAs rules tree p n := by
  have hfiled {n : PageName} (hn : IsSourceOf rules tree p n) : (rules.pageAt tree.home p).slug = n.slug ∧
      (rules.pageAt tree.home p).module.place tree.home = rules.out.place tree.home ++ n.module :=
    ⟨hn.slug, by rw [hn.pageAt]; exact n.place_module tree.home rules.out⟩
  cases hfile : tree.isFile rules.root with
  | true =>
    rw [FileTree.sources, if_pos hfile] at h
    split at h
    · next hsource =>
      obtain rfl := List.mem_singleton.1 h
      obtain ⟨hslug, hmodule⟩ := hfiled (isSourceOf_root hfile hsource)
      refine ⟨.ofRoot, hslug, hmodule, by rw [if_pos hfile]; exact ⟨rfl, rfl⟩, ?_⟩
      rw [hfile]
      exact ⟨fun hid => absurd rfl (hid.proper "." (by decide)).2.1, fun hno => absurd hno.1 (by simp)⟩
    · cases h
  | false =>
    cases hdirectory : tree.isDirectory rules.root with
    | false =>
      rw [FileTree.sources_of_none hproper hfile hdirectory] at h
      cases h
    | true =>
      obtain ⟨n, bytes, modified, rfl, hn⟩ := (FileTree.mem_sources_iff hproper hdirectory).1 h
      obtain ⟨hslug, hmodule⟩ := hfiled (isSourceOf_page hproper hdirectory ⟨bytes, modified, hn⟩)
      have hname : (rules.root.join ⟨false, n.source⟩).name = n.stem ++ ".md" := by
        rw [FileTree.name_join (by simp [PageName.source])]
        simp [PageName.source]
      refine ⟨n, hslug, hmodule, by rw [if_neg (by simp [hfile])], ?_⟩
      rw [hname, identifies_slug_iff, hfile]
      simp

/-- A build that succeeds reports the page of each source that is found once the output is made, and the modules are there. -/
theorem built_eq_map_pageAt (hproper : tree.IsProper) (hout : rules.out.IsSpelled) {built : List BuiltPage}
    (h : build rules tree = .ok built tree') :
    ∃ made, tree.makeDirectories rules.out = .ok made ∧ made.IsProper ∧
      built = (made.sources rules.root).map (rules.pageAt made.home) ∧ ∀ page ∈ built, tree'.isFile page.module = true := by
  obtain ⟨-, es, hbuilt, -, hmodules, -⟩ := modules_of_build hproper hout h
  obtain ⟨made, done, each, hmade, heach, hfailed, rfl, -⟩ := build_ok h
  obtain ⟨haltered, -⟩ := FileTree.makeDirectories_ok hproper hout hmade
  obtain ⟨fs, hsources, hfs, hnodup⟩ := exists_sources haltered.proper rules
  refine ⟨made, hmade, haltered.proper, ?_, fun page hpage => ?_⟩
  · rw [hsources] at heach ⊢
    obtain ⟨hpages, -⟩ := buildEach_hasModule hout haltered.proper hfs hnodup heach hfailed
    rw [hpages, List.map_map]
    exact List.map_congr_left fun e he => (hfs e he).pageAt.symm
  · rw [hbuilt] at hpage
    obtain ⟨e, he, rfl⟩ := List.mem_map.1 hpage
    obtain ⟨-, bytes, modified, text, time, -, -, hread⟩ := hmodules e he
    exact FileTree.isFile_iff.2 ⟨_, _, hread⟩

/-- Whatever the root of a build is, each source has a page whose module is below the output. Its slug identifies the source, so
    that the module is called as the source is, exactly if the root is a directory and the name of the source is more than two dots
    and the ending. A build reports pages of its sources; one that succeeds has built them all. -/
theorem slugs_identify_iff (hproper : tree.IsProper) (hout : rules.out.IsSpelled) :
    (∀ p ∈ tree.sources rules.root, ∃ n, IsFiledAs rules tree p n) ∧
    (∀ done tree', buildEach rules (tree.sources rules.root) tree = .ok done tree' →
      ∀ page ∈ done.built, ∃ p ∈ tree.sources rules.root, page = rules.pageAt tree.home p) ∧
    ∀ built tree', build rules tree = .ok built tree' →
      ∃ made, tree.makeDirectories rules.out = .ok made ∧ (∀ p ∈ made.sources rules.root, ∃ n, IsFiledAs rules made p n) ∧
        built = (made.sources rules.root).map (rules.pageAt made.home) ∧ ∀ page ∈ built, tree'.isFile page.module = true := by
  refine ⟨fun p hp => exists_isFiledAs hproper hp, fun done tree' h page hpage => ?_, fun built tree' h => ?_⟩
  · obtain ⟨es, hsources, hes, -⟩ := exists_sources hproper rules
    rw [hsources] at h
    obtain ⟨e, he, rfl⟩ := List.mem_map.1 ((built_sublist hout hproper hes h).subset hpage)
    exact ⟨e.1, hsources ▸ List.mem_map_of_mem he, (hes e he).pageAt.symm⟩
  · obtain ⟨made, hmade, hproper', hbuilt, hmodules⟩ := built_eq_map_pageAt hproper hout h
    exact ⟨made, hmade, fun p hp => exists_isFiledAs hproper' hp, hbuilt, hmodules⟩

end

/-- A source that stands alone. -/
def loneSource : FileTree := ⟨[], [(["a.md"], .file [0x41] 0)], .plain⟩

/-- The root is the source. -/
def loneRules : BuildRules := { root := .ofText "a.md", out := .ofText "o" }

/-- A site with a source that is called by its ending alone. -/
def dottedSite : FileTree :=
  ⟨[], [(["c"], .directory), (["c", ".md"], .file [0x41] 0), (["c", "b.md"], .file [0x42] 0)], .plain⟩

/-- A source that is the root is built as a dot; below a root, one that is called by its ending alone has an empty slug. -/
theorem loneSource_is_dot :
    loneSource.IsProper ∧ loneRules.out.IsSpelled ∧ dottedSite.IsProper ∧ smallRules.out.IsSpelled ∧
    pathSlug [] (.ofText "a.md") (some (.ofText "a.md")) = "." ∧ ¬ Identifies "." "a.md" ∧
    pathSlug [] (.ofText "c/.md") (some (.ofText "c")) = "" ∧ ¬ Identifies "" ".md" ∧
    pathSlug [] (.ofText "c/b.md") (some (.ofText "c")) = "b" ∧ Identifies "b" "b.md" ∧
    ∃ tree', build loneRules loneSource = .ok [⟨.ofText "a.md", .ofText "o/..py", "@content/..md", "."⟩] tree' ∧
      tree'.isFile (.ofText "o/..py") = true := by
  have hlone : loneSource.IsProper := by decide
  have hdotted : dottedSite.IsProper := by decide
  have houtLone : loneRules.out.IsSpelled := Path.isSpelled_ofText "o"
  have houtSmall : smallRules.out.IsSpelled := Path.isSpelled_ofText "o"
  have hbuild : build loneRules loneSource = .ok [⟨.ofText "a.md", .ofText "o/..py", "@content/..md", "."⟩]
      (afterBuild loneRules loneSource) := build_eq_ok_afterBuild (by decide +kernel)
  obtain ⟨hfiled, -, hbuilt⟩ := slugs_identify_iff hlone houtLone
  obtain ⟨made, -, -, -, hmodules⟩ := hbuilt _ _ hbuild
  obtain ⟨n, hn⟩ := hfiled (.ofText "a.md") (by decide)
  have hmem (n : PageName) {bytes : List UInt8} (hn : dottedSite.HasSource smallRules.root n bytes 0) :
      smallRules.sourcePath n ∈ dottedSite.sources smallRules.root :=
    (FileTree.mem_sources_iff hdotted (by decide)).2 ⟨n, bytes, 0, rfl, hn⟩
  obtain ⟨hdotted', -, -⟩ := slugs_identify_iff hdotted houtSmall
  obtain ⟨m, hm⟩ := hdotted' _ (hmem ⟨[], "", by simp, by decide, by decide⟩ rfl)
  obtain ⟨k, hk⟩ := hdotted' _ (hmem ⟨[], "b", by simp, by decide, by decide⟩ rfl)
  have hslug : n.slug = "." := hn.slug.symm.trans (by decide)
  have hslugEmpty : m.slug = "" := hm.slug.symm.trans (by decide)
  have hslugB : k.slug = "b" := hk.slug.symm.trans (by decide)
  refine ⟨hlone, houtLone, hdotted, houtSmall, by decide, ?_, by decide, ?_, by decide, ?_, _, hbuild, ?_⟩
  · have hid := hn.identifies
    rw [hslug] at hid
    exact fun h => absurd (hid.1 h).1 (by decide)
  · have hid := hm.identifies
    rw [hslugEmpty] at hid
    exact fun h => absurd (hid.1 h).2 (by decide)
  · have hid := hk.identifies
    rw [hslugB] at hid
    exact hid.2 ⟨by decide, by decide⟩
  · exact hmodules _ List.mem_cons_self

end Folio
