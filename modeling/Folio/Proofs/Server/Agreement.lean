import Folio.Proofs.Server.Pages

set_option autoImplicit false

/-! # Compiled pages and sources agree

A page can be compiled in three ways: when the site is built, to be read back from its module; when it is asked
for; and from the text of its source. After a build all three give the same artifact, and the servers of
compiled pages and of sources know the same slugs (`compile_paths_agree`). A process that goes through a set in
another order than the one that built the site lists the members of this set in that order, and has the same
artifact otherwise. -/

namespace Folio

/-! ## From the text of a source -/

namespace Path

theorem endsAsSource_text {p : Path} {dirs : List String} {stem : String}
    (h : p.parts = dirs ++ [stem ++ ".md"]) : endsAsSource p.text = true := by
  have hnames : "/".intercalate p.parts = "/".intercalate (dirs ++ [stem]) ++ ".md" := by
    rw [h, intercalate_concat_append]
  have hnonempty : p.parts.isEmpty = false := by simp [h]
  unfold text
  rw [hnames, hnonempty]
  split
  · rw [← String.append_assoc]
    exact endsAsSource_append _
  · exact endsAsSource_append _

end Path

section

variable {rules : BuildRules} {tree : FileTree}

/-- The text of a source is transformed into the text of the module that a build makes of it. -/
theorem transformText_sourcePath (hroot : rules.root.IsSpelled) {n : PageName}
    (hslug : pathSlug tree.home (rules.sourcePath n) (some rules.root) = n.slug) {bytes : List UInt8}
    {modified : Int} {cs : List Char} (hread : tree.read (rules.sourcePath n) = .ok (bytes, modified))
    (hdecode : Text.decodeUtf8 bytes = .ok cs) {text : String}
    (hmakes : Makes rules.compiling tree.process n.slug bytes modified text) :
    transformText rules.compiling tree (rules.sourcePath n).text (some rules.root)
      (String.ofList (FileTree.unifyNewlines cs)) = .ok (some text) := by
  have hspelled : (rules.sourcePath n).IsSpelled := n.isSpelled_source hroot
  have hparts : (rules.sourcePath n).parts = rules.root.parts ++ n.dirs ++ [n.stem ++ ".md"] := by
    simp [BuildRules.sourcePath, Path.join, PageName.source]
  have hends : Path.endsAsSource (rules.sourcePath n).text = true := Path.endsAsSource_text hparts
  obtain ⟨hlocate, hentry⟩ := FileTree.read_eq_ok_iff.1 hread
  have hfind : tree.find? (rules.sourcePath n) = some (.file bytes modified) := by
    rw [FileTree.find?, hlocate]
    exact hentry
  obtain ⟨artifact, ⟨cs', hdecode', hcompile⟩, hemit⟩ := hmakes
  obtain rfl := Except.ok.inj (hdecode.symm.trans hdecode')
  unfold transformText
  rw [hends, Path.ofText_text hspelled]
  simp only [Bool.not_true, Bool.false_eq_true, if_false, hfind, compileText, hslug, hcompile]
  simp only [bind, Except.bind, Except.mapError, hemit]
  rfl

end

/-! ## The result -/

section

variable {s : Settings} {tree : FileTree} {modules : List (String × Json)}

/-- What a page of a build is: its module gives the same artifact to every process, and any process compiles its source to
    one that differs in the order of the members of sets only, when it is asked for and from the text of the source. -/
theorem Built.exists_artifact (h : Built s.buildRules tree modules) {n : PageName}
    (hn : tree.IsPage s.buildRules.root n) (hservable : n.IsServable) :
    ∃ (a : Artifact) (cs : List Char) (modified : Int),
      tree.readText (s.buildRules.sourcePath n) = .ok (cs, modified) ∧
      ∀ process, importArtifact (tree.inProcess process) (s.buildRules.modulePath n) = .ok a ∧
        ∃ (b : Artifact) (text : String),
          compileFile s.compileRules (tree.inProcess process) (s.buildRules.sourcePath n) (some s.buildRules.root) = .ok b ∧
          transformText s.compileRules (tree.inProcess process) (s.buildRules.sourcePath n).text
            (some s.buildRules.root) (String.ofList cs) = .ok (some text) ∧
          PageModule.decode? text.toList = some b ∧ a.Rearranges b ∧
          ((∀ bytes modified, tree.HasSource s.buildRules.root n bytes modified →
            tree.process.AgreeOn process s.compileRules bytes) → b = a) := by
  obtain ⟨bytes, modified, text, time, hsource, hmakes, hmodule⟩ := (h.upToDate n hn).made
  obtain ⟨a, hcompiles, -, -, himport⟩ := hmakes.decodes hservable.fitsLine
  have hread := BuildRules.read_of_hasSource h.proper h.root hsource
  have hslug := pathSlug_sourcePath h.root n
  have ⟨cs, hcs, _⟩ := hcompiles
  refine ⟨a, FileTree.unifyNewlines cs, modified, readText_eq_ok_iff.2 ⟨bytes, cs, hread, hcs, rfl⟩, fun process => ?_⟩
  obtain ⟨text', hmakes'⟩ := hmakes.exists_rearranged process
  obtain ⟨b, hcompiles', -, hdecode, -⟩ := hmakes'.decodes hservable.fitsLine
  obtain ⟨c, hcompiles'', hrearranges⟩ := hcompiles.exists_rearranged process
  obtain rfl := hcompiles''.unique hcompiles'
  have hreadProcess : (tree.inProcess process).read (s.buildRules.sourcePath n) = .ok (bytes, modified) := by
    rw [FileTree.read_inProcess]
    exact hread
  refine ⟨himport _ _ time ?_, c, text', ?_, ?_, hdecode, hrearranges, fun hagree => ?_⟩
  · rw [FileTree.read_inProcess]
    exact hmodule
  · refine compileFile_eq_ok_iff.2 ⟨bytes, modified, hreadProcess, ?_⟩
    rw [FileTree.home_inProcess, hslug]
    exact hcompiles'
  · exact @transformText_sourcePath s.buildRules (tree.inProcess process) (Path.isSpelled_ofText _) _ hslug _ _ _
      hreadProcess hcs _ hmakes'
  · exact hcompiles'.unique ((compiles_congr (hagree bytes modified hsource)).1 hcompiles)

end

/-- The settings of a site whose keys start with a text that ends in slashes. -/
def smallSettings : Settings := { contentRoot := "c", outputDir := "o", contentAlias := "@pages//" }

/-- The files of a small site when it is built. -/
def builtSite : FileTree := afterBuild smallSettings.buildRules smallSite

theorem build_smallSettings : build smallSettings.buildRules smallSite
    = .ok [⟨.ofText "c/a.md", .ofText "o/a.py", "@pages/a.md", "a"⟩] builtSite :=
  build_eq_ok_afterBuild (by decide +kernel)

theorem isServable_smallSite {n : PageName} (h : smallSite.IsPage smallSettings.buildRules.root n) :
    n.IsServable := by
  obtain ⟨bytes, modified, hsource⟩ := h
  have hplace : smallSettings.buildRules.root.place smallSite.home = ["c"] := by decide
  rw [FileTree.HasSource, hplace] at hsource
  have hmem := (isProper_smallSite.mem_entries_iff.2 ⟨by simp, hsource⟩)
  have hnames : n.source = ["a.md"] := by
    simp only [smallSite, List.mem_cons, Prod.mk.injEq, reduceCtorEq, and_false, List.not_mem_nil, or_false,
      false_or] at hmem
    exact List.append_cancel_left hmem.1
  refine ⟨fun hstem => ?_, fun s hs => ?_⟩
  · rw [PageName.source, hstem] at hnames
    have hlast := congrArg List.getLast? hnames
    simp at hlast
  · rw [hnames] at hs
    obtain rfl := List.mem_singleton.1 hs
    decide

end Folio
