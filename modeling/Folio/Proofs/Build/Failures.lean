import Folio.Proofs.Build.Partial
import Folio.Server

set_option autoImplicit false

/-! # Failures that stop a build

Whatever a source holds, what keeps it from being built is a failure to compile that names its path, but for
two things: bytes that are no text, and integers that no module can hold (`Escapes`). A source with either
stops every build that comes to it: no page after it is built, and the manifest is not written. -/

namespace Folio

/-- An error that a source ends a build with, though its page is not said to have failed. -/
inductive Escapes (rules : BuildRules) (tree : FileTree) (p : Path) : BuildError → Prop
  /-- Its bytes are no text. -/
  | encoding {bytes : List UInt8} {modified : Int} {cause : Text.IllFormed} :
    tree.read p = .ok (bytes, modified) → Text.decodeUtf8 bytes = .error cause →
      Escapes rules tree p (.encoding cause)
  /-- It compiles to data that no module can hold. -/
  | emit {artifact : Artifact} {cause : PageModule.EmitError} :
    compileFile rules.compiling tree p (some rules.root) = .ok artifact →
      PageModule.emit artifact (sourceLabel artifact.slug) = .error cause →
        Escapes rules tree p (.emit cause)

/-- An error that names a path as that of a page that does not compile. -/
def BuildError.Names (p : Path) (e : BuildError) : Prop :=
  ∃ cause, e = .compile ⟨p.text, cause⟩

section

variable {rules : BuildRules} {tree tree' : FileTree} {p : Path} {e : BuildError}

theorem Escapes.ne_compile (h : Escapes rules tree p e) (cause : CompileError) : e ≠ .compile cause := by
  cases h <;> simp

theorem Escapes.moduleText (h : Escapes rules tree p e) : Folio.moduleText rules tree p = .error e := by
  cases h with
  | @encoding bytes modified cause hread hdecode =>
    have htext : tree.readText p = .error (.encoding cause) := by
      simp [FileTree.readText, hread, hdecode, Except.mapError, bind, Except.bind]
    have hcompile : compileFile rules.compiling tree p (some rules.root) = .error (.encoding cause) := by
      rw [compileFile, htext]
    rw [Folio.moduleText, hcompile]
    rfl
  | @emit artifact cause hcompile hemit =>
    rw [Folio.moduleText, hcompile]
    exact Except.mapError_eq_error_iff.2 ⟨cause, hemit, rfl⟩

theorem readText_eq_encoding {tree : FileTree} {p : Path} {cause : Text.IllFormed}
    (h : tree.readText p = .error (.encoding cause)) : ∃ bytes modified,
      tree.read p = .ok (bytes, modified) ∧ Text.decodeUtf8 bytes = .error cause := by
  unfold FileTree.readText at h
  cases hread : tree.read p with
  | error e => simp [hread, Except.mapError, bind, Except.bind] at h
  | ok found =>
    obtain ⟨bytes, modified⟩ := found
    refine ⟨bytes, modified, rfl, ?_⟩
    cases hdecode : Text.decodeUtf8 bytes with
    | error e => simpa [hread, hdecode, Except.mapError, bind, Except.bind] using h
    | ok cs => simp [hread, hdecode, Except.mapError, bind, Except.bind, pure, Except.pure] at h

/-- Why a file does not compile. -/
theorem compileFile_error {compiling : CompileRules} {root : Option Path}
    (h : compileFile compiling tree p root = .error e) : e.Names p ∨ Escapes rules tree p e := by
  unfold compileFile at h
  split at h
  · exact .inl ⟨_, (Except.error.inj h).symm⟩
  · next cause hread =>
    obtain ⟨bytes, modified, hread, hdecode⟩ := readText_eq_encoding hread
    obtain rfl := Except.error.inj h
    exact .inr (.encoding hread hdecode)
  · obtain ⟨failure, hcompile, rfl⟩ := Except.mapError_eq_error_iff.1 h
    obtain ⟨cause, -, rfl⟩ := Except.mapError_eq_error_iff.1 hcompile
    exact .inl ⟨_, rfl⟩

/-- Why a source makes no text. -/
theorem moduleText_error (h : moduleText rules tree p = .error e) :
    e.Names p ∨ Escapes rules tree p e := by
  unfold moduleText at h
  cases hcompile : compileFile rules.compiling tree p (some rules.root) with
  | error cause =>
    rw [hcompile] at h
    obtain rfl : cause = e := Except.error.inj h
    exact compileFile_error hcompile
  | ok artifact =>
    rw [hcompile] at h
    obtain ⟨cause, hemit, rfl⟩ := Except.mapError_eq_error_iff.1 h
    exact .inr (.emit hcompile hemit)

theorem Escapes.doesExist (h : Escapes rules tree p e) : tree.doesExist p = true := by
  cases h with
  | encoding hread _ => exact Manifest.doesExist_of_read hread
  | emit hcompile _ =>
    obtain ⟨bytes, modified, hread, -⟩ := compileFile_eq_ok_iff.1 hcompile
    exact Manifest.doesExist_of_read hread

/-! ## One source -/

/-- Why one source is not built anew, if the manifest can be read and files can be written. -/
theorem buildFile_error {n : PageName} (hslug : pathSlug tree.home p (some rules.root) = n.slug)
    (hexists : tree.doesExist p = true) (h : buildFile rules p tree = .error e tree') :
    e.Names p ∨ Escapes rules tree p e ∨ (∃ cause, e = .file cause) ∨ ∃ cause, e = .manifest cause := by
  cases hread : Manifest.read tree rules.out with
  | error cause =>
    have hfails : Building.inspect (fun tree => (Manifest.read tree rules.out).mapError .manifest) tree
        = .error (.manifest cause) tree := Building.inspect_eq_error_iff.2 ⟨by rw [hread]; rfl, rfl⟩
    have hbuild : buildFile rules p tree = .error (.manifest cause) tree :=
      Building.bind_eq_error_iff.2 (.inl hfails)
    obtain ⟨rfl, -⟩ := EStateM.Result.error.inj (hbuild.symm.trans h)
    exact .inr (.inr (.inr ⟨cause, rfl⟩))
  | ok modules =>
    rw [buildFile_of_doesExist hread hexists] at h
    rcases Building.bind_eq_error_iff.1 h with hone | ⟨page, mid, -, h⟩
    · rcases buildOne_error hslug hone with ⟨htext, -⟩ | ⟨text, cause, -, rfl, -⟩
      · exact (moduleText_error htext).imp id .inl
      · exact .inr (.inr (.inl ⟨cause, rfl⟩))
    · rcases Building.bind_eq_error_iff.1 h with hwrite | ⟨u, last, -, h⟩
      · obtain ⟨⟨cause, -, rfl⟩, -⟩ := Building.change_eq_error_iff.1 hwrite
        exact .inr (.inr (.inl ⟨cause, rfl⟩))
      · exact absurd h Building.pure_ne_error

/-- A source that escapes stops what is built after it when it is built anew. -/
theorem Escapes.buildFile (h : Escapes rules tree p e) {modules : List (Value × Value)}
    (hread : Manifest.read tree rules.out = .ok modules) :
    Folio.buildFile rules p tree = .error e tree ∧
      ∀ rest, rebuildEach rules (p :: rest) tree = .error e tree := by
  have hfile : Folio.buildFile rules p tree = .error e tree := by
    rw [buildFile_of_doesExist hread h.doesExist]
    exact Building.bind_eq_error_iff.2 (.inl (buildOne_of_moduleText_error h.moduleText))
  refine ⟨hfile, fun rest => ?_⟩
  rw [rebuildEach]
  dsimp only
  rw [hfile]
  cases h <;> rfl

end

/-! ## All sources -/

section

variable {rules : BuildRules} {tree tree' : FileTree} (hproper : tree.IsProper)
variable (hroot : tree.isDirectory rules.root = true) (hout : rules.out.IsSpelled)
include hproper hroot hout

/-- Why a build ends early, if files can be written. -/
theorem build_error {e : BuildError} (h : build rules tree = .error e tree') :
    (∃ n, tree.IsPage rules.root n ∧
      (e.Names (rules.sourcePath n) ∨ Escapes rules tree (rules.sourcePath n) e)) ∨
    ∃ cause, e = .file cause := by
  unfold build at h
  rcases Building.bind_eq_error_iff.1 h with hmade | ⟨u, made, hmade, h⟩
  · obtain ⟨⟨cause, -, rfl⟩, -⟩ := Building.change_eq_error_iff.1 hmade
    exact .inr ⟨cause, rfl⟩
  obtain ⟨haltersMade, -⟩ :=
    FileTree.makeDirectories_ok hproper hout (Building.change_eq_ok_iff.1 hmade)
  have hrootMade := FileTree.isDirectory_mono haltersMade.directories hroot
  obtain ⟨ns, hns, hmem⟩ := @exists_pages rules _ haltersMade.proper hrootMade
  have hlisted : Building.inspect (fun tree => .ok (tree.sources rules.root)) made
      = .ok (ns.map rules.sourcePath) made := Building.inspect_eq_ok_iff.2 ⟨congrArg Except.ok hns, rfl⟩
  rw [Building.bind_of_ok hlisted] at h
  have hnsMade : ∀ n ∈ ns, made.IsPage rules.root n := fun n hn => (hmem n).1 hn
  have hpages : ∀ n ∈ ns, tree.IsPage rules.root n := fun n hn =>
    (haltersMade.isPage_iff not_false).1 (hnsMade n hn)
  have hcause : ∀ n ∈ ns, moduleText rules made (rules.sourcePath n) = .error e →
      ∃ n, tree.IsPage rules.root n ∧
        (e.Names (rules.sourcePath n) ∨ Escapes rules tree (rules.sourcePath n) e) := by
    intro n hn htext
    rw [moduleText_congr hproper hroot haltersMade (hpages n hn) not_false] at htext
    exact ⟨n, hpages n hn, moduleText_error htext⟩
  rcases Building.bind_eq_error_iff.1 h with heach | ⟨done, each, heach, h⟩
  · obtain ⟨-, ⟨n, hn, htext⟩ | hfile⟩ := buildEach_error hout haltersMade.proper hrootMade hnsMade heach
    · exact .inl (hcause n hn htext)
    · exact .inr hfile
  rcases Building.bind_eq_error_iff.1 h with hwrite | ⟨u, last, -, h⟩
  · obtain ⟨⟨cause, -, rfl⟩, -⟩ := Building.change_eq_error_iff.1 hwrite
    exact .inr ⟨cause, rfl⟩
  obtain ⟨-, hfailed, -, -⟩ := buildEach_ok hout haltersMade.proper hrootMade hnsMade heach
  cases hfirst : done.failed with
  | cons failure rest =>
    simp only [hfirst] at h
    obtain ⟨rfl, -⟩ := EStateM.Result.error.inj h
    have hmemFailure : failure ∈ ns.filterMap (rules.failure? made) := by
      rw [← hfailed, hfirst]
      exact List.mem_cons_self
    obtain ⟨n, hn, hfailure⟩ := List.mem_filterMap.1 hmemFailure
    exact .inl (hcause n hn (BuildRules.failure?_eq_some_iff.1 hfailure))
  | nil =>
    simp only [hfirst] at h
    exact absurd h Building.pure_ne_error

/-- A page that escapes keeps a build from coming to its end: it ends with an error that names no page, and
    the manifest is as it was. -/
theorem build_of_escapes {n : PageName} (hn : tree.IsPage rules.root n) {e : BuildError}
    (h : Escapes rules tree (rules.sourcePath n) e) :
    ∃ e' tree', build rules tree = .error e' tree' ∧ (∀ cause, e' ≠ .compile cause) ∧
      ∀ bytes time, tree'.entry? (rules.out.place tree.home ++ [Manifest.fileName]) = some (.file bytes time) ↔
        tree.entry? (rules.out.place tree.home ++ [Manifest.fileName]) = some (.file bytes time) := by
  cases hmade : tree.makeDirectories rules.out with
  | error cause =>
    have hfails : Building.change (fun tree => tree.makeDirectories rules.out) tree
        = .error (.file cause) tree := Building.change_eq_error_iff.2 ⟨⟨cause, hmade, rfl⟩, rfl⟩
    exact ⟨.file cause, tree, Building.bind_eq_error_iff.2 (.inl hfails), by simp, fun _ _ => Iff.rfl⟩
  | ok made =>
    obtain ⟨haltersMade, -⟩ := FileTree.makeDirectories_ok hproper hout hmade
    have hrootMade := FileTree.isDirectory_mono haltersMade.directories hroot
    obtain ⟨ns, hns, hmem⟩ := @exists_pages rules _ haltersMade.proper hrootMade
    have hnsMade : ∀ n ∈ ns, made.IsPage rules.root n := fun n hn => (hmem n).1 hn
    have hlisted : Building.inspect (fun tree => .ok (tree.sources rules.root)) made
        = .ok (ns.map rules.sourcePath) made := Building.inspect_eq_ok_iff.2 ⟨congrArg Except.ok hns, rfl⟩
    have hmade : Building.change (fun tree => tree.makeDirectories rules.out) tree = .ok () made :=
      Building.change_eq_ok_iff.2 hmade
    have htext : moduleText rules made (rules.sourcePath n) = .error e :=
      (moduleText_congr hproper hroot haltersMade hn not_false).trans h.moduleText
    cases heach : buildEach rules (ns.map rules.sourcePath) made with
    | ok done each =>
      -- the page is neither built nor a failure
      obtain ⟨-, -, -, hall⟩ := buildEach_ok hout haltersMade.proper hrootMade hnsMade heach
      rcases hall n ((hmem n).2 ((haltersMade.isPage_iff not_false).2 hn)) with hyields | hfailure
      · obtain ⟨text, hok⟩ := BuildRules.yields_iff.1 hyields
        rw [htext] at hok
        simp at hok
      · obtain ⟨failure, hfailure⟩ := Option.isSome_iff_exists.1 hfailure
        obtain rfl := Except.error.inj (htext.symm.trans (BuildRules.failure?_eq_some_iff.1 hfailure))
        exact absurd rfl (h.ne_compile failure)
    | error cause each =>
      obtain ⟨hcompile, -⟩ := buildEach_error hout haltersMade.proper hrootMade hnsMade heach
      obtain ⟨halters, -⟩ := (Building.leaves_iff.1
        (buildEach_spares hout haltersMade.proper hrootMade hnsMade)).2 cause each heach
      refine ⟨cause, each, ?_, hcompile, fun bytes time => ?_⟩
      · unfold build
        rw [Building.bind_of_ok hmade, Building.bind_of_ok hlisted]
        exact Building.bind_eq_error_iff.2 (.inl heach)
      · have hspared : ¬ ∃ m ∈ ns, rules.yields made m = true ∧
            rules.Touches made.home m (rules.out.place made.home ++ [Manifest.fileName]) := by
          rintro ⟨m, -, -, hm⟩
          exact BuildRules.not_touches_manifest _ hm
        rw [← haltersMade.home]
        exact (halters.files _ bytes time hspared).trans (haltersMade.files _ bytes time not_false)

/-- What compiling a file, building one source anew and building all sources end with, if files can be written
    and the manifest can be read: a failure to compile that names the page, or an error of a source that
    escapes. A source that escapes ends each of them with an error that names no page; of a batch of changes
    none is built after it, and a build of all sources does not write the manifest. -/
theorem sources_fail_by_name_or_escape :
    (∀ (p : Path) (root : Option Path) (e : BuildError), compileFile rules.compiling tree p root = .error e →
      e.Names p ∨ Escapes rules tree p e) ∧
    (∀ (p : Path) (n : PageName) (e : BuildError) (tree' : FileTree), p.hasNul = false →
      p.place tree.home = rules.root.place tree.home ++ n.source → tree.doesExist p = true →
      buildFile rules p tree = .error e tree' →
        e.Names p ∨ Escapes rules tree p e ∨ (∃ cause, e = .file cause) ∨ ∃ cause, e = .manifest cause) ∧
    (∀ (e : BuildError) (tree' : FileTree), build rules tree = .error e tree' →
      (∃ n, tree.IsPage rules.root n ∧
        (e.Names (rules.sourcePath n) ∨ Escapes rules tree (rules.sourcePath n) e)) ∨
      ∃ cause, e = .file cause) ∧
    (∀ (p : Path) (e : BuildError), Escapes rules tree p e → (∀ cause, e ≠ .compile cause) ∧
      ∀ modules, Manifest.read tree rules.out = .ok modules → buildFile rules p tree = .error e tree ∧
        ∀ rest, rebuildEach rules (p :: rest) tree = .error e tree) ∧
    ∀ (n : PageName) (e : BuildError), tree.IsPage rules.root n → Escapes rules tree (rules.sourcePath n) e →
      ∃ e' tree', build rules tree = .error e' tree' ∧ (∀ cause, e' ≠ .compile cause) ∧
        ∀ bytes time,
          tree'.entry? (rules.out.place tree.home ++ [Manifest.fileName]) = some (.file bytes time) ↔
            tree.entry? (rules.out.place tree.home ++ [Manifest.fileName]) = some (.file bytes time) := by
  refine ⟨fun p root e h => compileFile_error h, fun p n e tree' hp hplace hexists h => ?_,
    fun e tree' h => build_error hproper hroot hout h, fun p e h => ⟨h.ne_compile, fun modules hread => ?_⟩,
    fun n e hn h => build_of_escapes hproper hroot hout hn h⟩
  · have hnul := (FileTree.place_of_locate (FileTree.isDirectory_iff.1 hroot).1).2
    exact buildFile_error (n.pathSlug_eq hp hnul hplace) hexists h
  · exact h.buildFile hread

end

/-- A site whose only source is a byte that is no text. -/
def brokenSite : FileTree :=
  ⟨[], [(["c"], .directory), (["c", "a.md"], .file [0xff] 0), (["o"], .directory)], .plain⟩

/-- It escapes, and no manifest is written. -/
theorem brokenSite_escapes :
    brokenSite.IsProper ∧ brokenSite.isDirectory smallRules.root = true ∧ smallRules.out.IsSpelled ∧
    ∃ (n : PageName) (e : BuildError), smallRules.sourcePath n = .ofText "c/a.md" ∧
      brokenSite.IsPage smallRules.root n ∧ Escapes smallRules brokenSite (.ofText "c/a.md") e ∧
      ∃ e' tree', build smallRules brokenSite = .error e' tree' ∧ (∀ cause, e' ≠ .compile cause) ∧
        ∀ bytes time, tree'.entry? (smallRules.out.place brokenSite.home ++ [Manifest.fileName])
            = some (.file bytes time) ↔
          brokenSite.entry? (smallRules.out.place brokenSite.home ++ [Manifest.fileName])
            = some (.file bytes time) := by
  obtain ⟨hproper, hroot⟩ : brokenSite.IsProper ∧ brokenSite.isDirectory smallRules.root = true := by
    decide
  have hout : smallRules.out.IsSpelled := Path.isSpelled_ofText "o"
  obtain ⟨-, -, -, -, hstops⟩ := sources_fail_by_name_or_escape hproper hroot hout
  have hread : brokenSite.read (.ofText "c/a.md") = .ok ([0xff], 0) := rfl
  have hdecode : Text.decodeUtf8 [0xff] = .error ⟨.badStart, 0, 0, 0xff⟩ := rfl
  have hescapes := @Escapes.encoding smallRules _ _ _ _ _ hread hdecode
  have hn : brokenSite.IsPage smallRules.root ⟨[], "a", by simp, by decide, by decide⟩ := ⟨[0xff], 0, rfl⟩
  exact ⟨hproper, hroot, hout, _, _, rfl, hn, hescapes, hstops _ _ hn hescapes⟩

end Folio
