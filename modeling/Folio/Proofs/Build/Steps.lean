import Folio.Build
import Folio.Proofs.FileTree.Sources
import Folio.Proofs.Manifest.Listing

set_option autoImplicit false

/-! # The steps of a build

Work that gives a result gives one in each of its steps. The text of a module is made from the bytes of
its source, the time of their last change and the slug, by the process that makes it and from nothing else
(`Makes`). To build one page
is to write this text to the place of its module (`buildOne_ok`): no other module, no source and no
manifest is touched, since the last characters of their names differ. -/

namespace Folio

/-! ## Work -/

namespace Building

variable {α β : Type} {tree tree' : FileTree}

theorem bind_eq_ok_iff {work : Building α} {next : α → Building β} {b : β} :
    (work >>= next) tree = .ok b tree' ↔ ∃ a mid, work tree = .ok a mid ∧ next a mid = .ok b tree' := by
  change EStateM.bind work next tree = _ ↔ _
  unfold EStateM.bind
  cases work tree with
  | ok a mid =>
    constructor
    · exact fun h => ⟨a, mid, rfl, h⟩
    · rintro ⟨a', mid', heq, h⟩
      obtain ⟨rfl, rfl⟩ := EStateM.Result.ok.inj heq
      exact h
  | error e mid => simp

theorem pure_eq_ok_iff {a b : α} : (pure a : Building α) tree = .ok b tree' ↔ a = b ∧ tree = tree' := by
  change EStateM.Result.ok a tree = .ok b tree' ↔ _
  exact EStateM.Result.ok.injEq _ _ _ _ ▸ Iff.rfl

theorem throw_ne_ok {e : BuildError} {a : α} : (throw e : Building α) tree ≠ .ok a tree' :=
  fun h => by cases h

theorem inspect_eq_ok_iff {f : FileTree → Except BuildError α} {a : α} :
    inspect f tree = .ok a tree' ↔ f tree = .ok a ∧ tree = tree' := by
  unfold inspect
  cases f tree <;> simp

theorem change_eq_ok_iff {f : FileTree → Except FileError FileTree} {u : Unit} :
    change f tree = .ok u tree' ↔ f tree = .ok tree' := by
  unfold change
  cases f tree <;> simp

theorem attempt_eq_ok_iff {f : FileTree → Except (FileError × FileTree) FileTree} {u : Unit} :
    attempt f tree = .ok u tree' ↔ f tree = .ok tree' := by
  unfold attempt
  cases f tree <;> simp

/-- Work that has a result leaves the files that it is said to leave. -/
theorem eq_ok_of_result {work : Building α} {a : α} (h : (work.result tree).1.toOption = some a) :
    work tree = .ok a (work.result tree).2 := by
  unfold result at h ⊢
  split at h
  · next b after hwork =>
    obtain rfl := Option.some.inj h
    simp only [hwork]
  · simp [Except.toOption] at h

end Building

/-! ## Last characters -/

namespace Path

/-- The last character of the last name at a place. -/
def lastChar? (q : Place) : Option Char :=
  q.getLast?.bind fun s => s.toList.getLast?

theorem lastChar?_append (place : Place) (dirs : List String) (stem ending : String) {c : Char}
    (h : ending.toList.getLast? = some c) : lastChar? (place ++ (dirs ++ [stem ++ ending])) = some c := by
  rw [← List.append_assoc, lastChar?, List.getLast?_concat, Option.bind_some, String.toList_append,
    List.getLast?_append, h]
  rfl

variable (place : Place) (n : PageName)

theorem lastChar?_source : lastChar? (place ++ n.source) = some 'd' :=
  lastChar?_append place n.dirs n.stem ".md" rfl

theorem lastChar?_module : lastChar? (place ++ n.module) = some 'y' :=
  lastChar?_append place n.dirs n.stem ".py" rfl

theorem lastChar?_draft : lastChar? (place ++ n.draft) = some 'p' :=
  lastChar?_append place n.dirs ("." ++ (n.stem ++ ".py")) ".tmp" rfl

theorem lastChar?_manifest : lastChar? (place ++ [Manifest.fileName]) = some 'n' :=
  lastChar?_append place [] "manifest.jso" "n" rfl

theorem ne_of_lastChar? {q q' : Place} {c d : Char} (h : lastChar? q = some c) (h' : lastChar? q' = some d)
    (hne : c ≠ d) : q ≠ q' := by
  rintro rfl
  exact hne (Option.some.inj (h.symm.trans h'))

end Path

section

variable {n : PageName} (place place' : Place) (m : PageName)

theorem source_ne_module : place ++ n.source ≠ place' ++ m.module :=
  Path.ne_of_lastChar? (Path.lastChar?_source _ n) (Path.lastChar?_module _ m) (by decide)

theorem source_ne_draft : place ++ n.source ≠ place' ++ m.draft :=
  Path.ne_of_lastChar? (Path.lastChar?_source _ n) (Path.lastChar?_draft _ m) (by decide)

theorem module_ne_draft : place ++ n.module ≠ place' ++ m.draft :=
  Path.ne_of_lastChar? (Path.lastChar?_module _ n) (Path.lastChar?_draft _ m) (by decide)

theorem source_ne_manifest : place ++ n.source ≠ place' ++ [Manifest.fileName] :=
  Path.ne_of_lastChar? (Path.lastChar?_source _ n) (Path.lastChar?_manifest _) (by decide)

theorem module_ne_manifest : place ++ n.module ≠ place' ++ [Manifest.fileName] :=
  Path.ne_of_lastChar? (Path.lastChar?_module _ n) (Path.lastChar?_manifest _) (by decide)

theorem draft_ne_manifest : place ++ n.draft ≠ place' ++ [Manifest.fileName] :=
  Path.ne_of_lastChar? (Path.lastChar?_draft _ n) (Path.lastChar?_manifest _) (by decide)

end

/-! ## Compiling -/

theorem statsOf_ok {words : Nat} {wordsPerMinute : Int} {headings : List Html.Heading} {stats : PageStats}
    (h : statsOf words wordsPerMinute headings = .ok stats) :
    ∃ minutes : Nat, readingTime words wordsPerMinute = .ok minutes ∧ stats = ⟨words, minutes, headings⟩ := by
  unfold statsOf at h
  obtain ⟨minutes, hminutes, h⟩ := Except.bind_eq_ok_iff.1 h
  split at h
  · next n =>
    obtain rfl := Except.pure_eq_ok_iff.1 h
    exact ⟨n, Except.mapError_eq_ok_iff.1 hminutes, rfl⟩
  · cases h

/-- A source that compiles can be taken apart, rendered and counted, and its header is plain data. -/
theorem compileSource_ok {rules : CompileRules} {slug source : String} {modified : DateTime}
    {order : List Value → List Value} {a : Artifact}
    (h : compileSource rules slug modified source order = .ok a) :
    ∃ parts page members stats, FrontMatter.split source rules.separator = .ok parts ∧
      render rules.options parts.body = .ok page ∧
      Json.ofEntries (Value.arrangedEntries order parts.entries) = .ok members ∧
      statsOf (wordCount parts.body) rules.wordsPerMinute page.headings = .ok stats ∧
      a = ⟨Json.membersOf members, page.html, parts.excerpt, slug, modified, stats⟩ := by
  unfold compileSource at h
  obtain ⟨parts, hparts, h⟩ := Except.bind_eq_ok_iff.1 h
  obtain ⟨page, hpage, h⟩ := Except.bind_eq_ok_iff.1 h
  obtain ⟨members, hmembers, h⟩ := Except.bind_eq_ok_iff.1 h
  obtain ⟨stats, hstats, h⟩ := Except.bind_eq_ok_iff.1 h
  obtain rfl := Except.pure_eq_ok_iff.1 h
  exact ⟨parts, page, members, stats, Except.mapError_eq_ok_iff.1 hparts, Except.mapError_eq_ok_iff.1 hpage,
    Except.mapError_eq_ok_iff.1 hmembers, hstats, rfl⟩

/-- In a process the bytes of a source, changed at a time, compile to an artifact with a slug. -/
def Compiles (rules : CompileRules) (process : Process) (slug : String) (bytes : List UInt8) (modified : Int)
    (artifact : Artifact) : Prop :=
  ∃ cs, Text.decodeUtf8 bytes = .ok cs ∧
    compileSource rules slug (FileTree.moment modified) (String.ofList (FileTree.unifyNewlines cs)) process.order
      = .ok artifact

/-- In a process the bytes of a source, changed at a time, make the text of a module for a slug. -/
def Makes (rules : CompileRules) (process : Process) (slug : String) (bytes : List UInt8) (modified : Int)
    (text : String) : Prop :=
  ∃ artifact, Compiles rules process slug bytes modified artifact ∧
    PageModule.emit artifact (sourceLabel slug) = .ok text

section

variable {rules : CompileRules} {process : Process} {slug : String} {bytes : List UInt8} {modified : Int}

theorem Compiles.unique {a b : Artifact} (ha : Compiles rules process slug bytes modified a)
    (hb : Compiles rules process slug bytes modified b) : a = b := by
  obtain ⟨cs, hcs, ha⟩ := ha
  obtain ⟨ds, hds, hb⟩ := hb
  obtain rfl := Except.ok.inj (hcs.symm.trans hds)
  exact Except.ok.inj (ha.symm.trans hb)

theorem Makes.unique {text text' : String} (h : Makes rules process slug bytes modified text)
    (h' : Makes rules process slug bytes modified text') : text = text' := by
  obtain ⟨a, ha, htext⟩ := h
  obtain ⟨b, hb, htext'⟩ := h'
  obtain rfl := ha.unique hb
  exact Except.ok.inj (htext.symm.trans htext')

theorem Compiles.slug_eq {a : Artifact} (h : Compiles rules process slug bytes modified a) : a.slug = slug := by
  obtain ⟨cs, -, h⟩ := h
  obtain ⟨-, -, -, -, -, -, -, -, rfl⟩ := compileSource_ok h
  rfl

theorem readText_eq_ok_iff {tree : FileTree} {p : Path} {text : List Char} {modified : Int} :
    tree.readText p = .ok (text, modified) ↔ ∃ bytes cs, tree.read p = .ok (bytes, modified) ∧
      Text.decodeUtf8 bytes = .ok cs ∧ FileTree.unifyNewlines cs = text := by
  unfold FileTree.readText
  simp only [Except.bind_eq_ok_iff, Except.mapError_eq_ok_iff, Except.pure_eq_ok_iff, Prod.exists,
    Prod.mk.injEq]
  constructor
  · rintro ⟨bytes, modified, hread, cs, hdecode, htext, rfl⟩
    exact ⟨bytes, cs, hread, hdecode, htext⟩
  · rintro ⟨bytes, cs, hread, hdecode, htext⟩
    exact ⟨bytes, modified, hread, cs, hdecode, htext, rfl⟩

/-- A text compiles alike in trees with the same process and working directory. -/
theorem compileText_congr {tree tree' : FileTree} (hhome : tree'.home = tree.home)
    (hprocess : tree'.process = tree.process) (p : Path) (root : Option Path) (modified : DateTime) (text : String) :
    compileText rules tree' p root modified text = compileText rules tree p root modified text := by
  rw [compileText, compileText, hhome, hprocess]

/-- A file compiles if it can be read and its bytes compile. -/
theorem compileFile_eq_ok_iff {tree : FileTree} {p : Path} {root : Option Path} {a : Artifact} :
    compileFile rules tree p root = .ok a ↔ ∃ bytes modified, tree.read p = .ok (bytes, modified) ∧
      Compiles rules tree.process (pathSlug tree.home p root) bytes modified a := by
  have htext : compileFile rules tree p root = .ok a ↔ ∃ text modified,
      tree.readText p = .ok (text, modified) ∧
        compileSource rules (pathSlug tree.home p root) (FileTree.moment modified) (String.ofList text)
          tree.process.order = .ok a := by
    unfold compileFile compileText
    cases tree.readText p with
    | error e => cases e <;> simp
    | ok found =>
      obtain ⟨text, modified⟩ := found
      simp [Except.mapError_eq_ok_iff]
  rw [htext]
  simp only [readText_eq_ok_iff, Compiles]
  constructor
  · rintro ⟨text, modified, ⟨bytes, cs, hread, hdecode, rfl⟩, hcompile⟩
    exact ⟨bytes, modified, hread, cs, hdecode, hcompile⟩
  · rintro ⟨bytes, modified, hread, cs, hdecode, hcompile⟩
    exact ⟨_, modified, ⟨bytes, cs, hread, hdecode, rfl⟩, hcompile⟩

end

/-! ## Pages -/

namespace BuildRules

variable (rules : BuildRules) (n : PageName)

/-- The path of the source of a page. -/
def sourcePath : Path := rules.root.join ⟨false, n.source⟩

/-- The path of the module of a page. -/
def modulePath : Path := rules.out.join ⟨false, n.module⟩

/-- What a build says of a page. -/
def page : BuiltPage := ⟨rules.sourcePath n, rules.modulePath n, keyFor rules.keyStart n.slug, n.slug⟩

/-- What the manifest of a build says of a page. -/
def entry : String × Json := (keyFor rules.keyStart n.slug, .string (modulePlace n.slug))

end BuildRules

/-- A file stays where it is when no change touches it. -/
theorem FileTree.Alters.read {touched : Place → Prop} {tree tree' : FileTree}
    (h : FileTree.Alters touched tree tree') {p : Path} (hp : ¬ touched (p.place tree.home))
    {bytes : List UInt8} {modified : Int} (hread : tree.read p = .ok (bytes, modified)) :
    tree'.read p = .ok (bytes, modified) := by
  obtain ⟨hlocate, hentry⟩ := FileTree.read_eq_ok_iff.1 hread
  rw [FileTree.read_eq_ok_iff, h.home]
  exact ⟨FileTree.locate_mono h.directories hlocate, (h.files _ _ _ hp).2 hentry⟩

/-- A source that is built compiles, its module is written, and its page is registered under the slug of its path. -/
theorem exists_of_buildOne {rules : BuildRules} {tree tree' : FileTree} {p : Path} {page : BuiltPage}
    (h : buildOne rules p tree = .ok page tree') :
    ∃ artifact text, compileFile rules.compiling tree p (some rules.root) = .ok artifact ∧
      artifact.slug = pathSlug tree.home p (some rules.root) ∧
      PageModule.emit artifact (sourceLabel artifact.slug) = .ok text ∧
      tree.writeWhole (rules.out.join (.ofText (moduleName artifact.slug))) text.toList (modifiedTime tree p)
        = .ok tree' ∧
      page = ⟨p, rules.out.join (.ofText (moduleName artifact.slug)), keyFor rules.keyStart artifact.slug,
        artifact.slug⟩ := by
  unfold buildOne at h
  obtain ⟨artifact, mid, hinspect, h⟩ := Building.bind_eq_ok_iff.1 h
  obtain ⟨hcompile, rfl⟩ := Building.inspect_eq_ok_iff.1 hinspect
  obtain ⟨text, mid, hinspect, h⟩ := Building.bind_eq_ok_iff.1 h
  obtain ⟨hemit, rfl⟩ := Building.inspect_eq_ok_iff.1 hinspect
  obtain ⟨_, mid, hattempt, h⟩ := Building.bind_eq_ok_iff.1 h
  obtain ⟨rfl, rfl⟩ := Building.pure_eq_ok_iff.1 h
  obtain ⟨_, _, -, hcompiles⟩ := compileFile_eq_ok_iff.1 hcompile
  exact ⟨artifact, text, hcompile, hcompiles.slug_eq, Except.mapError_eq_ok_iff.1 hemit,
    Building.attempt_eq_ok_iff.1 hattempt, rfl⟩

/-- To build a page is to write the text that its source makes to the place of its module. -/
theorem buildOne_ok {rules : BuildRules} {tree tree' : FileTree} (hproper : tree.IsProper)
    (hout : rules.out.IsSpelled) {p : Path} {n : PageName}
    (hslug : pathSlug tree.home p (some rules.root) = n.slug) {page : BuiltPage}
    (h : buildOne rules p tree = .ok page tree') :
    page = ⟨p, rules.modulePath n, keyFor rules.keyStart n.slug, n.slug⟩ ∧
    ∃ bytes modified text, tree.read p = .ok (bytes, modified) ∧
      Makes rules.compiling tree.process n.slug bytes modified text ∧
      FileTree.Alters (fun q => q = rules.out.place tree.home ++ n.module ∨
        q = rules.out.place tree.home ++ n.draft) tree tree' ∧
      (∃ time, tree'.read (rules.modulePath n) = .ok (Text.encodeUtf8 text.toList, time)) ∧
      tree'.entry? (rules.out.place tree.home ++ n.draft) = none ∧
      ∀ s ∈ n.draft, FileTree.IsFileName s := by
  obtain ⟨artifact, text, hcompile, hartifact, hemit, hwrite, rfl⟩ := exists_of_buildOne h
  obtain ⟨bytes, modified, hread, hcompile⟩ := compileFile_eq_ok_iff.1 hcompile
  rw [hslug] at hcompile hartifact
  have hmodule : rules.out.join (.ofText (moduleName artifact.slug)) = rules.modulePath n := by
    rw [hartifact, moduleName, n.ofText_moduleText]
    rfl
  have hdraft : (rules.modulePath n).draft = rules.out.join ⟨false, n.draft⟩ := n.draft_join rules.out
  have hplace : (rules.modulePath n).place tree.home = rules.out.place tree.home ++ n.module :=
    n.place_module tree.home rules.out
  have hplaceDraft := n.place_draft tree.home rules.out
  have hne : rules.out.place tree.home ++ n.module ≠ rules.out.place tree.home ++ n.draft :=
    module_ne_draft _ _ n
  rw [hmodule] at hwrite
  have hspelled : (rules.modulePath n).IsSpelled := n.isSpelled_module hout
  obtain ⟨halters, hthere, hgone, hnames⟩ := FileTree.writeWhole_ok hproper hspelled
    (hdraft ▸ n.isSpelled_draft hout) (by rwa [hdraft, hplace, hplaceDraft]) hwrite
  rw [hdraft, hplaceDraft, hplace] at halters
  rw [hdraft, hplaceDraft] at hgone hnames
  refine ⟨?_, bytes, modified, text, hread, ⟨artifact, hcompile, ?_⟩, halters, ⟨_, hthere⟩, hgone,
    fun s hs => hnames s (List.mem_append_right _ hs)⟩
  · rw [hmodule, hartifact]
  · rw [← hartifact]
    exact hemit

/-- A build that succeeds makes its directory, builds the sources that are found then, none of which fails to
    compile, and lists what it has built. -/
theorem build_ok {rules : BuildRules} {tree tree' : FileTree} {built : List BuiltPage}
    (h : build rules tree = .ok built tree') :
    ∃ made done each, tree.makeDirectories rules.out = .ok made ∧
      buildEach rules (made.sources rules.root) made = .ok done each ∧ done.failed = [] ∧
      done.built = built ∧ Manifest.write each rules.out (modulesOf built) = .ok tree' := by
  unfold build at h
  obtain ⟨_, made, hmade, h⟩ := Building.bind_eq_ok_iff.1 h
  obtain ⟨sources, mid, hinspect, h⟩ := Building.bind_eq_ok_iff.1 h
  obtain ⟨hsources, rfl⟩ := Building.inspect_eq_ok_iff.1 hinspect
  obtain rfl := Except.ok.inj hsources
  obtain ⟨done, each, heach, h⟩ := Building.bind_eq_ok_iff.1 h
  obtain ⟨_, last, hmanifest, h⟩ := Building.bind_eq_ok_iff.1 h
  have hfailed : done.failed = [] := by
    cases hcase : done.failed with
    | nil => rfl
    | cons e rest =>
      simp only [hcase] at h
      exact absurd h Building.throw_ne_ok
  simp only [hfailed] at h
  obtain ⟨rfl, rfl⟩ := Building.pure_eq_ok_iff.1 h
  exact ⟨made, done, each, Building.change_eq_ok_iff.1 hmade, heach, hfailed, rfl,
    Building.change_eq_ok_iff.1 hmanifest⟩

end Folio
