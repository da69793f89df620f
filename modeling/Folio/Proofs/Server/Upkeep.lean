import Folio.Proofs.Server.Tending

set_option autoImplicit false

/-! # Pages that are kept up

Three things are followed of a page whose source comes and goes while its site is watched. What the provider has
for the page is what loaders would read now, unless the page is in the batch that is worked on (`Supplied`). A page
that was listed and is not any more has no module (`Accounted`). And once its source has been written or deleted and
reported, the page is waiting for its turn, is being rebuilt, or is as its source says (`Upkeep`). -/

namespace Folio

/-! ## Files that cannot be read -/

/-- A loader finds no file that it can read. -/
def LoaderError.IsUnreadable : LoaderError → Prop
  | .importing (.read (.file _)) => True
  | .building (.compile ⟨_, .file _⟩) => True
  | _ => False

/-- Answers of loaders are the same, but for why a file cannot be read. -/
def Agrees (r r' : Except LoaderError Artifact) : Prop :=
  r = r' ∨ ∃ e e', r = .error e ∧ e.IsUnreadable ∧ r' = .error e' ∧ e'.IsUnreadable

theorem Agrees.trans {r r' r'' : Except LoaderError Artifact} (h : Agrees r r') (h' : Agrees r' r'') :
    Agrees r r'' := by
  rcases h with rfl | ⟨e, e', rfl, he, rfl, he'⟩
  · exact h'
  · rcases h' with rfl | ⟨d, d', -, -, rfl, hd'⟩
    · exact .inr ⟨e, e', rfl, he, rfl, he'⟩
    · exact .inr ⟨e, d', rfl, he, rfl, hd'⟩

section

variable {tree tree' : FileTree} {p : Path}

/-- A change that does not touch a file below a directory leaves what is read from it, but for why it cannot be
    read. -/
theorem FileTree.Alters.read_cases {touched : Place → Prop} (h : FileTree.Alters touched tree tree')
    (hproper : tree.IsProper) {dir : Path} (hdir : tree.isDirectory dir = true) {names : List String}
    (hnames : ∀ s ∈ names, IsName s) (hp : dir.join ⟨false, names⟩ = p)
    (hspared : ¬ touched (dir.place tree.home ++ names)) :
    tree'.read p = tree.read p ∨ ∃ e e', tree.read p = .error e ∧ tree'.read p = .error e' := by
  have hplace : p.place tree.home = dir.place tree.home ++ names := hp ▸ Path.place_join hnames
  rw [← hplace] at hspared
  cases hread : tree.read p with
  | ok found => exact .inl (h.read hspared hread)
  | error e =>
    cases hread' : tree'.read p with
    | error e' => exact .inr ⟨e, e', rfl, rfl⟩
    | ok found =>
      have hentry := (FileTree.read_eq_ok_iff.1 hread').2
      rw [h.home, h.files _ _ _ hspared, hplace] at hentry
      have hthere : tree.read p = .ok found := by
        rw [FileTree.read_eq_ok_iff, hplace, ← hp]
        exact ⟨FileTree.locate_of_entry hproper hdir hentry, hentry⟩
      cases hread.symm.trans hthere

theorem importArtifact_congr (hprocess : tree'.process = tree.process) (h : tree'.read p = tree.read p) :
    importArtifact tree' p = importArtifact tree p := by
  simp only [importArtifact, FileTree.readText, h, hprocess]

theorem importArtifact_of_read_error {e : FileError} (h : tree.read p = .error e) :
    importArtifact tree p = .error (.read (.file e)) := by
  simp only [importArtifact, FileTree.readText, h]
  rfl

theorem compileFile_congr {rules : CompileRules} {root : Option Path} (hhome : tree'.home = tree.home)
    (hprocess : tree'.process = tree.process) (h : tree'.read p = tree.read p) :
    compileFile rules tree' p root = compileFile rules tree p root := by
  simp only [compileFile, FileTree.readText, h, compileText_congr hhome hprocess]

theorem compileFile_of_read_error {rules : CompileRules} {root : Option Path} {e : FileError}
    (h : tree.read p = .error e) : compileFile rules tree p root = .error (.compile ⟨p.text, .file e⟩) := by
  simp only [compileFile, FileTree.readText, h]
  rfl

end

namespace Live

open Provider

variable {o l l' : Live} {h : Happening} {modules modules' : List (String × Json)} {n : PageName}

/-- The loader for the page gets its artifact from its module, or from its source. -/
inductive Loads (o : Live) (n : PageName) : Prop where
  | module (out : o.tree.isDirectory o.rules.out = true) (load : ∀ tree,
      o.site.server.backend.load tree (keyFor o.rules.keyStart n.slug)
        = (importArtifact tree (o.rules.modulePath n)).mapError .importing)
  | source (load : ∀ tree, o.site.server.backend.load tree (keyFor o.rules.keyStart n.slug)
        = (compileFile o.rules.compiling tree (o.rules.sourcePath n) (some o.rules.root)).mapError .building)

/-- What the loader for the page gives, with the files as they are. -/
def given (o : Live) (n : PageName) (l : Live) : Except LoaderError Artifact :=
  o.site.server.backend.load l.tree (keyFor o.rules.keyStart n.slug)

/-- A change that touches neither the source nor the module of a page is none to its loader. -/
theorem Loads.agrees (hloads : Loads o n) (ht : Tended o modules l) {touched : Place → Prop}
    (halters : FileTree.Alters touched l.tree l'.tree)
    (hsource : ¬ touched (o.rules.root.place l.tree.home ++ n.source))
    (hmodule : ¬ touched (o.rules.out.place l.tree.home ++ n.module)) : Agrees (given o n l) (given o n l') := by
  unfold given
  cases hloads with
  | module out load =>
    rw [load, load]
    rcases halters.read_cases ht.proper (FileTree.isDirectory_mono ht.directories out) n.isName_of_mem_module rfl
      hmodule with hsame | ⟨e, e', hread, hread'⟩
    · exact .inl (congrArg _ (importArtifact_congr halters.process hsame).symm)
    · refine .inr ⟨_, _, congrArg _ (importArtifact_of_read_error hread), ?_,
        congrArg _ (importArtifact_of_read_error hread'), ?_⟩ <;> trivial
  | source load =>
    rw [load, load]
    rcases halters.read_cases ht.proper ht.root n.isName_of_mem_source rfl hsource with
      hsame | ⟨e, e', hread, hread'⟩
    · exact .inl (congrArg _ (compileFile_congr halters.home halters.process hsame).symm)
    · refine .inr ⟨_, _, congrArg _ (compileFile_of_read_error hread), ?_,
        congrArg _ (compileFile_of_read_error hread'), ?_⟩ <;> trivial

/-! ## What is touched -/

theorem Rebuild.Advances.spares {r : Rebuild} {rules : BuildRules} {tree tree' : FileTree} {m : PageName}
    {next : Option Rebuild} (h : r.Advances rules m tree next tree') : ∃ touched,
      FileTree.Alters touched tree tree' ∧ (∀ n : PageName, ¬ touched (rules.root.place tree.home ++ n.source)) ∧
        ∀ n, n ≠ m → ¬ touched (rules.out.place tree.home ++ n.module) := by
  cases h with
  | drafted _ alters => exact ⟨_, alters, fun n => source_ne_draft _ _ m, fun n _ => module_ne_draft _ _ m⟩
  | moved _ _ alters =>
    exact ⟨_, alters, fun n => BuildRules.not_touches_source _, fun n hne => BuildRules.not_touches_module hne⟩
  | listed _ alters => exact ⟨_, alters, fun n => source_ne_manifest _ _, fun n _ => module_ne_manifest _ _⟩

theorem Rebuild.Begins.spares {rules : BuildRules} {tree tree' : FileTree} {m : PageName}
    {next : Option Rebuild} (hproper : tree.IsProper) (h : Rebuild.Begins rules m modules tree next modules' tree') :
    ∃ touched, FileTree.Alters touched tree tree' ∧
      (∀ n : PageName, ¬ touched (rules.root.place tree.home ++ n.source)) ∧
        ∀ n, n ≠ m → ¬ touched (rules.out.place tree.home ++ n.module) := by
  cases h with
  | gone _ unlists =>
    refine ⟨_, unlists.alters, fun n => ?_, fun n hne => ?_⟩
    · exact not_or.2 ⟨source_ne_module _ _ m, source_ne_manifest _ _⟩
    · exact not_or.2 ⟨fun heq => hne (PageName.module_inj (List.append_cancel_left heq)), module_ne_manifest _ _⟩
  | made => exact ⟨fun _ => False, .refl hproper, fun _ => not_false, fun _ _ => not_false⟩

/-- Only the source of the page that is written or deleted is touched, and only modules of pages that are in the
    batch that is worked on. -/
theorem Tends.alters (ht : Tended o modules l) (hm : Tends o modules l h modules' l') : ∃ touched,
    FileTree.Alters touched l.tree l'.tree ∧
      (∀ n, ¬ l.Changes n h → ¬ touched (o.rules.root.place l.tree.home ++ n.source)) ∧
      ∀ n, ¬ Awaits n l → ¬ touched (o.rules.out.place l.tree.home ++ n.module) := by
  have hnone : ∀ {l' : Live}, l'.tree = l.tree → ∃ touched, FileTree.Alters touched l.tree l'.tree ∧
      (∀ n, ¬ l.Changes n h → ¬ touched (o.rules.root.place l.tree.home ++ n.source)) ∧
      ∀ n, ¬ Awaits n l → ¬ touched (o.rules.out.place l.tree.home ++ n.module) := fun htree =>
    ⟨fun _ => False, by rw [htree]; exact .refl ht.proper, fun _ _ => not_false, fun _ _ => not_false⟩
  cases hm with
  | other tree watcher => exact hnone tree
  | reported | applied => exact hnone rfl
  | @edited _ m tree changes alters =>
    refine ⟨_, alters, fun n hn heq => hn ?_, fun n _ => (source_ne_module _ _ n).symm⟩
    exact PageName.source_inj (List.append_cancel_left heq) ▸ changes
  | @begun batch rest p m next modules' tree watcher leads begins =>
    obtain ⟨touched, halters, hsources, hmodules⟩ := Rebuild.Begins.spares ht.proper begins
    refine ⟨touched, halters, fun n _ => hsources n, fun n hn => hmodules n fun heq => hn ?_⟩
    have hp := (ht.batch _ _ _ watcher).2 List.mem_cons_self
    exact ⟨batch, _, _, watcher, p, hp, heq ▸ ht.attended.rules_eq ▸ leads⟩
  | @advanced batch left r m next modules' tree watcher slug advances =>
    obtain ⟨touched, halters, hsources, hmodules⟩ := Rebuild.Advances.spares advances
    refine ⟨touched, halters, fun n _ => hsources n, fun n hn => hmodules n fun heq => hn ?_⟩
    obtain ⟨⟨p, hp, m', hleads, hslug⟩, -⟩ := ht.page _ _ _ watcher
    obtain rfl := PageName.slug_inj (slug.symm.trans hslug)
    exact ⟨batch, _, _, watcher, p, hp, heq ▸ ht.attended.rules_eq ▸ hleads⟩

/-! ## What the provider has -/

/-- What the provider has for a page, and what callers get, is what its loader would give now, unless the page is in
    the batch that is worked on. -/
def Supplied (o : Live) (n : PageName) (l : Live) : Prop :=
  Awaits n l ∨ ∃ first, Steady n.slug (fun r => Agrees r (given o n l)) first (Late l.provider) l

/-- A page stays in the batch that is worked on until the batch is applied. -/
theorem awaits_next (ht : Tended o modules l) (hm : Tends o modules l h modules' l') (hrules : l'.rules = l.rules)
    (ha : Awaits n l) : Awaits n l' ∨ ∃ batch, l.watcher = .rebuilding batch [] none ∧ l' = l.notify batch ∧
      ∃ p ∈ batch, o.rules.Leads l.tree p n := by
  obtain ⟨touched, halters, -⟩ := hm.alters ht
  obtain ⟨batch, left, page, hw, p, hp, hleads⟩ := ha
  have hleads' : l'.rules.Leads l'.tree p n := hrules ▸ leads_mono halters.directories hleads
  cases hm with
  | other tree watcher => exact .inl ⟨batch, left, page, watcher.trans hw, p, hp, hleads'⟩
  | edited => exact .inl ⟨batch, left, page, hw, p, hp, hleads'⟩
  | reported idle => simp [hw] at idle
  | applied watcher =>
    obtain ⟨rfl, -, -⟩ := Watcher.rebuilding.inj (hw.symm.trans watcher)
    exact .inr ⟨batch, watcher, rfl, p, hp, ht.attended.rules_eq ▸ hleads⟩
  | begun watcher | advanced watcher =>
    obtain ⟨rfl, -, -⟩ := Watcher.rebuilding.inj (hw.symm.trans watcher)
    exact .inl ⟨batch, _, _, rfl, p, hp, hleads'⟩

theorem supplied_next (hresolve : o.provider.resolve n.slug = .ok (keyFor o.rules.keyStart n.slug))
    (hstem : n.stem ≠ "") (hloads : Loads o n) (ht : Tended o modules l) (he : Effect l h l')
    (hm : Tends o modules l h modules' l') (hsource : ¬ l.Changes n h) (hs : Supplied o n l) : Supplied o n l' := by
  have hrules : l'.rules = l.rules := (ht.attended.next he).rules_eq.trans ht.attended.rules_eq.symm
  obtain ⟨touched, halters, hsources, hmodules⟩ := hm.alters ht
  by_cases ha : Awaits n l
  · rcases awaits_next ht hm hrules ha with ha' | ⟨batch, hw, rfl, p, hp, hleads⟩
    · exact .inl ha'
    · refine .inr ⟨_, (steady_notify ht.attended ?_).mono (fun _ => id) fun id => he.late_before⟩
      obtain ⟨hplace, hnul⟩ := FileTree.place_of_locate hleads
      have hroot := (FileTree.place_of_locate (FileTree.isDirectory_iff.1 ht.root).1).2
      rw [ht.attended.settings]
      exact exists_call_of_mem hp (hleads.isSource ((ht.batch _ _ _ hw).1 p hp).1 hstem)
        (n.pathSlug_eq hnul hroot hplace.symm)
  · obtain ⟨first, hsteady⟩ := hs.resolve_left ha
    have hagrees : Agrees (given o n l) (given o n l') :=
      hloads.agrees ht halters (hsources n hsource) (hmodules n ha)
    exact .inr ⟨first, (hsteady.next hresolve ht.attended (.inl rfl) he).mono (fun r hr => hr.trans hagrees)
      fun id => he.late_before⟩

/-! ## Modules of pages that are not listed -/

/-- A page that has been listed is listed, is being rebuilt, or has no module. -/
def Accounted (o : Live) (n : PageName) (modules : List (String × Json)) (l : Live) : Prop :=
  o.rules.entry n ∈ modules ∨ Rebuilds n l ∨ ¬ l.tree.IsFileAt (o.rules.out.place l.tree.home ++ n.module)

theorem entry_ne {rules : BuildRules} {m : PageName} (h : n ≠ m) : rules.entry n ≠ rules.entry m :=
  fun heq => h (BuildRules.entry_inj (congrArg Prod.fst heq))

theorem accounted_next (ht : Tended o modules l) (hm : Tends o modules l h modules' l')
    (ha : Accounted o n modules l) : Accounted o n modules' l' := by
  have hkeeps : ∀ {touched : Place → Prop} {tree : FileTree}, FileTree.Alters touched l.tree tree →
      ¬ touched (o.rules.out.place l.tree.home ++ n.module) →
      ¬ l.tree.IsFileAt (o.rules.out.place l.tree.home ++ n.module) →
      ¬ tree.IsFileAt (o.rules.out.place tree.home ++ n.module) := fun halters hspared hfree => by
    rwa [halters.home, halters.isFileAt_iff hspared]
  cases hm with
  | other tree watcher =>
    refine ha.imp_right fun ha => ha.imp (fun ⟨batch, left, r, hw, hslug⟩ => ?_) fun hfree => tree ▸ hfree
    exact ⟨batch, left, r, watcher.trans hw, hslug⟩
  | edited changes alters =>
    refine ha.imp_right fun ha => ha.imp id fun hfree => ?_
    exact hkeeps alters (source_ne_module _ _ n).symm hfree
  | reported idle | applied idle =>
    refine ha.imp_right fun ha => ha.imp (fun ⟨batch, left, r, hw, _⟩ => ?_) id
    simp [hw] at idle
  | @begun batch rest p m next modules' tree watcher leads begins =>
    have hnot : ¬ Rebuilds n l := not_rebuilds fun batch left r hw => by simp [hw] at watcher
    replace ha := ha.imp_right fun ha => ha.resolve_left hnot
    by_cases hnm : n = m
    · subst hnm
      cases begins with
      | gone _ unlists =>
        refine .inr (.inr ?_)
        rw [unlists.alters.home]
        exact unlists.removed fun hn => ha.resolve_left hn
      | made => exact .inr (.inl ⟨_, _, _, rfl, rfl⟩)
    · obtain ⟨touched, halters, -, hmodules⟩ := Rebuild.Begins.spares ht.proper begins
      refine ha.imp (fun hn => ?_) fun hfree => .inr (hkeeps halters (hmodules n hnm) hfree)
      cases begins with
      | gone _ unlists => exact (unlists.listed _).2 ⟨hn, entry_ne hnm⟩
      | made => exact hn
  | @advanced batch left r m next modules' tree watcher slug advances listed =>
    by_cases hnm : n = m
    · subst hnm
      cases advances with
      | drafted stage | moved stage => exact .inr (.inl ⟨_, _, _, rfl, slug⟩)
      | listed stage => exact .inl ((listed _).2 (.inr ⟨stage, rfl⟩))
    · have hnot : ¬ Rebuilds n l := by
        rintro ⟨batch, left, r, hw, hslug⟩
        obtain ⟨-, -, hr⟩ := Watcher.rebuilding.inj (hw.symm.trans watcher)
        obtain rfl := Option.some.inj hr
        exact hnm (PageName.slug_inj (hslug.symm.trans slug))
      obtain ⟨touched, halters, -, hmodules⟩ := Rebuild.Advances.spares advances
      exact (ha.imp_right fun ha => ha.resolve_left hnot).imp (fun hn => (listed _).2 (.inl hn))
        fun hfree => .inr (hkeeps halters (hmodules n hnm) hfree)

/-! ## Pages that are as their sources say -/

/-- The source of a page makes a text. -/
def SourceMakes (o : Live) (n : PageName) (text : String) (l : Live) : Prop :=
  ∃ bytes modified, l.tree.HasSource o.rules.root n bytes modified ∧
    Makes o.rules.compiling l.tree.process n.slug bytes modified text

/-- The module of a page has a text. -/
def Has (o : Live) (n : PageName) (text : String) (l : Live) : Prop :=
  ∃ time, l.tree.read (o.rules.modulePath n) = .ok (Text.encodeUtf8 text.toList, time)

/-- The rebuilding of a page has come with a text as far as its stage says. -/
def Carries (o : Live) (n : PageName) (text : String) (l : Live) (r : Rebuild) : Prop :=
  match r.stage with
  | .drafting chars _ => chars = text.toList
  | .moving => ∃ time, l.tree.entry? (o.rules.out.place l.tree.home ++ n.draft)
      = some (.file (Text.encodeUtf8 text.toList) time)
  | .listing => Has o n text l

/-- A page is about to be as its source says, or is. -/
inductive Upkeep (o : Live) (n : PageName) (modules : List (String × Json)) (l : Live) : Prop where
  /-- It has not had its turn. -/
  | queued {batch left : List Path} {page : Option Rebuild} {p : Path}
      (watcher : l.watcher = .rebuilding batch left page) (left : p ∈ left) (leads : o.rules.Leads l.tree p n)
  | underway {batch left : List Path} {r : Rebuild} {text : String}
      (watcher : l.watcher = .rebuilding batch left (some r)) (slug : r.slug = n.slug)
      (makes : SourceMakes o n text l) (carries : Carries o n text l r)
  | built {text : String} (rests : ¬ Rebuilds n l) (listed : o.rules.entry n ∈ modules)
      (makes : SourceMakes o n text l) (module : Has o n text l)
  | gone (rests : ¬ Rebuilds n l) (unlisted : o.rules.entry n ∉ modules) (gone : ¬ l.tree.IsPage o.rules.root n)

theorem Has.alters {text : String} (hh : Has o n text l) (l' : Live) {touched : Place → Prop}
    (halters : FileTree.Alters touched l.tree l'.tree)
    (hspared : ¬ touched (o.rules.out.place l.tree.home ++ n.module)) : Has o n text l' := by
  obtain ⟨time, hread⟩ := hh
  exact ⟨time, halters.read (n.place_module l.tree.home o.rules.out ▸ hspared) hread⟩

section

variable (ht : Tended o modules l) (hm : Tends o modules l h modules' l') (hsource : ¬ l.Changes n h)
include ht hm hsource

/-- What the source of a page says changes only when it is written or deleted. -/
theorem sourceMakes_iff {text : String} : SourceMakes o n text l' ↔ SourceMakes o n text l := by
  obtain ⟨touched, halters, hsources, -⟩ := hm.alters ht
  unfold SourceMakes
  rw [halters.process]
  exact exists_congr fun _ => exists_congr fun _ => and_congr_left fun _ =>
    halters.hasSource_iff (hsources n hsource)

theorem isPage_iff : l'.tree.IsPage o.rules.root n ↔ l.tree.IsPage o.rules.root n := by
  obtain ⟨touched, halters, hsources, -⟩ := hm.alters ht
  exact halters.isPage_iff (hsources n hsource)

/-- A page that waits for its turn has it, and then it is rebuilt or is gone. -/
theorem queued_next {batch left : List Path} {page : Option Rebuild} {p : Path}
    (hw : l.watcher = .rebuilding batch left page) (hp : p ∈ left) (hleads : o.rules.Leads l.tree p n) :
    Upkeep o n modules' l' := by
  obtain ⟨touched, halters, -⟩ := hm.alters ht
  have hleads' : o.rules.Leads l'.tree p n := leads_mono halters.directories hleads
  have hpage := isPage_iff ht hm hsource
  cases hm with
  | other tree watcher => exact .queued (watcher.trans hw) hp hleads'
  | edited => exact .queued hw hp hleads'
  | reported idle => simp [hw] at idle
  | applied watcher =>
    obtain ⟨-, rfl, -⟩ := Watcher.rebuilding.inj (hw.symm.trans watcher)
    simp at hp
  | advanced watcher =>
    obtain ⟨rfl, rfl, -⟩ := Watcher.rebuilding.inj (hw.symm.trans watcher)
    exact .queued rfl hp hleads'
  | @begun _ rest q m next modules' tree watcher leads begins =>
    obtain ⟨rfl, rfl, rfl⟩ := Watcher.rebuilding.inj (hw.symm.trans watcher)
    rcases List.mem_cons.1 hp with rfl | hp
    · obtain rfl := leads_inj hleads leads
      cases begins with
      | gone gone unlists =>
        exact .gone (not_rebuilds (by simp)) (fun hn => ((unlists.listed _).1 hn).2 rfl) (mt hpage.1 gone)
      | made source makes => exact .underway rfl rfl ⟨_, _, source, makes⟩ rfl
    · exact .queued rfl hp hleads'

/-- A page that is being rebuilt gets on, until it is built. -/
theorem underway_next {batch left : List Path} {r : Rebuild} {text : String}
    (hw : l.watcher = .rebuilding batch left (some r)) (hslug : r.slug = n.slug) (hmakes : SourceMakes o n text l)
    (hcarries : Carries o n text l r) : Upkeep o n modules' l' := by
  replace hmakes := (sourceMakes_iff ht hm hsource).2 hmakes
  cases hm with
  | @other _ l' tree watcher =>
    refine .underway (watcher.trans hw) hslug hmakes ?_
    unfold Carries Has at hcarries ⊢
    rwa [tree]
  | edited changes alters =>
    refine .underway hw hslug hmakes ?_
    unfold Carries at hcarries ⊢
    split at hcarries
    · exact hcarries
    · obtain ⟨time, hdraft⟩ := hcarries
      exact ⟨time, alters.home ▸ (alters.files _ _ _ (source_ne_draft _ _ n).symm).2 hdraft⟩
    · exact hcarries.alters { l with tree := _ } alters (source_ne_module _ _ n).symm
  | reported idle => simp [hw] at idle
  | applied watcher | begun watcher => simp [hw] at watcher
  | @advanced _ _ r' m next modules' tree watcher slug advances listed =>
    obtain ⟨rfl, rfl, hr⟩ := Watcher.rebuilding.inj (hw.symm.trans watcher)
    obtain rfl := Option.some.inj hr
    obtain rfl := PageName.slug_inj (hslug.symm.trans slug)
    cases advances with
    | drafted stage alters draft =>
      simp only [Carries, stage] at hcarries
      exact .underway rfl hslug hmakes ⟨_, hcarries ▸ alters.home ▸ draft⟩
    | moved stage draft alters module =>
      simp only [Carries, stage] at hcarries
      obtain ⟨time, hdraft⟩ := hcarries
      obtain ⟨rfl, rfl⟩ := Entry.file.inj (Option.some.inj (draft.symm.trans hdraft))
      exact .underway rfl hslug hmakes ⟨_, module⟩
    | listed stage alters =>
      simp only [Carries, stage] at hcarries
      exact .built (not_rebuilds (by simp)) ((listed _).2 (.inr ⟨stage, rfl⟩)) hmakes
        (hcarries.alters { l with tree := tree, watcher := _ } alters (module_ne_manifest _ _))

/-- A page that is as its source says stays so, unless it is rebuilt, with what its source says. -/
theorem built_next {text : String} (hrests : ¬ Rebuilds n l) (hlisted : o.rules.entry n ∈ modules)
    (hmakes : SourceMakes o n text l) (hmodule : Has o n text l) : Upkeep o n modules' l' := by
  have hmakes' := (sourceMakes_iff ht hm hsource).2 hmakes
  cases hm with
  | @other _ l' tree watcher =>
    refine .built (mt (rebuilds_congr watcher).1 hrests) hlisted hmakes' ?_
    unfold Has at hmodule ⊢
    rwa [tree]
  | edited changes alters =>
    exact .built hrests hlisted hmakes'
      (hmodule.alters { l with tree := _ } alters (source_ne_module _ _ n).symm)
  | reported => exact .built (not_rebuilds (by simp)) hlisted hmakes' hmodule
  | applied => exact .built (not_rebuilds (by simp [notify])) hlisted hmakes' hmodule
  | @begun batch rest p m next modules' tree watcher leads begins =>
    by_cases hnm : n = m
    · subst hnm
      obtain ⟨_, _, hthere, -⟩ := hmakes
      cases begins with
      | gone gone => exact absurd ⟨_, _, hthere⟩ gone
      | made source makes => exact .underway rfl rfl ⟨_, _, source, makes⟩ rfl
    · obtain ⟨touched, halters, -, hmodules⟩ := Rebuild.Begins.spares ht.proper begins
      refine .built ?_ ?_ hmakes' (hmodule.alters { l with tree := tree, watcher := _ } halters (hmodules n hnm))
      · rintro ⟨_, _, r, hw, hslug⟩
        obtain ⟨-, -, rfl⟩ := Watcher.rebuilding.inj hw
        cases begins with
        | made => exact hnm (PageName.slug_inj hslug).symm
      · cases begins with
        | gone _ unlists => exact (unlists.listed _).2 ⟨hlisted, entry_ne hnm⟩
        | made => exact hlisted
  | @advanced batch left r m next modules' tree watcher slug advances listed =>
    have hnm : n ≠ m := fun heq => hrests ⟨_, _, _, watcher, heq ▸ slug⟩
    obtain ⟨touched, halters, -, hmodules⟩ := Rebuild.Advances.spares advances
    refine .built ?_ ((listed _).2 (.inl hlisted)) hmakes'
      (hmodule.alters { l with tree := tree, watcher := _ } halters (hmodules n hnm))
    rintro ⟨_, _, r', hw, hslug⟩
    obtain ⟨-, -, rfl⟩ := Watcher.rebuilding.inj hw
    cases advances <;> exact hnm (PageName.slug_inj (hslug.symm.trans slug))

/-- A page that is gone stays so. -/
theorem gone_next (hrests : ¬ Rebuilds n l) (hunlisted : o.rules.entry n ∉ modules)
    (hgone : ¬ l.tree.IsPage o.rules.root n) : Upkeep o n modules' l' := by
  have hgone' := mt (isPage_iff ht hm hsource).1 hgone
  cases hm with
  | other tree watcher =>
    exact .gone (mt (rebuilds_congr watcher).1 hrests) hunlisted hgone'
  | edited => exact .gone hrests hunlisted hgone'
  | reported => exact .gone (not_rebuilds (by simp)) hunlisted hgone'
  | applied => exact .gone (not_rebuilds (by simp [notify])) hunlisted hgone'
  | @begun batch rest p m next modules' tree watcher leads begins =>
    cases begins with
    | gone _ unlists =>
      exact .gone (not_rebuilds (by simp)) (mt (fun hn => ((unlists.listed _).1 hn).1) hunlisted)
        hgone'
    | made source =>
      refine .gone ?_ hunlisted hgone'
      rintro ⟨_, _, r, hw, hslug⟩
      obtain ⟨-, -, hr⟩ := Watcher.rebuilding.inj hw
      obtain rfl := Option.some.inj hr
      exact hgone (PageName.slug_inj hslug ▸ ⟨_, _, source⟩)
  | @advanced batch left r m next modules' tree watcher slug advances listed =>
    have hnm : n ≠ m := fun heq => hrests ⟨_, _, _, watcher, heq ▸ slug⟩
    refine .gone ?_ (fun hn => ?_) hgone'
    · rintro ⟨_, _, r', hw, hslug⟩
      obtain ⟨-, -, rfl⟩ := Watcher.rebuilding.inj hw
      cases advances <;> exact hnm (PageName.slug_inj (hslug.symm.trans slug))
    · exact ((listed _).1 hn).elim hunlisted fun hn => entry_ne hnm hn.2

/-- Whatever happens to other pages, a page is about to be as its source says, or is. -/
theorem upkeep_next (hu : Upkeep o n modules l) : Upkeep o n modules' l' := by
  cases hu with
  | queued watcher left leads => exact queued_next ht hm hsource watcher left leads
  | underway watcher slug makes carries => exact underway_next ht hm hsource watcher slug makes carries
  | built rests listed makes module => exact built_next ht hm hsource rests listed makes module
  | gone rests unlisted gone => exact gone_next ht hm hsource rests unlisted gone

end

end Live

end Folio
