import Folio.Proofs.Build.Ledger
import Folio.Proofs.Server.Steadiness

set_option autoImplicit false

/-! # Sites whose pages come and go

Sources are written and deleted while a site is watched, and every source that the watcher comes to compiles. What
is always so of such a site is `Live.Tended`. What can become of it, and of what its manifest lists, is said once in
`Live.Tends`: while the watcher works, only the module of the page at its turn and the manifest are touched. -/

namespace Folio.Live

open Provider

/-! ## Sources -/

/-- What happens writes or deletes the source of a page. -/
def Changes (l : Live) (n : PageName) : Happening → Prop
  | .edit e => (∃ tree, e.apply l.tree = .ok tree) ∧
      e.path.place l.tree.home = l.rules.root.place l.tree.home ++ n.source
  | .act (.modify m bytes modified) => m = n ∧ ∃ tree, l.tree.write (l.rules.sourcePath n) bytes modified = .ok tree
  | _ => False

/-- Only sources of pages are written, deleted and reported. -/
def Proper (l : Live) : Happening → Prop
  | .edit e => e.IsOfSource l.rules l.tree.home
  | .act (.report paths) => ∀ p ∈ changedPaths paths, ∃ n, l.rules.Leads l.tree p n
  | _ => True

/-- The source to which the watcher comes next compiles, if it is there. -/
def TurnCompiles (l : Live) : Prop :=
  ∀ batch p rest, l.watcher = .rebuilding batch (p :: rest) none → l.tree.doesExist p = true →
    ∃ a, compileFile l.rules.compiling l.tree p (some l.rules.root) = .ok a

/-- The source of a page is in the batch that is worked on. -/
def Awaits (n : PageName) (l : Live) : Prop :=
  ∃ batch left page, l.watcher = .rebuilding batch left page ∧ ∃ p ∈ batch, l.rules.Leads l.tree p n

/-- A page is being rebuilt. -/
def Rebuilds (n : PageName) (l : Live) : Prop :=
  ∃ batch left r, l.watcher = .rebuilding batch left (some r) ∧ r.slug = n.slug

theorem not_rebuilds {n : PageName} {l : Live} (h : ∀ batch left r, l.watcher ≠ .rebuilding batch left (some r)) :
    ¬ Rebuilds n l := by
  rintro ⟨batch, left, r, hw, -⟩
  exact h batch left r hw

theorem rebuilds_congr {n : PageName} {l l' : Live} (h : l'.watcher = l.watcher) : Rebuilds n l' ↔ Rebuilds n l := by
  simp only [Rebuilds, h]

/-! ## What is always so -/

/-- What is always so in a site whose pages come and go, as long as its watcher is not stopped. -/
structure Tended (o : Live) (modules : List (String × Json)) (l : Live) : Prop where
  attended : Attended o l
  proper : l.tree.IsProper
  directories : l.tree.HasDirectoriesOf o.tree
  root : l.tree.isDirectory o.rules.root = true
  ledger : o.site.rebuilding.isSome → Ledger o.rules l.tree modules
  rests : o.site.rebuilding = none → ∀ batch left page, l.watcher = .rebuilding batch left page →
    left = [] ∧ page = none
  batch : ∀ batch left page, l.watcher = .rebuilding batch left page →
    (∀ p ∈ batch, p.IsOfSource ∧ ∃ n, o.rules.Leads l.tree p n) ∧ left ⊆ batch
  page : ∀ batch left r, l.watcher = .rebuilding batch left (some r) →
    (∃ p ∈ batch, ∃ n, o.rules.Leads l.tree p n ∧ r.slug = n.slug) ∧
      r.modules = Json.toEntries (modules.mergeSort Manifest.keyLe)

variable {o l l' : Live} {h : Happening} {modules modules' : List (String × Json)} {n : PageName}

theorem Attended.rules_eq (h : Attended o l) : l.rules = o.rules := by
  rw [rules, rules, h.settings]

theorem Attended.rebuilding_eq (h : Attended o l) : l.site.rebuilding = o.site.rebuilding := by
  rw [Site.rebuilding, Site.rebuilding, h.backend, h.settings]

theorem leads_mono {rules : BuildRules} {tree tree' : FileTree} (hmore : tree'.HasDirectoriesOf tree) {p : Path}
    (h : rules.Leads tree p n) : rules.Leads tree' p n := by
  rw [BuildRules.Leads, hmore.home]
  exact FileTree.locate_mono hmore h

/-- A path leads to the source of one page. -/
theorem leads_inj {rules : BuildRules} {tree : FileTree} {p : Path} {m : PageName} (h : rules.Leads tree p n)
    (h' : rules.Leads tree p m) : n = m :=
  PageName.source_inj (List.append_cancel_left (Except.ok.inj (h.symm.trans h')))

/-- A site that has been opened, in which there are pages or are to be some. -/
theorem Untouched.tended (ho : o.Untouched) (hproper : o.tree.IsProper)
    (hroot : o.tree.isDirectory o.rules.root = true)
    (hledger : o.site.rebuilding.isSome → Ledger o.rules o.tree modules) : Tended o modules o where
  attended := ho.attended
  proper := hproper
  directories := .refl _
  root := hroot
  ledger := hledger
  rests _ batch left page hw := by simp [ho.watcher] at hw
  batch batch left page hw := by simp [ho.watcher] at hw
  page batch left r hw := by simp [ho.watcher] at hw

/-! ## What can happen -/

/-- What can become of a site whose pages come and go, and of what its manifest lists. -/
inductive Tends (o : Live) (modules : List (String × Json)) (l : Live) :
    Happening → List (String × Json) → Live → Prop where
  /-- Files and the watcher are as they were. -/
  | other {h : Happening} {l' : Live} (tree : l'.tree = l.tree) (watcher : l'.watcher = l.watcher) :
      Tends o modules l h modules l'
  | edited {h : Happening} {n : PageName} {tree : FileTree} (changes : l.Changes n h)
      (alters : FileTree.Alters (· = o.rules.root.place l.tree.home ++ n.source) l.tree tree) :
      Tends o modules l h modules { l with tree := tree }
  | reported {paths : List String} (idle : l.watcher = .idle) :
      Tends o modules l (.act (.report paths)) modules { l with
        watcher := .rebuilding (changedPaths paths)
          (if l.site.rebuilding.isSome then changedPaths paths else []) none }
  | applied {batch : List Path} (watcher : l.watcher = .rebuilding batch [] none) :
      Tends o modules l (.act .watch) modules (l.notify batch)
  /-- A source has its turn. -/
  | begun {batch rest : List Path} {p : Path} {n : PageName} {next : Option Rebuild}
      {modules' : List (String × Json)} {tree : FileTree}
      (watcher : l.watcher = .rebuilding batch (p :: rest) none) (leads : o.rules.Leads l.tree p n)
      (begins : Rebuild.Begins o.rules n modules l.tree next modules' tree) :
      Tends o modules l (.act .watch) modules'
        { l with tree := tree, watcher := .rebuilding batch rest next }
  /-- The page that is being rebuilt gets on. -/
  | advanced {batch left : List Path} {r : Rebuild} {n : PageName} {next : Option Rebuild}
      {modules' : List (String × Json)} {tree : FileTree}
      (watcher : l.watcher = .rebuilding batch left (some r)) (slug : r.slug = n.slug)
      (advances : r.Advances o.rules n l.tree next tree)
      (listed : ∀ e, e ∈ modules' ↔ e ∈ modules ∨ r.stage = .listing ∧ e = o.rules.entry n) :
      Tends o modules l (.act .watch) modules'
        { l with tree := tree, watcher := .rebuilding batch left next }

/-! ## One step -/

theorem workOn_of_ok {batch left : List Path} {work : Building (Option Rebuild)} {page : Option Rebuild}
    {tree : FileTree} (hwork : work l.tree = .ok page tree) :
    l.workOn batch left work = { l with tree := tree, watcher := .rebuilding batch left page } := by
  rw [workOn, hwork]

/-- Work that does not stop the watcher succeeds, unless a source does not compile. -/
theorem work_of_running {batch left : List Path} {work : Building (Option Rebuild)}
    (hruns : ∀ e, (l.workOn batch left work).watcher ≠ .stopped e)
    (hcompiles : ∀ cause tree, work l.tree ≠ .error (.compile cause) tree) :
    ∃ page tree, work l.tree = .ok page tree := by
  cases hwork : work l.tree with
  | ok page tree => exact ⟨page, tree, rfl⟩
  | error e tree =>
    unfold workOn at hruns
    rw [hwork] at hruns
    cases e with
    | compile cause => exact absurd hwork (hcompiles cause tree)
    | _ => exact absurd rfl (hruns _)

/-- A watcher that works on sources has modules to make, and a manifest for them. -/
theorem Tended.ledger_of_turn (ht : Tended o modules l) {batch left : List Path} {page : Option Rebuild}
    (hw : l.watcher = .rebuilding batch left page) (hworks : left ≠ [] ∨ page ≠ none) :
    Ledger o.rules l.tree modules := by
  refine ht.ledger (Option.isSome_iff_ne_none.2 fun hnone => ?_)
  obtain ⟨hleft, hpage⟩ := ht.rests hnone _ _ _ hw
  exact hworks.elim (absurd hleft) (absurd hpage)

theorem begin_tends (ht : Tended o modules l) (hcompiles : l.TurnCompiles) {batch rest : List Path} {p : Path}
    (hw : l.watcher = .rebuilding batch (p :: rest) none)
    (hruns : ∀ e, (l.workOn batch rest (Rebuild.start l.rules p)).watcher ≠ .stopped e) :
    ∃ n next modules' tree, o.rules.Leads l.tree p n ∧
      Rebuild.Begins o.rules n modules l.tree next modules' tree ∧ Ledger o.rules tree modules' ∧
      l.workOn batch rest (Rebuild.start l.rules p)
        = { l with tree := tree, watcher := .rebuilding batch rest next } := by
  have hledger := ht.ledger_of_turn hw (.inl (List.cons_ne_nil _ _))
  obtain ⟨hbatch, hleft⟩ := ht.batch _ _ _ hw
  obtain ⟨-, n, hleads⟩ := hbatch p (hleft List.mem_cons_self)
  obtain ⟨next, tree, hstart⟩ := work_of_running hruns fun cause tree hfails => by
    obtain ⟨hexists, hfails⟩ := Rebuild.compile_of_start_error hfails
    obtain ⟨a, hcompile⟩ := hcompiles _ _ _ hw hexists
    cases hfails.symm.trans hcompile
  obtain ⟨modules', hbegins, hledger'⟩ := Rebuild.start_ok hledger ht.proper (Path.isSpelled_ofText _) ht.root
    hleads (ht.attended.rules_eq ▸ hstart)
  exact ⟨n, next, modules', tree, hleads, hbegins, hledger', workOn_of_ok hstart⟩

theorem advance_tends (ht : Tended o modules l) {batch left : List Path} {r : Rebuild}
    (hw : l.watcher = .rebuilding batch left (some r))
    (hruns : ∀ e, (l.workOn batch left (r.advance l.rules)).watcher ≠ .stopped e) :
    ∃ n next modules' tree, r.slug = n.slug ∧ r.Advances o.rules n l.tree next tree ∧
      (∀ e, e ∈ modules' ↔ e ∈ modules ∨ r.stage = .listing ∧ e = o.rules.entry n) ∧
      (∀ r', next = some r' → modules' = modules) ∧ Ledger o.rules tree modules' ∧
      l.workOn batch left (r.advance l.rules) = { l with tree := tree, watcher := .rebuilding batch left next } := by
  have hledger := ht.ledger_of_turn hw (.inr (Option.some_ne_none r))
  have hout : o.rules.out.IsSpelled := Path.isSpelled_ofText _
  obtain ⟨⟨p, -, n, -, hslug⟩, hmodules⟩ := ht.page _ _ _ hw
  obtain ⟨next, tree, hadvance⟩ := work_of_running hruns fun cause tree hfails => by
    obtain ⟨⟨_, heq⟩, -⟩ := Rebuild.advance_error ht.proper hout hslug (ht.attended.rules_eq ▸ hfails)
    cases heq
  obtain ⟨hadvances, modules', hledger', hsame, hlisted⟩ := Rebuild.advance_ledger hledger ht.proper hout hslug hmodules
    (ht.attended.rules_eq ▸ hadvance)
  exact ⟨n, next, modules', tree, hslug, hadvances, hlisted, hsame, hledger', workOn_of_ok hadvance⟩

/-- Whatever happens does one of these things, and the site stays as it always is. -/
theorem Tended.next (ht : Tended o modules l) (hproper : l.Proper h) (hcompiles : l.TurnCompiles)
    (he : Effect l h l') (hruns : ∀ e, l'.watcher ≠ .stopped e) :
    ∃ modules', Tends o modules l h modules' l' ∧ Tended o modules' l' := by
  have hattended := ht.attended.next he
  have hrules := ht.attended.rules_eq
  have hrests := he.rests
  rw [ht.attended.rebuilding_eq] at hrests
  have hrests := fun hnone => hrests hnone (ht.rests hnone)
  -- whatever is written, paths lead where they led
  have hpaths : ∀ {tree : FileTree}, tree.HasDirectoriesOf l.tree → ∀ {batch : List Path},
      (∀ p ∈ batch, p.IsOfSource ∧ ∃ n, o.rules.Leads l.tree p n) →
      ∀ p ∈ batch, p.IsOfSource ∧ ∃ n, o.rules.Leads tree p n := fun hmore _ hbatch p hp =>
    (hbatch p hp).imp_right fun ⟨n, hleads⟩ => ⟨n, leads_mono hmore hleads⟩
  have hedited : ∀ {n : PageName} {tree : FileTree}, l.Changes n h →
      FileTree.Alters (· = o.rules.root.place l.tree.home ++ n.source) l.tree tree →
      l' = { l with tree := tree } → ∃ modules', Tends o modules l h modules' l' ∧ Tended o modules' l' := by
    rintro n tree hchanges halters rfl
    refine ⟨modules, .edited hchanges halters, hattended, halters.proper, halters.directories.trans ht.directories,
      FileTree.isDirectory_mono halters.directories ht.root,
      fun hsome => (ht.ledger hsome).alters halters (source_ne_manifest _ _).symm, hrests, ?_, ?_⟩
    · intro batch left page hw
      obtain ⟨hbatch, hleft⟩ := ht.batch batch left page hw
      exact ⟨hpaths halters.directories hbatch, hleft⟩
    · intro batch left r hw
      obtain ⟨⟨p, hp, n, hleads, hslug⟩, hmodules⟩ := ht.page batch left r hw
      exact ⟨⟨p, hp, n, leads_mono halters.directories hleads, hslug⟩, hmodules⟩
  cases he with
  | @modified n bytes modified tree write =>
    have ⟨halters, _⟩ := FileTree.write_ok ht.proper (n.isSpelled_source (Path.isSpelled_ofText _)) write
    rw [n.place_source] at halters
    exact hedited ⟨rfl, tree, write⟩ (hrules ▸ halters) rfl
  | @edited e tree apply =>
    obtain ⟨hspelled, n, hplace⟩ := hproper
    have ⟨halters, _⟩ := Edit.apply_ok ht.proper hspelled apply
    exact hedited ⟨⟨tree, apply⟩, hplace⟩ (hrules ▸ hplace ▸ halters) rfl
  | @reported paths idle =>
    refine ⟨modules, .reported idle, hattended, ht.proper, ht.directories, ht.root, ht.ledger, hrests, ?_, fun _ _ _ hw => ?_⟩
    · intro batch left page hw
      obtain ⟨rfl, rfl, -⟩ := Watcher.rebuilding.inj hw
      refine ⟨fun p hp => ⟨isOfSource_of_mem_changedPaths hp, hrules ▸ hproper p hp⟩, ?_⟩
      split
      · exact List.Subset.refl _
      · exact List.nil_subset _
    · simp at hw
  | @begun batch rest p watcher =>
    obtain ⟨n, next, modules', tree, hleads, hbegins, hledger, heq⟩ := begin_tends ht hcompiles watcher hruns
    rw [heq] at hattended hrests ⊢
    obtain ⟨hbatch, hleft⟩ := ht.batch _ _ _ watcher
    have halters : ∃ touched, FileTree.Alters touched l.tree tree := by
      cases hbegins with
      | gone _ unlists => exact ⟨_, unlists.alters⟩
      | made => exact ⟨fun _ => False, .refl ht.proper⟩
    obtain ⟨touched, halters⟩ := halters
    refine ⟨modules', .begun watcher hleads hbegins, hattended, halters.proper, halters.directories.trans ht.directories,
      FileTree.isDirectory_mono halters.directories ht.root, fun _ => hledger, hrests, ?_, fun _ _ r hw => ?_⟩
    · intro batch' left page hw
      obtain ⟨rfl, rfl, -⟩ := Watcher.rebuilding.inj hw
      exact ⟨hpaths halters.directories hbatch, fun q hq => hleft (List.mem_cons_of_mem _ hq)⟩
    · obtain ⟨rfl, rfl, rfl⟩ := Watcher.rebuilding.inj hw
      cases hbegins with
      | made => exact ⟨⟨p, hleft List.mem_cons_self, n, hleads, rfl⟩, rfl⟩
  | @advanced batch left r watcher =>
    obtain ⟨n, next, modules', tree, hslug, hadvances, hlisted, hsame, hledger, heq⟩ :=
      advance_tends ht watcher hruns
    rw [heq] at hattended hrests ⊢
    obtain ⟨hbatch, hleft⟩ := ht.batch _ _ _ watcher
    obtain ⟨⟨p, hp, m, hleads, hslug'⟩, hmodules⟩ := ht.page _ _ _ watcher
    have halters : ∃ touched, FileTree.Alters touched l.tree tree := by
      cases hadvances with
      | drafted _ alters | moved _ _ alters | listed _ alters => exact ⟨_, alters⟩
    obtain ⟨touched, halters⟩ := halters
    refine ⟨modules', .advanced watcher hslug hadvances hlisted, hattended, halters.proper, halters.directories.trans ht.directories,
      FileTree.isDirectory_mono halters.directories ht.root, fun _ => hledger, hrests, ?_, fun _ _ r' hw => ?_⟩
    · intro batch' left' page hw
      obtain ⟨rfl, rfl, -⟩ := Watcher.rebuilding.inj hw
      exact ⟨hpaths halters.directories hbatch, hleft⟩
    · obtain ⟨rfl, rfl, rfl⟩ := Watcher.rebuilding.inj hw
      refine ⟨⟨p, hp, m, leads_mono halters.directories hleads, ?_⟩, hsame _ rfl ▸ ?_⟩
      · cases hadvances <;> exact hslug'
      · cases hadvances <;> exact hmodules
  | applied watcher =>
    exact ⟨modules, .applied watcher, hattended, ht.proper, ht.directories, ht.root, ht.ledger, hrests,
      fun _ _ _ hw => by simp [notify] at hw, fun _ _ _ hw => by simp [notify] at hw⟩
  | still =>
    exact ⟨modules, .other rfl rfl, ht⟩
  | read there waiting =>
    exact ⟨modules, .other rfl rfl, { ht with attended := hattended }⟩
  | served event =>
    exact ⟨modules, .other rfl rfl, { ht with attended := hattended }⟩

end Folio.Live
