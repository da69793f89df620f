import Folio.CommandLine
import Folio.Proofs.Except
import Mathlib.Data.List.Basic

set_option autoImplicit false

/-! # How commands end

A command completes its output, reports an error, or ends with a failure that no command expects (`ComesTo`). It always
comes to one of these (`exists_comesTo`), and its run shows it (`ComesTo.shows`). -/

namespace Folio.CommandLine

/-! ## Runs step by step -/

/-- The screen after some more lines. -/
def Screen.printed (s : Screen) (lines : List String) : Screen :=
  { s with output := s.output ++ lines }

/-- The screen after an error is reported. -/
def Screen.blamed (s : Screen) (message : String) (cause : Option String) : Screen :=
  { s with errors := s.errors ++ ("Error: " ++ message) :: cause.toList.map ("  " ++ ·) }

theorem Screen.printed_printed (s : Screen) (lines lines' : List String) :
    (s.printed lines).printed lines' = s.printed (lines ++ lines') := by
  simp only [printed, List.append_assoc]

theorem Screen.printed_nil (s : Screen) : s.printed [] = s := by
  simp only [printed, List.append_nil]

namespace Run

variable {α β : Type} {x : Run α} {f : α → Run β} {s s' : Screen} {a : α} {ending : Ending}

theorem bind_of_ok (h : x s = .ok a s') : (x >>= f) s = f a s' := by
  show EStateM.bind x f s = _
  rw [EStateM.bind, h]

theorem bind_of_error (h : x s = .error ending s') : (x >>= f) s = .error ending s' := by
  show EStateM.bind x f s = _
  rw [EStateM.bind, h]

theorem bind_files {f : FileTree → Run β} : (files >>= f) s = f s.tree s :=
  bind_of_ok rfl

theorem bind_print {line : String} {f : Unit → Run β} : (print line >>= f) s = f () (s.printed [line]) :=
  bind_of_ok rfl

theorem fail_eq (message : String) (cause : Option String) :
    (fail message cause : Run α) s = .error (.exit 1) (s.blamed message cause) := by
  cases cause with
  | none => rfl
  | some cause =>
    have hlines : s.blamed message (some cause)
        = { s with errors := (s.errors ++ ["Error: " ++ message]) ++ ["  " ++ cause] } := by
      simp [Screen.blamed]
    rw [hlines]
    rfl

/-- Lines that are printed one by one. -/
theorem forIn_print (lines : List β) (line : β → String) :
    (forIn lines PUnit.unit fun b _ => do
      print (line b)
      pure (ForInStep.yield PUnit.unit)) s = .ok PUnit.unit (s.printed (lines.map line)) := by
  induction lines generalizing s with
  | nil =>
    rw [List.map_nil, Screen.printed_nil]
    rfl
  | cons b lines ih =>
    have hfirst : (do
        print (line b)
        pure (ForInStep.yield PUnit.unit) : Run (ForInStep PUnit)) s
          = .ok (.yield PUnit.unit) (s.printed [line b]) := rfl
    rw [List.forIn_cons, bind_of_ok hfirst]
    exact ih.trans (by rw [Screen.printed_printed, List.map_cons, List.singleton_append])

end Run

open Run

/-! ## What commands come to -/

/-- How a command ends: with complete output and a status, with an error that it reports, or with a failure that no command
    expects. -/
inductive Finish where
  | completes (lines : List String) (status : Nat)
  | fails (message : String) (cause : Option String)
  | escapes (cause : Crash)

/-- What a command says over the settings. -/
def overridesOf (command : String) (g : Given) : List (String × Value) :=
  if command = "build" then
    [override "content_root" g.words.head?, override "output_dir" (g.option? "--out-dir"),
      override "content_alias" (g.option? "--alias"),
      ("sanitize", match g.flag? "--sanitize" with
        | some b => .bool b
        | none => .null)]
  else [override "output_dir" (g.option? "--out-dir")]

/-- The pages that a command asks for: those of a list pass its filters. -/
def filtersOf (command : String) (g : Given) : Option ContentFilters :=
  if command = "list" then some ⟨g.option? "--type", g.all "--tag", g.option? "--category"⟩ else none

/-- The lines about a page: none if nothing is wrong with it. -/
def pageReport (a : Artifact) : Except Schema.KindError (List String) :=
  a.validate.map fun
    | .accepted _ _ => []
    | v => (a.slug ++ ":") :: v.messages.map ("  " ++ ·)

/-- The last line about pages that have been checked. -/
def checkedLine (checked wrong : Nat) : String :=
  "Validated " ++ toString checked ++ " document(s), " ++ toString wrong ++ " invalid"

/-- The lines about pages that have been built. -/
def builtLines (s : Settings) (pages : List BuiltPage) : List String :=
  (pages.map fun page => "  " ++ page.source.text ++ " -> " ++ page.module.text) ++
    ["Compiled " ++ toString pages.length ++ " document(s) to " ++ s.outputDir ++ "/"]

/-- The options with which a file is rendered. -/
def optionsOf (g : Given) : Except Schema.Refusal RenderOptions :=
  let flag (name : String) : Value := .bool ((g.flag? name).getD true)
  RenderOptions.ofValue (.map
    [(.string "sanitize", flag "--sanitize"), (.string "allow_html", flag "--html"),
      (.string "generate_heading_ids", flag "--heading-ids"),
      (.string "external_link_target", .string ((g.option? "--link-target").getD LinkTarget.blank.name))])

/-- The file that is rendered. -/
def fileOf (g : Given) : Path :=
  .ofText (g.words.head?.getD "")

/-- The commands that answer from a build. -/
def Answers (command : String) : Prop :=
  command ∈ ["list", "show", "validate"]

theorem answers_iff {command : String} :
    Answers command ↔ command = "list" ∨ command = "show" ∨ command = "validate" := by
  simp [Answers]

/-- A command opens the server of a build. -/
def Opens (environment : List (String × String)) (tree : FileTree) (g : Given) (command : String) (server : Server) :
    Prop :=
  Answers command ∧ ∃ settings, readSettings environment (overridesOf command g) tree = .ok settings ∧
    Server.start tree settings false = .ok server

/-- What a command comes to, on a tree of files and in an environment. -/
inductive ComesTo (environment : List (String × String)) (tree : FileTree) (g : Given) : String → Finish → Prop
  | refused {command message : String} {e : Crash} (reads : command = "build" ∨ Answers command)
      (failed : readSettings environment (overridesOf command g) tree = .error e) (expected : expected? e = some message) :
      ComesTo environment tree g command (.fails message none)
  | unset {command : String} {e : Crash} (reads : command = "build" ∨ Answers command)
      (failed : readSettings environment (overridesOf command g) tree = .error e) (unexpected : expected? e = none) :
      ComesTo environment tree g command (.escapes e)
  -- building
  | built {s : Settings} {pages : List BuiltPage} {tree' : FileTree}
      (settings : readSettings environment (overridesOf "build" g) tree = .ok s)
      (work : (build s.buildRules).result tree = (.ok pages, tree')) :
      ComesTo environment tree g "build" (.completes (builtLines s pages) 0)
  | uncompiled {s : Settings} {cause : CompileError} {tree' : FileTree}
      (settings : readSettings environment (overridesOf "build" g) tree = .ok s)
      (work : (build s.buildRules).result tree = (.error (.compile cause), tree')) :
      ComesTo environment tree g "build" (.fails "Build failed" (some cause.message))
  | unbuilt {s : Settings} {e : BuildError} {tree' : FileTree}
      (settings : readSettings environment (overridesOf "build" g) tree = .ok s)
      (work : (build s.buildRules).result tree = (.error e, tree')) (unexpected : ∀ cause, e ≠ .compile cause) :
      ComesTo environment tree g "build" (.escapes (.build e))
  -- answering from a build
  | unopened {command : String} {s : Settings} {e : BuildError} (answers : Answers command)
      (settings : readSettings environment (overridesOf command g) tree = .ok s)
      (failed : Server.start tree s false = .error e) :
      ComesTo environment tree g command (.escapes (.build e))
  | unloaded {command message : String} {server : Server} {e : Server.RequestError} (all : command ≠ "show")
      (opens : Opens environment tree g command server)
      (failed : (server.loadAll tree (filtersOf command g)).1 = .error e) (expected : loadFailure? e = some message) :
      ComesTo environment tree g command (.fails "Could not load content" (some message))
  | unanswered {command : String} {server : Server} {e : Server.RequestError} (all : command ≠ "show")
      (opens : Opens environment tree g command server)
      (failed : (server.loadAll tree (filtersOf command g)).1 = .error e) (unexpected : loadFailure? e = none) :
      ComesTo environment tree g command (.escapes (.request e))
  | empty {server : Server} (opens : Opens environment tree g "list" server)
      (loaded : (server.loadAll tree (filtersOf "list" g)).1 = .ok []) :
      ComesTo environment tree g "list" (.completes ["No content found."] 1)
  | listed {server : Server} {artifacts : List Artifact} {lines : List String} (opens : Opens environment tree g "list" server)
      (loaded : (server.loadAll tree (filtersOf "list" g)).1 = .ok artifacts) (some : artifacts ≠ [])
      (printable : (bySlug artifacts).mapM listLine = .ok lines) : ComesTo environment tree g "list" (.completes lines 0)
  | unlisted {server : Server} {artifacts : List Artifact} {t : Text.Broken} (opens : Opens environment tree g "list" server)
      (loaded : (server.loadAll tree (filtersOf "list" g)).1 = .ok artifacts) (some : artifacts ≠ [])
      (broken : (bySlug artifacts).mapM listLine = .error t) :
      ComesTo environment tree g "list" (.escapes (.build (.emit (.brokenLine t))))
  | checked {server : Server} {artifacts : List Artifact} {reports : List (List String)}
      (opens : Opens environment tree g "validate" server)
      (loaded : (server.loadAll tree (filtersOf "validate" g)).1 = .ok artifacts)
      (reported : (bySlug artifacts).mapM pageReport = .ok reports) :
      ComesTo environment tree g "validate" (.completes
        (reports.flatten ++ [checkedLine artifacts.length (reports.countP (!·.isEmpty))])
        (if reports.countP (!·.isEmpty) = 0 then 0 else 1))
  | unhashable {server : Server} {artifacts : List Artifact} {e : Schema.KindError}
      (opens : Opens environment tree g "validate" server)
      (loaded : (server.loadAll tree (filtersOf "validate" g)).1 = .ok artifacts)
      (failed : (bySlug artifacts).mapM pageReport = .error e) :
      ComesTo environment tree g "validate" (.escapes (.kind e))
  | shown {server : Server} {a : Artifact} (opens : Opens environment tree g "show" server)
      (loaded : (server.load tree (g.words.head?.getD "")).1 = .ok a)
      (printable : Json.firstBrokenMember? a.frontmatter = none) :
      ComesTo environment tree g "show" (.completes [a.exchangeText] 0)
  | unprinted {server : Server} {a : Artifact} {t : Text.Broken} (opens : Opens environment tree g "show" server)
      (loaded : (server.load tree (g.words.head?.getD "")).1 = .ok a)
      (broken : Json.firstBrokenMember? a.frontmatter = some t) :
      ComesTo environment tree g "show" (.escapes (.build (.emit (.brokenData t))))
  | missing {message : String} {server : Server} {e : Server.RequestError} (opens : Opens environment tree g "show" server)
      (failed : (server.load tree (g.words.head?.getD "")).1 = .error e) (expected : loadFailure? e = some message) :
      ComesTo environment tree g "show" (.fails message none)
  | unshown {server : Server} {e : Server.RequestError} (opens : Opens environment tree g "show" server)
      (failed : (server.load tree (g.words.head?.getD "")).1 = .error e) (unexpected : loadFailure? e = none) :
      ComesTo environment tree g "show" (.escapes (.request e))
  -- rendering
  | unfit {cause : Schema.Refusal} (options : optionsOf g = .error cause) :
      ComesTo environment tree g "render" (.fails ("Cannot render " ++ (fileOf g).text) (some cause.message))
  | undecoded {options : RenderOptions} {cause : Text.IllFormed} (given : optionsOf g = .ok options)
      (failed : tree.readText (fileOf g) = .error (.encoding cause)) :
      ComesTo environment tree g "render" (.fails ("Cannot render " ++ (fileOf g).text) (some cause.message))
  | unread {options : RenderOptions} {cause : FileError} (given : optionsOf g = .ok options)
      (failed : tree.readText (fileOf g) = .error (.file cause)) :
      ComesTo environment tree g "render" (.escapes (.read (.file cause)))
  | unsplit {options : RenderOptions} {cs : List Char} {modified : Int} {e : FrontMatterError}
      (given : optionsOf g = .ok options) (text : tree.readText (fileOf g) = .ok (cs, modified))
      (failed : FrontMatter.split (String.ofList cs) = .error e) (explained : e.isExplained = true) :
      ComesTo environment tree g "render" (.fails ("Cannot render " ++ (fileOf g).text) (some e.message))
  | misread {options : RenderOptions} {cs : List Char} {modified : Int} {e : FrontMatterError}
      (given : optionsOf g = .ok options) (text : tree.readText (fileOf g) = .ok (cs, modified))
      (failed : FrontMatter.split (String.ofList cs) = .error e) (unexplained : ¬e.isExplained = true) :
      ComesTo environment tree g "render" (.escapes (.header e))
  | unrendered {options : RenderOptions} {cs : List Char} {modified : Int} {parts : FrontMatter} {e : RenderError}
      (given : optionsOf g = .ok options) (text : tree.readText (fileOf g) = .ok (cs, modified))
      (split : FrontMatter.split (String.ofList cs) = .ok parts) (failed : render options parts.body = .error e) :
      ComesTo environment tree g "render" (.escapes (.render e))
  | rendered {options : RenderOptions} {cs : List Char} {modified : Int} {parts : FrontMatter} {page : RenderResult}
      (given : optionsOf g = .ok options) (text : tree.readText (fileOf g) = .ok (cs, modified))
      (split : FrontMatter.split (String.ofList cs) = .ok parts) (done : render options parts.body = .ok page) :
      ComesTo environment tree g "render" (.completes [page.html] 0)

section

variable {environment : List (String × String)} {tree : FileTree} {g : Given}

theorem exists_comesTo_of_build : ∃ finish, ComesTo environment tree g "build" finish := by
  cases hsettings : readSettings environment (overridesOf "build" g) tree with
  | error e =>
    cases he : expected? e with
    | some message => exact ⟨_, .refused (.inl rfl) hsettings he⟩
    | none => exact ⟨_, .unset (.inl rfl) hsettings he⟩
  | ok s =>
    rcases hwork : (build s.buildRules).result tree with ⟨result, tree'⟩
    cases result with
    | ok pages => exact ⟨_, .built hsettings hwork⟩
    | error e =>
      by_cases he : ∃ cause, e = .compile cause
      · obtain ⟨cause, rfl⟩ := he
        exact ⟨_, .uncompiled hsettings hwork⟩
      · exact ⟨_, .unbuilt hsettings hwork fun cause hcause => he ⟨cause, hcause⟩⟩

/-- A command that answers from a build ends or opens its server. -/
theorem exists_comesTo_or_opens (environment : List (String × String)) (tree : FileTree) (g : Given) {command : String}
    (answers : Answers command) :
    (∃ finish, ComesTo environment tree g command finish) ∨ ∃ server, Opens environment tree g command server := by
  cases hsettings : readSettings environment (overridesOf command g) tree with
  | error e =>
    cases he : expected? e with
    | some message => exact .inl ⟨_, .refused (.inr answers) hsettings he⟩
    | none => exact .inl ⟨_, .unset (.inr answers) hsettings he⟩
  | ok s =>
    cases hstart : Server.start tree s false with
    | error e => exact .inl ⟨_, .unopened answers hsettings hstart⟩
    | ok server => exact .inr ⟨server, answers, s, hsettings, hstart⟩

/-- A command that asks for all pages ends or has them. -/
theorem exists_comesTo_or_loaded {command : String} {server : Server} (all : command ≠ "show")
    (opens : Opens environment tree g command server) :
    (∃ finish, ComesTo environment tree g command finish) ∨
      ∃ artifacts, (server.loadAll tree (filtersOf command g)).1 = .ok artifacts := by
  cases hload : (server.loadAll tree (filtersOf command g)).1 with
  | ok artifacts => exact .inr ⟨artifacts, rfl⟩
  | error e =>
    cases he : loadFailure? e with
    | some message => exact .inl ⟨_, .unloaded all opens hload he⟩
    | none => exact .inl ⟨_, .unanswered all opens hload he⟩

theorem exists_comesTo_of_list : ∃ finish, ComesTo environment tree g "list" finish := by
  obtain hends | ⟨server, opens⟩ := exists_comesTo_or_opens environment tree g (answers_iff.2 (.inl rfl))
  · exact hends
  obtain hends | ⟨artifacts, loaded⟩ := exists_comesTo_or_loaded (by decide) opens
  · exact hends
  by_cases hsome : artifacts = []
  · exact ⟨_, .empty opens (hsome ▸ loaded)⟩
  · cases hlines : (bySlug artifacts).mapM listLine with
    | ok lines => exact ⟨_, .listed opens loaded hsome hlines⟩
    | error t => exact ⟨_, .unlisted opens loaded hsome hlines⟩

theorem exists_comesTo_of_validate : ∃ finish, ComesTo environment tree g "validate" finish := by
  obtain hends | ⟨server, opens⟩ := exists_comesTo_or_opens environment tree g (answers_iff.2 (.inr (.inr rfl)))
  · exact hends
  obtain hends | ⟨artifacts, loaded⟩ := exists_comesTo_or_loaded (by decide) opens
  · exact hends
  cases hreport : (bySlug artifacts).mapM pageReport with
  | ok reports => exact ⟨_, .checked opens loaded hreport⟩
  | error e => exact ⟨_, .unhashable opens loaded hreport⟩

theorem exists_comesTo_of_show : ∃ finish, ComesTo environment tree g "show" finish := by
  obtain hends | ⟨server, opens⟩ := exists_comesTo_or_opens environment tree g (answers_iff.2 (.inr (.inl rfl)))
  · exact hends
  cases hload : (server.load tree (g.words.head?.getD "")).1 with
  | ok a =>
    cases hbroken : Json.firstBrokenMember? a.frontmatter with
    | none => exact ⟨_, .shown opens hload hbroken⟩
    | some t => exact ⟨_, .unprinted opens hload hbroken⟩
  | error e =>
    cases he : loadFailure? e with
    | some message => exact ⟨_, .missing opens hload he⟩
    | none => exact ⟨_, .unshown opens hload he⟩

theorem exists_comesTo_of_render : ∃ finish, ComesTo environment tree g "render" finish := by
  cases hoptions : optionsOf g with
  | error cause => exact ⟨_, .unfit hoptions⟩
  | ok options =>
    cases htext : tree.readText (fileOf g) with
    | error e =>
      cases e with
      | encoding cause => exact ⟨_, .undecoded hoptions htext⟩
      | file cause => exact ⟨_, .unread hoptions htext⟩
    | ok text =>
      cases hsplit : FrontMatter.split (String.ofList text.1) with
      | error e =>
        by_cases he : e.isExplained = true
        · exact ⟨_, .unsplit hoptions htext hsplit he⟩
        · exact ⟨_, .misread hoptions htext hsplit he⟩
      | ok parts =>
        cases hrender : render options parts.body with
        | error e => exact ⟨_, .unrendered hoptions htext hsplit hrender⟩
        | ok page => exact ⟨_, .rendered hoptions htext hsplit hrender⟩

end

/-- The commands that end by themselves. -/
def commands : List String :=
  ["build", "list", "show", "validate", "render"]

/-- A command always comes to something. -/
theorem exists_comesTo {command : String} (h : command ∈ commands) (environment : List (String × String))
    (tree : FileTree) (g : Given) : ∃ finish, ComesTo environment tree g command finish := by
  have hcases : command = "build" ∨ command = "list" ∨ command = "show" ∨ command = "validate" ∨ command = "render" := by
    simpa [commands] using h
  rcases hcases with rfl | rfl | rfl | rfl | rfl
  · exact exists_comesTo_of_build
  · exact exists_comesTo_of_list
  · exact exists_comesTo_of_show
  · exact exists_comesTo_of_validate
  · exact exists_comesTo_of_render

/-! ## Runs of commands -/

section

variable {environment : List (String × String)} {overrides : List (String × Value)} {g : Given} {command message : String}
  {s : Screen} {settings : Settings}

theorem settingsFor_of_ok (h : readSettings environment overrides s.tree = .ok settings) :
    settingsFor environment overrides s = .ok settings s := by
  rw [settingsFor, bind_files, h]
  rfl

theorem settingsFor_of_expected {e : Crash} (h : readSettings environment overrides s.tree = .error e)
    (he : expected? e = some message) :
    settingsFor environment overrides s = .error (.exit 1) (s.blamed message none) := by
  rw [settingsFor, bind_files, h]
  simp only [he]
  exact fail_eq message none

theorem settingsFor_of_unexpected {e : Crash} (h : readSettings environment overrides s.tree = .error e)
    (he : expected? e = none) : settingsFor environment overrides s = .error (.crash e) s := by
  rw [settingsFor, bind_files, h]
  simp only [he]
  rfl

theorem overridesOf_of_answers (h : Answers command) (g : Given) :
    overridesOf command g = [override "output_dir" (g.option? "--out-dir")] := by
  refine if_neg fun hbuild => ?_
  subst hbuild
  simp [Answers] at h

theorem openServer_of_opens {server : Server} (h : Opens environment s.tree g command server) :
    openServer environment g s = .ok server s := by
  obtain ⟨hanswers, settings, hsettings, hstart⟩ := h
  rw [overridesOf_of_answers hanswers] at hsettings
  rw [openServer, bind_of_ok (settingsFor_of_ok hsettings), bind_files, hstart]
  rfl

theorem openServer_of_error {e : BuildError} (hanswers : Answers command)
    (hsettings : readSettings environment (overridesOf command g) s.tree = .ok settings)
    (hstart : Server.start s.tree settings false = .error e) :
    openServer environment g s = .error (.crash (.build e)) s := by
  rw [overridesOf_of_answers hanswers] at hsettings
  rw [openServer, bind_of_ok (settingsFor_of_ok hsettings), bind_files, hstart]
  rfl

theorem loadPages_of_ok {server : Server} {filters : Option ContentFilters} {artifacts : List Artifact}
    (h : (server.loadAll s.tree filters).1 = .ok artifacts) : loadPages server filters s = .ok artifacts s := by
  rw [loadPages, bind_files, h]
  rfl

theorem loadPages_of_expected {server : Server} {filters : Option ContentFilters} {e : Server.RequestError}
    (h : (server.loadAll s.tree filters).1 = .error e) (he : loadFailure? e = some message) :
    loadPages server filters s = .error (.exit 1) (s.blamed "Could not load content" (some message)) := by
  rw [loadPages, bind_files, h]
  simp only [he]
  exact fail_eq _ _

theorem loadPages_of_unexpected {server : Server} {filters : Option ContentFilters} {e : Server.RequestError}
    (h : (server.loadAll s.tree filters).1 = .error e) (he : loadFailure? e = none) :
    loadPages server filters s = .error (.crash (.request e)) s := by
  rw [loadPages, bind_files, h]
  simp only [he]
  rfl

/-- Lines are printed one after the other. -/
theorem printLines_of_ok {artifacts : List Artifact} {lines : List String} (h : artifacts.mapM listLine = .ok lines) :
    printLines artifacts s = .ok () (s.printed lines) := by
  induction artifacts generalizing s lines with
  | nil =>
    obtain rfl : [] = lines := Except.ok.inj h
    rw [Screen.printed_nil]
    rfl
  | cons a artifacts ih =>
    rw [List.mapM_cons] at h
    obtain ⟨line, hline, h⟩ := Except.bind_eq_ok_iff.1 h
    obtain ⟨rest, hrest, h⟩ := Except.bind_eq_ok_iff.1 h
    obtain rfl := Except.pure_eq_ok_iff.1 h
    rw [printLines, printLine, hline]
    dsimp only
    rw [bind_print, ih hrest, Screen.printed_printed]
    rfl

theorem printLines_of_error {artifacts : List Artifact} {t : Text.Broken} (h : artifacts.mapM listLine = .error t) :
    ∃ s', printLines artifacts s = .error (.crash (.build (.emit (.brokenLine t)))) s' := by
  induction artifacts generalizing s with
  | nil => cases h
  | cons a artifacts ih =>
    rw [List.mapM_cons] at h
    rw [printLines, printLine]
    cases hfirst : listLine a with
    | error cause =>
      rw [hfirst] at h
      obtain rfl : cause = t := Except.error.inj h
      exact ⟨s, rfl⟩
    | ok line =>
      rw [hfirst] at h
      dsimp only
      rw [bind_print]
      cases hrest : artifacts.mapM listLine with
      | error cause =>
        rw [hrest] at h
        obtain rfl : cause = t := Except.error.inj h
        exact ih hrest
      | ok lines =>
        rw [hrest] at h
        cases h

theorem reportPage_of_ok {a : Artifact} {lines : List String} (h : pageReport a = .ok lines) :
    reportPage a s = .ok (!lines.isEmpty) (s.printed lines) := by
  obtain ⟨v, hv, rfl⟩ := Except.map_eq_ok_iff.1 h
  rw [reportPage, hv]
  cases v with
  | accepted record data =>
    -- nothing is said of a page with which nothing is wrong
    show EStateM.Result.ok false s = .ok false (s.printed [])
    rw [Screen.printed_nil]
  | rejected complaints =>
    have hlines := forIn_print (s := s.printed [a.slug ++ ":"]) (Schema.Validation.rejected complaints).messages ("  " ++ ·)
    rw [Screen.printed_printed, List.singleton_append] at hlines
    dsimp only
    rw [bind_print, bind_of_ok hlines]
    rfl

theorem reportPage_of_error {a : Artifact} {e : Schema.KindError} (h : pageReport a = .error e) :
    reportPage a s = .error (.crash (.kind e)) s := by
  rw [pageReport] at h
  cases hv : a.validate with
  | error cause =>
    rw [hv] at h
    obtain rfl : cause = e := Except.error.inj h
    rw [reportPage, hv]
    rfl
  | ok v =>
    rw [hv] at h
    cases h

/-- Pages are reported one after the other. -/
theorem reportPages_of_ok {artifacts : List Artifact} {reports : List (List String)}
    (h : artifacts.mapM pageReport = .ok reports) :
    reportPages artifacts s = .ok (reports.countP (!·.isEmpty)) (s.printed reports.flatten) := by
  induction artifacts generalizing s reports with
  | nil =>
    obtain rfl : [] = reports := Except.ok.inj h
    rw [List.flatten_nil, Screen.printed_nil]
    rfl
  | cons a artifacts ih =>
    rw [List.mapM_cons] at h
    obtain ⟨lines, hlines, h⟩ := Except.bind_eq_ok_iff.1 h
    obtain ⟨rest, hrest, h⟩ := Except.bind_eq_ok_iff.1 h
    obtain rfl := Except.pure_eq_ok_iff.1 h
    rw [reportPages, bind_of_ok (reportPage_of_ok hlines), bind_of_ok (ih hrest), Screen.printed_printed,
      List.flatten_cons, List.countP_cons]
    cases hempty : lines.isEmpty <;> simp [pure, EStateM.pure]

theorem reportPages_of_error {artifacts : List Artifact} {e : Schema.KindError}
    (h : artifacts.mapM pageReport = .error e) : ∃ s', reportPages artifacts s = .error (.crash (.kind e)) s' := by
  induction artifacts generalizing s with
  | nil => cases h
  | cons a artifacts ih =>
    rw [List.mapM_cons] at h
    cases hfirst : pageReport a with
    | error cause =>
      rw [hfirst] at h
      obtain rfl : cause = e := Except.error.inj h
      exact ⟨s, by rw [reportPages, bind_of_error (reportPage_of_error hfirst)]⟩
    | ok lines =>
      rw [hfirst] at h
      cases hrest : artifacts.mapM pageReport with
      | error cause =>
        rw [hrest] at h
        obtain rfl : cause = e := Except.error.inj h
        obtain ⟨s', hs'⟩ := ih (s := s.printed lines) hrest
        exact ⟨s', by rw [reportPages, bind_of_ok (reportPage_of_ok hfirst), bind_of_error hs']⟩
      | ok reports =>
        rw [hrest] at h
        cases h

theorem buildCommand_eq (environment : List (String × String)) (g : Given) :
    buildCommand environment g = settingsFor environment (overridesOf "build" g) >>= buildSite := by
  rw [overridesOf, if_pos rfl]
  rfl

theorem build_of_result {α : Type} {work : Building α} {result : Except BuildError α} {tree' : FileTree}
    (h : work.result s.tree = (result, tree')) : Run.build work s = .ok result { s with tree := tree' } := by
  rw [Run.build, bind_files, h]
  rfl

theorem buildSite_of_ok {pages : List BuiltPage} {tree' : FileTree}
    (h : (Folio.build settings.buildRules).result s.tree = (.ok pages, tree')) :
    buildSite settings s = .ok () ({ s with tree := tree' }.printed (builtLines settings pages)) := by
  rw [buildSite, bind_of_ok (build_of_result h)]
  dsimp only
  rw [bind_of_ok (forIn_print pages _), builtLines, ← Screen.printed_printed]
  rfl

theorem buildSite_of_compile {cause : CompileError} {tree' : FileTree}
    (h : (Folio.build settings.buildRules).result s.tree = (.error (.compile cause), tree')) :
    buildSite settings s
      = .error (.exit 1) ({ s with tree := tree' }.blamed "Build failed" (some cause.message)) := by
  rw [buildSite, bind_of_ok (build_of_result h)]
  exact fail_eq _ _

theorem buildSite_of_error {e : BuildError} {tree' : FileTree}
    (h : (Folio.build settings.buildRules).result s.tree = (.error e, tree')) (he : ∀ cause, e ≠ .compile cause) :
    buildSite settings s = .error (.crash (.build e)) { s with tree := tree' } := by
  rw [buildSite, bind_of_ok (build_of_result h)]
  cases e with
  | compile cause => exact absurd rfl (he cause)
  | _ => rfl

end

/-! ## What a run shows -/

/-- A report shows how a command has ended. -/
def Finish.Shows (r : Report) : Finish → Prop
  | .completes lines status => r.output = joinLines lines ∧ r.errors = "" ∧ r.ending = .exit status
  | .fails message cause => r.output = "" ∧
      r.errors = joinLines (("Error: " ++ message) :: cause.toList.map ("  " ++ ·)) ∧ r.ending = .exit 1
  | .escapes cause => r.ending = .crash cause

section

variable {run : Run Unit} {tree t : FileTree}

theorem shows_completes {lines : List String} (h : run ⟨tree, [], []⟩ = .ok () ((Screen.mk t [] []).printed lines)) :
    (Finish.completes lines 0).Shows (run.report tree) := by
  rw [Run.report, h]
  exact ⟨rfl, rfl, rfl⟩

theorem shows_completes_one {lines : List String}
    (h : run ⟨tree, [], []⟩ = .error (.exit 1) ((Screen.mk t [] []).printed lines)) :
    (Finish.completes lines 1).Shows (run.report tree) := by
  rw [Run.report, h]
  exact ⟨rfl, rfl, rfl⟩

theorem shows_fails {message : String} {cause : Option String}
    (h : run ⟨tree, [], []⟩ = .error (.exit 1) ((Screen.mk t [] []).blamed message cause)) :
    (Finish.fails message cause).Shows (run.report tree) := by
  rw [Run.report, h]
  exact ⟨rfl, rfl, rfl⟩

theorem shows_escapes {cause : Crash} {s : Screen} (h : run ⟨tree, [], []⟩ = .error (.crash cause) s) :
    (Finish.escapes cause).Shows (run.report tree) := by
  rw [Run.report, h]
  rfl

end

section

variable {environment : List (String × String)} {tree : FileTree} {g : Given} {command : String} {finish : Finish}
  {batches : List Batch} {s s' : Screen} {ending : Ending}

theorem perform_of_answers (environment : List (String × String)) (batches : List Batch) (g : Given) (h : Answers command) :
    ∃ rest, Request.perform environment batches ⟨command, g⟩ = openServer environment g >>= rest := by
  rcases answers_iff.1 h with rfl | rfl | rfl
  · exact ⟨_, rfl⟩
  · exact ⟨_, rfl⟩
  · exact ⟨_, rfl⟩

/-- A command that does not get its settings ends. -/
theorem perform_of_unset (reads : command = "build" ∨ Answers command)
    (h : settingsFor environment (overridesOf command g) s = .error ending s') :
    Request.perform environment batches ⟨command, g⟩ s = .error ending s' := by
  rcases reads with rfl | hanswers
  · show buildCommand environment g s = _
    rw [buildCommand_eq, bind_of_error h]
  · obtain ⟨rest, hrest⟩ := perform_of_answers environment batches g hanswers
    rw [overridesOf_of_answers hanswers] at h
    have hopen : openServer environment g s = .error ending s' := by rw [openServer, bind_of_error h]
    rw [hrest, bind_of_error hopen]

/-- Print a list of pages. -/
def printList (artifacts : List Artifact) : Run Unit := do
  if artifacts.isEmpty then
    print "No content found."
    throw (.exit 1)
  printLines (bySlug artifacts)

/-- Print what is wrong with pages. -/
def printReports (artifacts : List Artifact) : Run Unit := do
  let wrong ← reportPages (bySlug artifacts)
  print (checkedLine artifacts.length wrong)
  if wrong ≠ 0 then throw (.exit 1)

theorem listCommand_eq (environment : List (String × String)) (g : Given) : listCommand environment g =
    openServer environment g >>= fun server => loadPages server (filtersOf "list" g) >>= printList := by
  rw [filtersOf, if_pos rfl]
  rfl

theorem validateCommand_eq (environment : List (String × String)) (g : Given) : validateCommand environment g =
    openServer environment g >>= fun server => loadPages server (filtersOf "validate" g) >>= printReports := by
  rw [filtersOf, if_neg (by decide)]
  rfl

theorem printList_nil : printList [] s = .error (.exit 1) (s.printed ["No content found."]) := rfl

theorem printList_of_ne_nil {artifacts : List Artifact} (h : artifacts ≠ []) :
    printList artifacts = printLines (bySlug artifacts) := by
  rw [printList, if_neg (by simpa using h)]

section

variable {artifacts : List Artifact} {reports : List (List String)}

theorem printReports_of_right (h : (bySlug artifacts).mapM pageReport = .ok reports)
    (hright : reports.countP (!·.isEmpty) = 0) : printReports artifacts s
      = .ok () (s.printed (reports.flatten ++ [checkedLine artifacts.length (reports.countP (!·.isEmpty))])) := by
  rw [printReports, bind_of_ok (reportPages_of_ok h), bind_print, Screen.printed_printed, if_neg (not_not.2 hright)]
  rfl

theorem printReports_of_wrong (h : (bySlug artifacts).mapM pageReport = .ok reports)
    (hwrong : reports.countP (!·.isEmpty) ≠ 0) : printReports artifacts s = .error (.exit 1)
      (s.printed (reports.flatten ++ [checkedLine artifacts.length (reports.countP (!·.isEmpty))])) := by
  rw [printReports, bind_of_ok (reportPages_of_ok h), bind_print, Screen.printed_printed, if_pos hwrong]
  rfl

end

/-- A command that does not get all pages ends. -/
theorem perform_of_unloaded {server : Server} (all : command ≠ "show") (hopens : Opens environment s.tree g command server)
    (h : loadPages server (filtersOf command g) s = .error ending s') :
    Request.perform environment batches ⟨command, g⟩ s = .error ending s' := by
  have hopen := openServer_of_opens hopens
  rcases answers_iff.1 hopens.1 with rfl | rfl | rfl
  · show listCommand environment g s = _
    rw [listCommand_eq, bind_of_ok hopen, bind_of_error h]
  · exact absurd rfl all
  · show validateCommand environment g s = _
    rw [validateCommand_eq, bind_of_ok hopen, bind_of_error h]

/-- Report why a file is not rendered. -/
def cannotRender (g : Given) (cause : String) : Run Unit :=
  fail ("Cannot render " ++ (fileOf g).text) (some cause)

/-- Render a file of a tree. -/
def renderFile (g : Given) (tree : FileTree) (options : RenderOptions) : Run Unit :=
  match tree.readText (fileOf g) with
  | .error (.encoding e) => cannotRender g e.message
  | .error e => crash (.read e)
  | .ok (cs, _) =>
    match FrontMatter.split (String.ofList cs) with
    | .error e => if e.isExplained then cannotRender g e.message else crash (.header e)
    | .ok parts =>
      match render options parts.body with
      | .ok page => print page.html
      | .error e => crash (.render e)

theorem renderCommand_of_unfit {cause : Schema.Refusal} (hfile : s.tree.isFile (fileOf g) = true)
    (h : optionsOf g = .error cause) : renderCommand g s = cannotRender g cause.message s := by
  unfold fileOf at hfile
  simp only [optionsOf] at h
  rw [renderCommand, bind_files]
  simp only [hfile, Bool.not_true, Bool.false_eq_true, if_false, h]
  rfl

theorem renderCommand_of_options {options : RenderOptions} (hfile : s.tree.isFile (fileOf g) = true)
    (h : optionsOf g = .ok options) : renderCommand g s = renderFile g s.tree options s := by
  unfold fileOf at hfile
  simp only [optionsOf] at h
  rw [renderCommand, bind_files]
  simp only [hfile, Bool.not_true, Bool.false_eq_true, if_false, h]
  unfold renderFile cannotRender fileOf
  -- what reads, splits and renders is of no account here
  generalize s.tree.readText _ = reading
  generalize FrontMatter.split = split
  generalize Folio.render = renderer
  cases reading <;> rfl

section

variable {options : RenderOptions} {cs : List Char} {modified : Int}

theorem renderFile_of_encoding {t : FileTree} {cause : Text.IllFormed}
    (h : t.readText (fileOf g) = .error (.encoding cause)) :
    renderFile g t options s = .error (.exit 1) (s.blamed ("Cannot render " ++ (fileOf g).text) (some cause.message)) := by
  rw [renderFile, h]
  exact fail_eq _ _

theorem renderFile_of_file {t : FileTree} {cause : FileError} (h : t.readText (fileOf g) = .error (.file cause)) :
    renderFile g t options s = .error (.crash (.read (.file cause))) s := by
  rw [renderFile, h]
  rfl

theorem renderFile_of_explained {t : FileTree} {e : FrontMatterError}
    (text : t.readText (fileOf g) = .ok (cs, modified)) (h : FrontMatter.split (String.ofList cs) = .error e)
    (he : e.isExplained = true) :
    renderFile g t options s = .error (.exit 1) (s.blamed ("Cannot render " ++ (fileOf g).text) (some e.message)) := by
  rw [renderFile, text]
  dsimp only
  rw [h]
  dsimp only
  rw [if_pos he]
  exact fail_eq _ _

theorem renderFile_of_unexplained {t : FileTree} {e : FrontMatterError}
    (text : t.readText (fileOf g) = .ok (cs, modified)) (h : FrontMatter.split (String.ofList cs) = .error e)
    (he : ¬e.isExplained = true) : renderFile g t options s = .error (.crash (.header e)) s := by
  rw [renderFile, text]
  dsimp only
  rw [h]
  dsimp only
  rw [if_neg he]
  rfl

theorem renderFile_of_split {t : FileTree} {parts : FrontMatter} (text : t.readText (fileOf g) = .ok (cs, modified))
    (h : FrontMatter.split (String.ofList cs) = .ok parts) : renderFile g t options s =
      (match render options parts.body with
        | .ok page => print page.html
        | .error e => crash (.render e)) s := by
  rw [renderFile, text]
  dsimp only
  rw [h]

end

/-! ## From the first screen on -/

section

variable {server : Server} {artifacts : List Artifact}

theorem perform_build {settings : Settings} (h : readSettings environment (overridesOf "build" g) tree = .ok settings) :
    Request.perform environment batches ⟨"build", g⟩ ⟨tree, [], []⟩ = buildSite settings ⟨tree, [], []⟩ := by
  show buildCommand environment g _ = _
  rw [buildCommand_eq, bind_of_ok (settingsFor_of_ok h)]

theorem perform_list (opens : Opens environment tree g "list" server)
    (loaded : (server.loadAll tree (filtersOf "list" g)).1 = .ok artifacts) :
    Request.perform environment batches ⟨"list", g⟩ ⟨tree, [], []⟩ = printList artifacts ⟨tree, [], []⟩ := by
  show listCommand environment g _ = _
  rw [listCommand_eq, bind_of_ok (openServer_of_opens opens), bind_of_ok (loadPages_of_ok (s := ⟨tree, [], []⟩) loaded)]

theorem perform_validate (opens : Opens environment tree g "validate" server)
    (loaded : (server.loadAll tree (filtersOf "validate" g)).1 = .ok artifacts) :
    Request.perform environment batches ⟨"validate", g⟩ ⟨tree, [], []⟩ = printReports artifacts ⟨tree, [], []⟩ := by
  show validateCommand environment g _ = _
  rw [validateCommand_eq, bind_of_ok (openServer_of_opens opens),
    bind_of_ok (loadPages_of_ok (s := ⟨tree, [], []⟩) loaded)]

/-- What is printed when a page is asked for. -/
def printAnswer : Except Server.RequestError Artifact → Run Unit
  | .ok a => printPage a
  | .error e =>
    match loadFailure? e with
    | some message => fail message none
    | none => crash (.request e)

theorem perform_show (opens : Opens environment tree g "show" server) :
    Request.perform environment batches ⟨"show", g⟩ ⟨tree, [], []⟩
      = printAnswer (server.load tree (g.words.head?.getD "")).1 ⟨tree, [], []⟩ := by
  show showCommand environment g _ = _
  rw [showCommand, bind_of_ok (openServer_of_opens opens), bind_files]
  generalize (server.load _ _).1 = answer
  cases answer <;> rfl

theorem perform_render {options : RenderOptions} (hfile : tree.isFile (fileOf g) = true) (h : optionsOf g = .ok options) :
    Request.perform environment batches ⟨"render", g⟩ ⟨tree, [], []⟩ = renderFile g tree options ⟨tree, [], []⟩ := by
  show renderCommand g _ = _
  exact renderCommand_of_options (s := ⟨tree, [], []⟩) hfile h

end

/-- The run of a command shows what the command comes to. A file that is rendered is there. -/
theorem ComesTo.shows (h : ComesTo environment tree g command finish) (batches : List Batch)
    (hfile : command = "render" → tree.isFile (fileOf g) = true) :
    finish.Shows (Run.report (Request.perform environment batches ⟨command, g⟩) tree) := by
  cases h with
  | refused reads failed expected => exact shows_fails (perform_of_unset reads (settingsFor_of_expected failed expected))
  | unset reads failed unexpected =>
    exact shows_escapes (perform_of_unset reads (settingsFor_of_unexpected failed unexpected))
  | built settings work => exact shows_completes ((perform_build settings).trans (buildSite_of_ok work))
  | uncompiled settings work => exact shows_fails ((perform_build settings).trans (buildSite_of_compile work))
  | unbuilt settings work unexpected =>
    exact shows_escapes ((perform_build settings).trans (buildSite_of_error work unexpected))
  | unopened answers settings failed =>
    -- whatever the command does later
    obtain ⟨rest, hrest⟩ := perform_of_answers environment batches g answers
    have hopen := openServer_of_error (s := ⟨tree, [], []⟩) answers settings failed
    exact shows_escapes (hrest ▸ bind_of_error hopen)
  | unloaded all opens failed expected =>
    have hload := loadPages_of_expected (s := ⟨tree, [], []⟩) failed expected
    exact shows_fails (perform_of_unloaded all opens hload)
  | unanswered all opens failed unexpected =>
    have hload := loadPages_of_unexpected (s := ⟨tree, [], []⟩) failed unexpected
    exact shows_escapes (perform_of_unloaded all opens hload)
  | empty opens loaded => exact shows_completes_one ((perform_list opens loaded).trans printList_nil)
  | listed opens loaded some printable =>
    refine shows_completes (t := tree) ((perform_list opens loaded).trans ?_)
    rw [printList_of_ne_nil some]
    exact printLines_of_ok printable
  | unlisted opens loaded some broken =>
    obtain ⟨s', hs'⟩ := printLines_of_error (s := ⟨tree, [], []⟩) broken
    refine shows_escapes (s := s') ((perform_list opens loaded).trans ?_)
    rw [printList_of_ne_nil some]
    exact hs'
  | checked opens loaded reported =>
    split
    · next hright =>
      exact shows_completes ((perform_validate opens loaded).trans (printReports_of_right reported hright))
    · next hwrong =>
      exact shows_completes_one ((perform_validate opens loaded).trans (printReports_of_wrong reported hwrong))
  | unhashable opens loaded failed =>
    obtain ⟨s', hs'⟩ := reportPages_of_error failed
    exact shows_escapes ((perform_validate opens loaded).trans (bind_of_error hs'))
  | shown opens loaded printable =>
    refine shows_completes (t := tree) ((perform_show opens).trans ?_)
    rw [loaded, printAnswer, printPage, printable]
    rfl
  | unprinted opens loaded broken =>
    refine shows_escapes (s := ⟨tree, [], []⟩) ((perform_show opens).trans ?_)
    rw [loaded, printAnswer, printPage, broken]
    rfl
  | missing opens failed expected =>
    refine shows_fails (t := tree) ((perform_show opens).trans ?_)
    rw [failed, printAnswer, expected]
    exact fail_eq _ _
  | unshown opens failed unexpected =>
    refine shows_escapes (s := ⟨tree, [], []⟩) ((perform_show opens).trans ?_)
    rw [failed, printAnswer, unexpected]
    rfl
  | unfit options =>
    refine shows_fails (t := tree) ?_
    show renderCommand g _ = _
    rw [renderCommand_of_unfit (s := ⟨tree, [], []⟩) (hfile rfl) options]
    exact fail_eq _ _
  | undecoded given failed => exact shows_fails ((perform_render (hfile rfl) given).trans (renderFile_of_encoding failed))
  | unread given failed => exact shows_escapes ((perform_render (hfile rfl) given).trans (renderFile_of_file failed))
  | unsplit given text failed explained =>
    exact shows_fails ((perform_render (hfile rfl) given).trans (renderFile_of_explained text failed explained))
  | misread given text failed unexplained =>
    exact shows_escapes ((perform_render (hfile rfl) given).trans (renderFile_of_unexplained text failed unexplained))
  | unrendered given text split failed =>
    refine shows_escapes (s := ⟨tree, [], []⟩) ((perform_render (hfile rfl) given).trans ?_)
    rw [renderFile_of_split text split, failed]
    rfl
  | rendered given text split done =>
    refine shows_completes (t := tree) ((perform_render (hfile rfl) given).trans ?_)
    rw [renderFile_of_split text split, done]
    rfl

end

end Folio.CommandLine
