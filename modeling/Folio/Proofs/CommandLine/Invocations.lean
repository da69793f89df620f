import Folio.Proofs.CommandLine.Endings
import Folio.Proofs.Settings.Fields

set_option autoImplicit false

/-! # Command lines that fit

A command line that fits the form of a command is run: the settings for the log are looked at, then the command is
performed. It ends cleanly, unless a failure that nothing expects leaves it (`command_ends_cleanly_or_escapes`). -/

namespace Folio.CommandLine

open Run

/-! ## Command lines -/

/-- A command line fits the form of a command: it gives something to all commands, names one and gives something to it. A file
    to render is there. -/
structure Invokes (tree : FileTree) (words : List String) (common : Given) (command : String) (g : Given) : Prop where
  command_mem : command ∈ commands
  read : ∃ rest form, readWords commonForm false none {} words = some (common, command :: rest) ∧
    forms.lookup command = some form ∧ form.read? rest = some g
  word : needsWord command = true → g.words ≠ []
  file : command = "render" → tree.isFile (fileOf g) = true

/-- The text of the file of the settings, if there is one. -/
def settingsText (tree : FileTree) : Except ReadError (Option (List Char)) :=
  if tree.doesExist (.ofText Settings.fileName) then (tree.readText (.ofText Settings.fileName)).map fun t => some t.1
  else .ok none

/-- No text in a value, itself or in a list, has halves. -/
def isWhole : Value → Bool
  | .list items => items.all (!·.isBroken)
  | v => !v.isBroken

/-- The file of the settings tells them in texts without halves. -/
def HasWholeSettings (tree : FileTree) : Prop :=
  ∀ text entries, settingsText tree = .ok (some text) → Settings.fileValue text = .ok (.map entries) →
    ∀ e ∈ entries, isWhole e.2 = true

/-- A manifest, if it can be read, has keys and places that are texts without halves, or places of other kinds. -/
def isWholeManifest : Except ManifestError (List (Value × Value)) → Bool
  | .ok entries => entries.all fun (key, place) => key.isText && !key.isBroken && !place.isBroken
  | .error (.json _ _ cause) => cause.defect != .brokenName
  | .error _ => true

/-- What tells a command where pages are has no halves. -/
structure IsWhole (environment : List (String × String)) (tree : FileTree) (command : String) (g : Given) : Prop where
  settings : HasWholeSettings tree
  manifest : Answers command → ∀ s, readSettings environment (overridesOf command g) tree = .ok s →
    isWholeManifest (Manifest.read tree (.ofText s.outputDir)) = true

/-- The settings for the log fail, and not as commands expect. -/
def LogFails (environment : List (String × String)) (tree : FileTree) (common : Given) (cause : Crash) : Prop :=
  common.option? "--log-level" = none ∧ readSettings environment [] tree = .error cause ∧ expected? cause = none

/-- A failure leaves a command line: that of the settings for the log, and else that of the command. -/
def Escapes (environment : List (String × String)) (tree : FileTree) (common : Given) (command : String) (g : Given)
    (cause : Crash) : Prop :=
  LogFails environment tree common cause ∨
    (∀ e, ¬LogFails environment tree common e) ∧ ComesTo environment tree g command (.escapes cause)

/-- How a command should end: with its output, with the news that there is nothing to list, with a report on pages that
    are wrong, or with an error. The status is 1 unless the output is complete and nothing is wrong. -/
inductive EndsCleanly (command : String) (r : Report) : Prop
  | completed (errors : r.errors = "") (ending : r.ending = .exit 0)
  | nothing (of_list : command = "list") (output : r.output = "No content found.\n") (errors : r.errors = "")
      (ending : r.ending = .exit 1)
  | wrong {lines : List String} {checked invalid : Nat} (of_validate : command = "validate") (some : invalid ≠ 0)
      (output : r.output = joinLines (lines ++ [checkedLine checked invalid])) (errors : r.errors = "")
      (ending : r.ending = .exit 1)
  | failed {message : String} {details : List String} (output : r.output = "")
      (errors : r.errors = joinLines (("Error: " ++ message) :: details)) (ending : r.ending = .exit 1)

section

variable {environment : List (String × String)} {tree : FileTree} {words : List String} {common g : Given}
  {command : String} {finish : Finish} {r : Report} {batches : List Batch}

/-- What a command comes to is an end as it should be, unless it is a failure that escapes. -/
theorem ComesTo.endsCleanly (h : ComesTo environment tree g command finish) (hshows : finish.Shows r)
    (hstays : ∀ cause, finish ≠ .escapes cause) : EndsCleanly command r := by
  cases finish with
  | escapes cause => exact absurd rfl (hstays cause)
  | fails message cause => exact .failed hshows.1 hshows.2.1 hshows.2.2
  | completes lines status =>
    obtain ⟨houtput, herrors, hending⟩ := hshows
    cases h with
    | built | listed | shown | rendered => exact .completed herrors hending
    | empty => exact .nothing rfl houtput herrors hending
    | @checked _ _ reports opens loaded reported =>
      by_cases hright : reports.countP (!·.isEmpty) = 0
      · exact .completed herrors (by rw [hending, if_pos hright])
      · exact .wrong rfl hright houtput herrors (by rw [hending, if_neg hright])

/-! ## Requests -/

theorem checkLog_of_fails {cause : Crash} (h : LogFails environment tree common cause) :
    checkLog environment common ⟨tree, [], []⟩ = .error (.crash cause) ⟨tree, [], []⟩ := by
  obtain ⟨hlevel, hsettings, hcause⟩ := h
  rw [checkLog, hlevel, Option.isNone_none, if_pos rfl, bind_files, hsettings]
  dsimp only
  rw [hcause]
  rfl

theorem checkLog_of_not_fails (h : ∀ cause, ¬LogFails environment tree common cause) :
    checkLog environment common ⟨tree, [], []⟩ = .ok () ⟨tree, [], []⟩ := by
  cases hlevel : common.option? "--log-level" with
  | some level =>
    rw [checkLog, hlevel]
    rfl
  | none =>
    rw [checkLog, hlevel, Option.isNone_none, if_pos rfl, bind_files]
    cases hsettings : readSettings environment [] tree with
    | ok s => rfl
    | error e =>
      cases he : expected? e with
      | none => exact absurd ⟨hlevel, hsettings, he⟩ (h e)
      | some message =>
        dsimp only
        rw [he]
        rfl

theorem readRequest_of_fails {cause : Crash} (h : Invokes tree words common command g)
    (hlog : LogFails environment tree common cause) :
    readRequest environment words ⟨tree, [], []⟩ = .error (.crash cause) ⟨tree, [], []⟩ := by
  obtain ⟨rest, form, hwords, hform, -⟩ := h.read
  rw [readRequest, hwords]
  dsimp only
  rw [hform]
  exact bind_of_error (checkLog_of_fails hlog)

theorem readRequest_of_not_fails (h : Invokes tree words common command g)
    (hlog : ∀ cause, ¬LogFails environment tree common cause) :
    readRequest environment words ⟨tree, [], []⟩ = .ok ⟨command, g⟩ ⟨tree, [], []⟩ := by
  obtain ⟨rest, form, hwords, hform, hread⟩ := h.read
  have hword : ¬(needsWord command && g.words.isEmpty) = true := by
    simpa using h.word
  rw [readRequest, hwords]
  dsimp only
  rw [hform]
  dsimp only
  rw [bind_of_ok (checkLog_of_not_fails hlog), hread]
  dsimp only
  rw [if_neg hword]
  rfl

theorem report_of_fails {cause : Crash} (h : Invokes tree words common command g)
    (hlog : LogFails environment tree common cause) :
    (report environment batches tree words).ending = .crash cause :=
  shows_escapes (bind_of_error (readRequest_of_fails h hlog))

theorem report_of_not_fails (h : Invokes tree words common command g)
    (hlog : ∀ cause, ¬LogFails environment tree common cause) :
    report environment batches tree words = Run.report (Request.perform environment batches ⟨command, g⟩) tree := by
  rw [report, Run.report, Run.report, bind_of_ok (readRequest_of_not_fails h hlog)]

/-- A command line shows what its command comes to. -/
theorem ComesTo.shows_report (hcomes : ComesTo environment tree g command finish) (h : Invokes tree words common command g)
    (hlog : ∀ cause, ¬LogFails environment tree common cause) (batches : List Batch) :
    finish.Shows (report environment batches tree words) := by
  rw [report_of_not_fails h hlog]
  exact hcomes.shows batches h.file

end

/-! ## Sites without settings -/

section

open Schema Settings

/-- All settings have defaults. -/
theorem ofValue_empty : Settings.ofValue (.map []) = .ok {} :=
  ofValue_of_proper fun f _ v hv => by cases hv

/-- Without a file and variables, overrides that say nothing leave the settings as they are. -/
theorem readSettings_default {tree : FileTree} {overrides : List (String × Value)}
    (hfile : tree.doesExist (.ofText fileName) = false) (hsaying : saying overrides = []) :
    readSettings [] overrides tree = .ok {} := by
  have hentries : overlay (.map []) (variableEntries []) overrides = .ok [] := by
    rw [overlay, hsaying]
    rfl
  have hload : Settings.load none [] overrides = .ok {} := by
    refine Except.bind_eq_ok_iff.2 ⟨.map [], rfl, Except.bind_eq_ok_iff.2 ⟨[], hentries, ?_⟩⟩
    show (Settings.ofValue (.map [])).mapError LayerError.refused = _
    rw [ofValue_empty]
    rfl
  simp only [readSettings, hfile, Bool.false_eq_true, if_false, pure_bind, hload]
  rfl

end

theorem not_logFails_of_default {tree : FileTree} (hfile : tree.doesExist (.ofText Settings.fileName) = false)
    (common : Given) (cause : Crash) : ¬LogFails [] tree common cause := fun h => by
  have hok : readSettings [] [] tree = .ok {} := readSettings_default hfile rfl
  cases hok.symm.trans h.2.1

theorem hasWholeSettings_of_missing {tree : FileTree} (hfile : tree.doesExist (.ofText Settings.fileName) = false) :
    HasWholeSettings tree := fun text entries htext => by
  rw [settingsText, hfile, if_neg (by simp)] at htext
  cases htext

/-- Without settings the manifest is looked for in one place. -/
theorem isWhole_of_default {tree : FileTree} (hfile : tree.doesExist (.ofText Settings.fileName) = false)
    (hmanifest : isWholeManifest (Manifest.read tree (.ofText ({} : Settings).outputDir)) = true) :
    IsWhole [] tree "list" {} where
  settings := hasWholeSettings_of_missing hfile
  manifest _ s hs := by
    obtain rfl := Except.ok.inj ((readSettings_default hfile rfl).symm.trans hs)
    exact hmanifest

theorem invokes_list (tree : FileTree) : Invokes tree ["list"] {} "list" {} where
  command_mem := by decide
  read := ⟨[], _, rfl, rfl, rfl⟩
  word h := absurd h (by decide)
  file h := absurd h (by decide)

/-- A site whose manifest is not JSON. -/
def garbledSite : FileTree where
  home := []
  entries := [([".mdcontent"], .directory), ([".mdcontent", "build"], .directory),
    ([".mdcontent", "build", "manifest.json"], .file "not json".toUTF8.toList 0)]

theorem garbledSite_comesTo : ∃ cause, ComesTo [] garbledSite {} "list" (.escapes (.build cause)) := by
  have hfile : garbledSite.doesExist (.ofText Settings.fileName) = false := by decide
  have hfails : (Server.start garbledSite {} false).isOk = false := by decide +kernel
  cases hstart : Server.start garbledSite {} false with
  | ok server =>
    rw [hstart] at hfails
    cases hfails
  | error cause => exact ⟨cause, .unopened (answers_iff.2 (.inl rfl)) (readSettings_default hfile rfl) hstart⟩

theorem emptySite_comesTo : ComesTo [] (.empty []) {} "list" (.completes ["No content found."] 1) := by
  have hfile : (FileTree.empty []).doesExist (.ofText Settings.fileName) = false := by decide
  have hloads : ((Server.start (.empty []) {} false).toOption.bind fun server =>
      (server.loadAll (.empty []) (filtersOf "list" {})).1.toOption.map List.isEmpty) = some true := by decide
  obtain ⟨server, hserver, hloads⟩ := Option.bind_eq_some_iff.1 hloads
  obtain ⟨artifacts, hartifacts, hempty⟩ := Option.map_eq_some_iff.1 hloads
  obtain rfl : artifacts = [] := List.isEmpty_iff.1 hempty
  exact .empty ⟨answers_iff.2 (.inl rfl), {}, readSettings_default hfile rfl, Except.toOption_eq_some_iff.1 hserver⟩
    (Except.toOption_eq_some_iff.1 hartifacts)

/-! ## How command lines end -/

end Folio.CommandLine
