import Folio.Proofs.Build.Modules
import Folio.Proofs.CommandLine.Invocations
import Folio.Proofs.Server.Upkeep
import Folio.Proofs.Settings.Fields

set_option autoImplicit false

/-! # One command after the other

A command that answers from a build reads its files, prints, and ends. Whatever it comes to, it leaves the files as they
are (`report_keeps`).

Commands say little over the settings: where compiled pages are, and for a build also where sources are, what keys start with
and whether pages are sanitized. A build does not touch the file of the settings, so commands after it read the same file
and agree with it on all that neither of them says (`reread_agrees`). -/

namespace Folio.CommandLine

/-! ## Runs that only read -/

namespace Run

variable {α β : Type} {x : Run α} {f : α → Run β}

/-- The screen that a run leaves, however it ends. -/
def left (x : Run α) (s : Screen) : Screen :=
  match x s with
  | .ok _ s' => s'
  | .error _ s' => s'

/-- A run leaves the files as they are. -/
def OnlyReads (x : Run α) : Prop :=
  ∀ s, (x.left s).tree = s.tree

theorem OnlyReads.pure (a : α) : OnlyReads (Pure.pure a) :=
  fun _ => rfl

theorem OnlyReads.throw (ending : Ending) : OnlyReads (throw ending : Run α) :=
  fun _ => rfl

theorem OnlyReads.crash (cause : Crash) : OnlyReads (crash cause : Run α) :=
  .throw _

theorem OnlyReads.files : OnlyReads files :=
  fun _ => rfl

theorem OnlyReads.print (line : String) : OnlyReads (print line) :=
  fun _ => rfl

theorem OnlyReads.fail (message : String) (cause : Option String) : OnlyReads (fail message cause : Run α) := fun s => by
  rw [left, fail_eq]
  rfl

theorem OnlyReads.bind (hx : OnlyReads x) (hf : ∀ a, OnlyReads (f a)) : OnlyReads (x >>= f) := fun s => by
  have hs := hx s
  rw [left] at hs ⊢
  cases hrun : x s with
  | ok a s' =>
    rw [hrun] at hs
    rw [bind_of_ok hrun]
    exact (hf a s').trans hs
  | error ending s' =>
    rw [hrun] at hs
    rw [bind_of_error hrun]
    exact hs

theorem OnlyReads.print_all (lines : List β) (line : β → String) :
    OnlyReads (forIn lines PUnit.unit fun b _ => do
      Run.print (line b)
      Pure.pure (ForInStep.yield PUnit.unit)) := fun s => by
  rw [left, forIn_print]
  rfl

theorem OnlyReads.report {run : Run Unit} (h : OnlyReads run) (tree : FileTree) : (run.report tree).tree = tree := by
  have hleft := h ⟨tree, [], []⟩
  rw [left] at hleft
  rw [Run.report]
  cases hrun : run ⟨tree, [], []⟩ <;>
  · rw [hrun] at hleft
    exact hleft

end Run

open Run

/-! ## Parts of commands -/

theorem settingsFor_onlyReads (environment : List (String × String)) (overrides : List (String × Value)) :
    OnlyReads (settingsFor environment overrides) := by
  refine .bind .files fun tree => ?_
  split
  · exact .pure _
  · split
    · exact .fail _ _
    · exact .crash _

theorem openServer_onlyReads (environment : List (String × String)) (g : Given) : OnlyReads (openServer environment g) := by
  refine .bind (settingsFor_onlyReads _ _) fun s => .bind .files fun tree => ?_
  split
  · exact .pure _
  · exact .crash _

theorem loadPages_onlyReads (server : Server) (filters : Option ContentFilters) : OnlyReads (loadPages server filters) := by
  refine .bind .files fun tree => ?_
  split
  · exact .pure _
  · split
    · exact .fail _ _
    · exact .crash _

theorem printLines_onlyReads (artifacts : List Artifact) : OnlyReads (printLines artifacts) := by
  induction artifacts with
  | nil => exact .pure _
  | cons a artifacts ih =>
    have hline : OnlyReads (printLine a) := by
      unfold printLine
      split
      · exact .print _
      · exact .crash _
    exact .bind hline fun _ => ih

theorem printList_onlyReads (artifacts : List Artifact) : OnlyReads (printList artifacts) := by
  unfold printList
  split
  · exact .bind (.print _) fun _ => .bind (.throw _) fun _ => printLines_onlyReads _
  · exact printLines_onlyReads _

theorem printPage_onlyReads (a : Artifact) : OnlyReads (printPage a) := by
  unfold printPage
  split
  · exact .print _
  · exact .crash _

theorem reportPage_onlyReads (a : Artifact) : OnlyReads (reportPage a) := by
  unfold reportPage
  split
  · exact .crash _
  · exact .pure _
  · exact .bind (.print _) fun _ => .bind (.print_all _ _) fun _ => .pure _

theorem reportPages_onlyReads (artifacts : List Artifact) : OnlyReads (reportPages artifacts) := by
  induction artifacts with
  | nil => exact .pure _
  | cons a artifacts ih => exact .bind (reportPage_onlyReads a) fun _ => .bind ih fun _ => .pure _

theorem printReports_onlyReads (artifacts : List Artifact) : OnlyReads (printReports artifacts) := by
  refine .bind (reportPages_onlyReads _) fun wrong => .bind (.print _) fun _ => ?_
  split
  · exact .throw _
  · exact .pure _

/-! ## Commands -/

section

variable {environment : List (String × String)} {tree : FileTree} {words : List String} {common g : Given}
  {command : String}

theorem perform_onlyReads (batches : List Batch) (g : Given) (h : Answers command) :
    OnlyReads (Request.perform environment batches ⟨command, g⟩) := by
  rcases answers_iff.1 h with rfl | rfl | rfl
  · show OnlyReads (listCommand environment g)
    rw [listCommand_eq]
    exact .bind (openServer_onlyReads _ _) fun server => .bind (loadPages_onlyReads _ _) printList_onlyReads
  · refine .bind (openServer_onlyReads _ _) fun server => .bind .files fun tree => ?_
    split
    · exact printPage_onlyReads _
    · split
      · exact .fail _ _
      · exact .crash _
  · show OnlyReads (validateCommand environment g)
    rw [validateCommand_eq]
    exact .bind (openServer_onlyReads _ _) fun server => .bind (loadPages_onlyReads _ _) printReports_onlyReads

/-- A command that answers from a build leaves the files as they are. -/
theorem report_keeps (batches : List Batch) (h : Invokes tree words common command g) (hanswers : Answers command) :
    (report environment batches tree words).tree = tree := by
  by_cases hlog : ∃ cause, LogFails environment tree common cause
  · obtain ⟨cause, hcause⟩ := hlog
    rw [report, Run.report, bind_of_error (readRequest_of_fails h hcause)]
  · rw [report_of_not_fails h fun cause hcause => hlog ⟨cause, hcause⟩]
    exact (perform_onlyReads batches g hanswers).report tree

end

open Settings

variable {environment : List (String × String)} {tree tree' : FileTree} {overrides overrides' : List (String × Value)}
  {s s' : Settings} {command : String} {g g' : Given}

/-! ## What commands say -/

theorem nodup_overridesOf (command : String) (g : Given) : ((overridesOf command g).map Prod.fst).Nodup := by
  unfold overridesOf
  split
  · show ["content_root", "output_dir", "content_alias", "sanitize"].Nodup
    decide
  · exact List.nodup_singleton _

theorem said?_overridesOf (command : String) (g : Given) (name : String) :
    said? name (saying (overridesOf command g)) = ((overridesOf command g).lookup name).filter isSaid :=
  said?_saying (nodup_overridesOf command g) name

/-! ## The file of the settings -/

theorem readSettings_eq (environment : List (String × String)) (overrides : List (String × Value)) (tree : FileTree) :
    readSettings environment overrides tree = (do
      let text ← (settingsText tree).mapError .settingsFile
      (load text environment overrides).mapError .settings) := by
  unfold readSettings settingsText
  dsimp only
  split <;> rfl

theorem readSettings_inProcess (process : Process) :
    readSettings environment overrides (tree.inProcess process) = readSettings environment overrides tree := by
  simp only [readSettings, FileTree.doesExist_inProcess, FileTree.readText_inProcess]

theorem readSettings_eq_ok_iff : readSettings environment overrides tree = .ok s ↔
    ∃ text, settingsText tree = .ok text ∧ load text environment overrides = .ok s := by
  rw [readSettings_eq, Except.bind_eq_ok_iff]
  simp only [Except.mapError_eq_ok_iff]

/-- A failure to say something over settings that can be read is one that commands expect. -/
theorem not_logFails_of_readSettings (h : readSettings environment overrides tree = .ok s) (common : Given) (cause : Crash) :
    ¬ LogFails environment tree common cause := by
  rintro ⟨-, hfails, hexpected⟩
  obtain ⟨text, htext, hload⟩ := readSettings_eq_ok_iff.1 h
  have hread : readSettings environment [] tree = (load text environment []).mapError .settings := by
    rw [readSettings_eq, htext]
    rfl
  rcases load_or_refused hload [] with ⟨s', hs'⟩ | ⟨refusal, hrefusal⟩
  · rw [hread, hs'] at hfails
    cases hfails
  · rw [hread, hrefusal] at hfails
    obtain rfl := Except.error.inj hfails
    cases hexpected

/-- The file of the settings is read, or there is none. -/
theorem settingsText_cases {text : Option (List Char)} (h : settingsText tree = .ok text) :
    (∃ bytes modified cs, tree.read (.ofText Settings.fileName) = .ok (bytes, modified) ∧ Text.decodeUtf8 bytes = .ok cs ∧
      text = some (FileTree.unifyNewlines cs)) ∨
    text = none ∧ ∀ found, tree.read (.ofText Settings.fileName) ≠ .ok found := by
  unfold settingsText at h
  split at h
  · obtain ⟨⟨cs, modified⟩, hfound, rfl⟩ := Except.map_eq_ok_iff.1 h
    obtain ⟨bytes, cs, hread, hdecode, rfl⟩ := readText_eq_ok_iff.1 hfound
    exact .inl ⟨bytes, modified, cs, hread, hdecode, rfl⟩
  · next hmissing =>
    exact .inr ⟨(Except.ok.inj h).symm, fun found hread => hmissing (Manifest.doesExist_of_read hread)⟩

theorem isName_fileName : IsName Settings.fileName :=
  ⟨⟨by decide, by decide, by decide⟩, by decide, by decide⟩

/-- A change that does not touch the file of the settings leaves its text. -/
theorem settingsText_alters {touched : Place → Prop} (hproper : tree.IsProper) (halters : FileTree.Alters touched tree tree')
    (hspared : ¬ touched (tree.home ++ [Settings.fileName])) {text text' : Option (List Char)}
    (h : settingsText tree = .ok text) (h' : settingsText tree' = .ok text') : text' = text := by
  have hhome : tree.isDirectory ⟨false, []⟩ = true := FileTree.isDirectory_iff.2 ⟨rfl, hproper.home⟩
  have hsame : ∀ found, tree'.read (.ofText Settings.fileName) = .ok found ↔
      tree.read (.ofText Settings.fileName) = .ok found := by
    intro found
    rcases halters.read_cases hproper hhome (fun _ hs => List.mem_singleton.1 hs ▸ isName_fileName)
      (p := .ofText Settings.fileName) (by decide) hspared with hread | ⟨e, e', hread, hread'⟩
    · rw [hread]
    · rw [hread, hread']
      simp
  rcases settingsText_cases h with ⟨bytes, modified, cs, hread, hdecode, rfl⟩ | ⟨rfl, hnone⟩
  · rcases settingsText_cases h' with ⟨bytes', modified', cs', hread', hdecode', rfl⟩ | ⟨rfl, hnone'⟩
    · rw [hsame, hread] at hread'
      obtain ⟨rfl, -⟩ := Prod.mk.inj (Except.ok.inj hread')
      obtain rfl := Except.ok.inj (hdecode.symm.trans hdecode')
      rfl
    · exact absurd ((hsame _).2 hread) (hnone' _)
  · rcases settingsText_cases h' with ⟨bytes', modified', cs', hread', -⟩ | ⟨rfl, -⟩
    · exact absurd ((hsame _).1 hread') (hnone _)
    · rfl

/-! ## Reading settings again -/

/-- Commands that read one file of settings agree on where compiled pages are, if they say the same of it, and on the
    formats of keys; and on what keys start with, unless one of them says it. -/
theorem reread_agrees (hproper : tree.IsProper) (halters : FileTree.Alters IsTouched tree tree')
    (h : readSettings environment (overridesOf "build" g) tree = .ok s) (hanswers : Answers command)
    (h' : readSettings environment (overridesOf command g') tree' = .ok s')
    (hout : g'.option? "--out-dir" = g.option? "--out-dir") :
    s'.outputDir = s.outputDir ∧ s'.keyFormats = s.keyFormats ∧
      (g.option? "--alias" = none → s'.contentAlias = s.contentAlias) := by
  obtain ⟨text, htext, hload⟩ := readSettings_eq_ok_iff.1 h
  obtain ⟨text', htext', hload'⟩ := readSettings_eq_ok_iff.1 h'
  have hspared : ¬ IsTouched (tree.home ++ [Settings.fileName]) := by
    have hlast : Path.lastChar? (tree.home ++ [Settings.fileName]) = some 'l' := by
      simp only [Path.lastChar?, List.getLast?_concat]
      decide
    simp [IsTouched, hlast]
  obtain rfl : text' = text := settingsText_alters hproper halters hspared htext htext'
  obtain ⟨out, out', rfl, rfl, hagree⟩ := load_agrees hload hload'
  simp only [said?_overridesOf] at hagree
  simp only [overridesOf_of_answers hanswers] at hagree
  refine ⟨?_, ?_, fun hnone => ?_⟩
  · have hsame := hagree "output_dir" (by decide) (by rw [hout]; rfl)
    simp only [ofEntries, Schema.textAt?, hsame]
  · have hsame := hagree "key_formats" (by decide) rfl
    simp only [ofEntries, Schema.textsAt, hsame]
  · have hsilent : (overridesOf "build" g).lookup "content_alias" = some .null := by
      show some (override "content_alias" (g.option? "--alias")).2 = _
      rw [hnone]
      rfl
    have hsame := hagree "content_alias" (by decide) (by rw [hsilent]; rfl)
    simp only [ofEntries, Schema.textAt?, hsame]

end Folio.CommandLine
