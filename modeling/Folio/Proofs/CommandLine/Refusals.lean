import Folio.Proofs.CommandLine.Rereading
import Folio.Proofs.Settings.Layers
import Folio.Proofs.Yaml.Refusals

set_option autoImplicit false

/-! # Settings that are refused

An attempt to load settings gives them, or a cause that callers expect: the file is no YAML, or a field is refused
(`Refuses`). Other causes escape (`Escapes`): a file with a value that is no mapping, or with a key that is no name, and
nodes of the file that are not what their tags say. Callers report what they expect, and nothing else
(`settings_load_or_are_refused_or_escape`). -/

namespace Folio.Settings

open Schema CommandLine

/-- Whether callers expect a cause. -/
def LayerError.isExpected : LayerError → Bool
  | yaml _ cause => cause.isExplained
  | refused _ => true
  | _ => false

theorem expected?_settings (e : LayerError) :
    expected? (.settings e) = if e.isExpected then some e.message else none := by
  cases e <;> rfl

/-! ## What a file holds -/

/-- A file holds a value that counts as something, and is no mapping. -/
inductive HoldsOther : Option (List Char) → Value → Prop
  | intro {text : List Char} {v : Value} (reads : Yaml.load text = .ok v) (something : v.isTruthy = true)
      (other : ∀ entries, v ≠ .map entries) : HoldsOther (some text) v

/-- No variable says anything about a field. -/
def IsSilent (environment : List (String × String)) : Prop :=
  ∀ f ∈ fields, ∀ text, environment.lookup (variableName f.1.name) = some text → text = ""

/-- Why there are no settings, as callers expect it. -/
inductive Refuses (file : Option (List Char)) (environment : List (String × String)) (overrides : List (String × Value)) :
    LayerError → Prop
  /-- The text of the file has no value. -/
  | unread {text : List Char} {cause : Yaml.LoadError} (given : file = some text) (fails : Yaml.load text = .error cause)
      (explained : cause.isExplained = true) : Refuses file environment overrides (.yaml text cause)
  /-- A value of a field, from its source, cannot be brought in the form of the field. -/
  | unfit {base : List (Value × Value)} {issues : List Issue} {f : Field × Shape} {v : Value}
      (holds : baseValue file = .ok (.map base)) (names : base.all (·.1.isText) = true) (isField : f ∈ fields)
      (found : Value.field? f.1.key (laidOver base environment overrides) = some v) (wrong : ∀ w, f.2.check v ≠ .ok w)
      (some : issues ≠ []) : Refuses file environment overrides (.refused ⟨"Settings", issues⟩)

/-- Why there are no settings, as no caller expects it. -/
inductive Escapes (file : Option (List Char)) (environment : List (String × String)) (overrides : List (String × Value)) :
    LayerError → Prop
  /-- A node is not what its tag says, or an escape stands for no character. -/
  | misread {text : List Char} {cause : Yaml.LoadError} (given : file = some text) (fails : Yaml.load text = .error cause)
      (escapes : Yaml.Escapes text cause) : Escapes file environment overrides (.yaml text cause)
  /-- The value of the file is no mapping, and takes nothing from variables. -/
  | unassigned {v : Value} (holds : HoldsOther file v) (told : ¬IsSilent environment) :
      Escapes file environment overrides (.notAssignable v)
  /-- The value of the file is no mapping, and takes no overrides. A set takes them. -/
  | unchanged {v : Value} (holds : HoldsOther file v) (silent : IsSilent environment) (given : overrides ≠ [])
      (noSet : ∀ items, v ≠ .set items) : Escapes file environment overrides (.notUpdatable v)
  /-- The value of the file is no mapping, and names no fields. -/
  | unnamed {v : Value} (holds : HoldsOther file v) (silent : IsSilent environment)
      (stays : overrides = [] ∨ ∃ items, v = .set items) : Escapes file environment overrides (.notAMapping v)
  /-- A key of the mapping in the file is no name. -/
  | unkeyed {base : List (Value × Value)} {e : Value × Value} (holds : baseValue file = .ok (.map base)) (mem : e ∈ base)
      (noName : e.1.isText = false) : Escapes file environment overrides .keyNotText

section

variable {file : Option (List Char)} {text : List Char} {environment : List (String × String)}
  {overrides : List (String × Value)} {base : List (Value × Value)} {v : Value} {e : LayerError} {s : Settings}

theorem isSilent_iff : IsSilent environment ↔ variableEntries environment = [] := by
  rw [variableEntries_eq, List.filterMap_eq_nil_iff]
  exact forall₂_congr fun f _ => inEnvironment?_eq_none_iff.symm.trans Option.map_eq_none_iff.symm

theorem HoldsOther.baseValue_eq (h : HoldsOther file v) : baseValue file = .ok v := by
  cases h with
  | intro reads something other =>
    rw [baseValue, fileValue, reads]
    exact congrArg Except.ok (if_pos something)

theorem HoldsOther.ne_map (h : HoldsOther file v) : ∀ entries, v ≠ .map entries := by
  cases h with
  | intro _ _ other => exact other

/-- A file has no value, or holds a mapping, or something else. -/
theorem baseValue_cases (file : Option (List Char)) :
    (∃ text cause, file = some text ∧ Yaml.load text = .error cause ∧ baseValue file = .error (.yaml text cause)) ∨
      (∃ base, baseValue file = .ok (.map base)) ∨ ∃ v, HoldsOther file v := by
  cases file with
  | none => exact .inr (.inl ⟨[], rfl⟩)
  | some text =>
    cases hload : Yaml.load text with
    | error cause => exact .inl ⟨text, cause, rfl, hload, by rw [baseValue, fileValue, hload]⟩
    | ok v =>
      have hvalue : baseValue (some text) = .ok (if v.isTruthy then v else .map []) := by rw [baseValue, fileValue, hload]
      by_cases hsomething : v.isTruthy = true
      · by_cases hmap : ∃ base, v = .map base
        · obtain ⟨base, rfl⟩ := hmap
          exact .inr (.inl ⟨base, hvalue.trans (congrArg Except.ok (if_pos hsomething))⟩)
        · exact .inr (.inr ⟨v, .intro hload hsomething fun base hbase => hmap ⟨base, hbase⟩⟩)
      · exact .inr (.inl ⟨[], hvalue.trans (congrArg Except.ok (if_neg hsomething))⟩)

/-! ## Attempts to load -/

theorem load_of_baseValue_error (h : baseValue file = .error e) : load file environment overrides = .error e := by
  rw [load_eq, h]
  rfl

theorem load_of_overlay_error (h : baseValue file = .ok v)
    (he : overlay v (variableEntries environment) overrides = .error e) : load file environment overrides = .error e := by
  rw [load_eq, h]
  simp only [bind, Except.bind, he]

theorem load_of_unkeyed (h : baseValue file = .ok (.map base)) (hnames : ¬base.all (·.1.isText) = true) :
    load file environment overrides = .error .keyNotText := by
  have hoverlay : overlay (.map base) (variableEntries environment) overrides
      = .ok (laidOver base environment overrides) := rfl
  rw [load_eq, h]
  simp only [bind, Except.bind, hoverlay, all_isText_laidOver, Bool.eq_false_iff.2 hnames, Bool.not_false, if_true]
  rfl

theorem overlay_of_other (hother : ∀ entries, v ≠ .map entries) {fromVariables : List (String × Value)} :
    (fromVariables ≠ [] → overlay v fromVariables overrides = .error (.notAssignable v)) ∧
    (fromVariables = [] → overrides ≠ [] → (∀ items, v ≠ .set items) →
      overlay v fromVariables overrides = .error (.notUpdatable v)) ∧
    (fromVariables = [] → (overrides = [] ∨ ∃ items, v = .set items) →
      overlay v fromVariables overrides = .error (.notAMapping v)) := by
  cases v with
  | map entries => exact absurd rfl (hother entries)
  | set items => simp +contextual [overlay]
  | _ => simp +contextual [overlay]

/-- A cause that escapes is why there are no settings, and no caller expects it. -/
theorem load_of_escapes (h : Escapes file environment overrides e) :
    load file environment overrides = .error e ∧ e.isExpected = false := by
  cases h with
  | @misread text cause given fails escapes =>
    refine ⟨load_of_baseValue_error ?_, escapes.isExplained⟩
    rw [given, baseValue, fileValue, fails]
  | unassigned holds told =>
    exact ⟨load_of_overlay_error holds.baseValue_eq ((overlay_of_other holds.ne_map).1 (mt isSilent_iff.2 told)), rfl⟩
  | unchanged holds silent given noSet =>
    exact ⟨load_of_overlay_error holds.baseValue_eq ((overlay_of_other holds.ne_map).2.1 (isSilent_iff.1 silent) given noSet), rfl⟩
  | unnamed holds silent stays =>
    exact ⟨load_of_overlay_error holds.baseValue_eq ((overlay_of_other holds.ne_map).2.2 (isSilent_iff.1 silent) stays), rfl⟩
  | unkeyed holds mem noName =>
    refine ⟨load_of_unkeyed holds fun hnames => ?_, rfl⟩
    cases (List.all_eq_true.1 hnames _ mem).symm.trans noName

theorem exists_escapes_of_other (h : HoldsOther file v) : ∃ e, Escapes file environment overrides e := by
  by_cases hsilent : IsSilent environment
  · by_cases hstays : overrides = [] ∨ ∃ items, v = .set items
    · exact ⟨_, .unnamed h hsilent hstays⟩
    · obtain ⟨hgiven, hnoSet⟩ := not_or.1 hstays
      exact ⟨_, .unchanged h hsilent hgiven fun items hitems => hnoSet ⟨items, hitems⟩⟩
  · exact ⟨_, .unassigned h hsilent⟩

/-- Where settings are not loaded over a mapping of names, the value of a field is wrong. -/
theorem exists_wrong_of_fails (hbase : baseValue file = .ok (.map base)) (hnames : base.all (·.1.isText) = true)
    (h : ¬∃ s, load file environment overrides = .ok s) :
    ∃ f ∈ fields, ∃ v, Value.field? f.1.key (laidOver base environment overrides) = some v ∧ ∀ w, f.2.check v ≠ .ok w := by
  rw [exists_load_iff hbase hnames] at h
  push Not at h
  obtain ⟨f, hf, hunsettled⟩ := h
  have hwrong := mt (exists_settles_iff hf).2 (not_exists.2 hunsettled)
  push Not at hwrong
  exact ⟨f, hf, hwrong⟩

/-- Over a mapping of names only a refusal keeps settings from being loaded. -/
theorem eq_refused_of_load (hbase : baseValue file = .ok (.map base)) (hnames : base.all (·.1.isText) = true)
    (h : load file environment overrides = .error e) : ∃ issues, issues ≠ [] ∧ e = .refused ⟨"Settings", issues⟩ := by
  have hgives := shape.gives_check isSound_shape (.map (laidOver base environment overrides))
  rw [load_of_base hbase hnames, ofValue, Shape.accept] at h
  cases hcheck : shape.check (.map (laidOver base environment overrides)) with
  | ok v =>
    rw [hcheck] at h
    cases v <;> cases h
  | error issues =>
    rw [hcheck] at h hgives
    exact ⟨issues, hgives, (Except.error.inj h).symm⟩

/-- Over a mapping of names settings are loaded, or a field is refused. -/
theorem load_or_refuses (hbase : baseValue file = .ok (.map base)) (hnames : base.all (·.1.isText) = true) :
    (∃ s, load file environment overrides = .ok s) ∨
      ∃ e, Refuses file environment overrides e ∧ load file environment overrides = .error e := by
  cases hload : load file environment overrides with
  | ok s => exact .inl ⟨s, rfl⟩
  | error e =>
    have hfails : ¬∃ s, load file environment overrides = .ok s := fun ⟨s, hs⟩ => by cases hload.symm.trans hs
    obtain ⟨f, hf, v, hv, hwrong⟩ := exists_wrong_of_fails hbase hnames hfails
    obtain ⟨issues, hsome, rfl⟩ := eq_refused_of_load hbase hnames hload
    exact .inr ⟨_, .unfit hbase hnames hf hv hwrong hsome, rfl⟩

theorem Refuses.isExpected (h : Refuses file environment overrides e) : e.isExpected = true := by
  cases h with
  | unread _ _ explained => exact explained
  | unfit => rfl

/-- Where nothing escapes, settings are loaded or refused. -/
theorem load_or_refuses_of_not_escapes (h : ∀ e, ¬Escapes file environment overrides e) :
    (∃ s, load file environment overrides = .ok s) ∨
      ∃ e, Refuses file environment overrides e ∧ load file environment overrides = .error e := by
  rcases baseValue_cases file with ⟨text, cause, rfl, hfails, hbase⟩ | ⟨base, hbase⟩ | ⟨v, hv⟩
  · cases hexplained : cause.isExplained with
    | true => exact .inr ⟨_, .unread rfl hfails hexplained, load_of_baseValue_error hbase⟩
    | false => exact absurd (.misread rfl hfails (Yaml.escapes_of_load hfails hexplained)) (h _)
  · by_cases hnames : base.all (·.1.isText) = true
    · exact load_or_refuses hbase hnames
    · obtain ⟨e, he, hnoName⟩ := List.all_eq_false.1 (Bool.eq_false_iff.2 hnames)
      exact absurd (.unkeyed hbase he (Bool.eq_false_iff.2 hnoName)) (h _)
  · obtain ⟨e, he⟩ := @exists_escapes_of_other file environment overrides v hv
    exact absurd he (h e)

/-! ## Callers -/

variable {tree : FileTree}

theorem readSettings_of_text (htext : settingsText tree = .ok file) :
    readSettings environment overrides tree = (load file environment overrides).mapError .settings := by
  rw [readSettings_eq, htext]
  rfl

theorem settingsFor_of_load (htext : settingsText tree = .ok file) (h : load file environment overrides = .ok s) :
    settingsFor environment overrides ⟨tree, [], []⟩ = .ok s ⟨tree, [], []⟩ :=
  settingsFor_of_ok ((readSettings_of_text htext).trans (by rw [h]; rfl))

/-- A command reports what it expects, and ends by anything else. -/
theorem settingsFor_of_load_error (htext : settingsText tree = .ok file) (h : load file environment overrides = .error e) :
    settingsFor environment overrides ⟨tree, [], []⟩ =
      if e.isExpected then .error (.exit 1) (Screen.blamed ⟨tree, [], []⟩ e.message none)
      else .error (.crash (.settings e)) ⟨tree, [], []⟩ := by
  have hread : readSettings environment overrides tree = .error (.settings e) :=
    (readSettings_of_text htext).trans (by rw [h]; rfl)
  have hexpected := expected?_settings e
  split
  · next he => exact settingsFor_of_expected hread (hexpected.trans (if_pos he))
  · next he => exact settingsFor_of_unexpected hread (hexpected.trans (if_neg he))

/-- The log is set up whatever is expected, and anything else ends the run. -/
theorem checkLog_of_load (htext : settingsText tree = .ok file) (g : CommandLine.Given)
    (h : load file environment [] = .ok s) : checkLog environment g ⟨tree, [], []⟩ = .ok () ⟨tree, [], []⟩ := by
  refine checkLog_of_not_fails fun cause hfails => ?_
  rw [LogFails, readSettings_of_text htext, h] at hfails
  cases hfails.2.1

theorem checkLog_of_load_error (htext : settingsText tree = .ok file) {g : CommandLine.Given}
    (hlevel : g.option? "--log-level" = none) (h : load file environment [] = .error e) :
    checkLog environment g ⟨tree, [], []⟩ =
      if e.isExpected then .ok () ⟨tree, [], []⟩ else .error (.crash (.settings e)) ⟨tree, [], []⟩ := by
  have hread : readSettings environment [] tree = .error (.settings e) :=
    (readSettings_of_text htext).trans (by rw [h]; rfl)
  have hexpected := expected?_settings e
  split
  · next he =>
    refine checkLog_of_not_fails fun cause hfails => ?_
    obtain ⟨-, hcause, hunexpected⟩ := hfails
    obtain rfl := Except.error.inj (hread.symm.trans hcause)
    rw [hexpected, if_pos he] at hunexpected
    cases hunexpected
  · next he => exact checkLog_of_fails ⟨hlevel, hread, hexpected.trans (if_neg he)⟩

end

/-- **Settings are loaded, or they are refused as callers expect it, or what keeps them from being loaded escapes.** It escapes
    exactly where the file is no mapping from names, or has something in it that is not what its tag says. A command reports
    what it expects as an error, and the log is set up in spite of it; what escapes ends both. -/
theorem settings_load_or_are_refused_or_escape (file : Option (List Char)) (environment : List (String × String))
    (overrides : List (String × Value)) :
    (∀ e, Escapes file environment overrides e → load file environment overrides = .error e ∧ e.isExpected = false) ∧
    ((∀ e, ¬Escapes file environment overrides e) → (∃ s, load file environment overrides = .ok s) ∨
      ∃ e, Refuses file environment overrides e ∧ load file environment overrides = .error e ∧ e.isExpected = true) ∧
    ∀ tree, settingsText tree = .ok file →
      (∀ s, load file environment overrides = .ok s →
        settingsFor environment overrides ⟨tree, [], []⟩ = .ok s ⟨tree, [], []⟩) ∧
      (∀ e, load file environment overrides = .error e →
        settingsFor environment overrides ⟨tree, [], []⟩ =
          if e.isExpected then .error (.exit 1) (Screen.blamed ⟨tree, [], []⟩ e.message none)
          else .error (.crash (.settings e)) ⟨tree, [], []⟩) ∧
      ∀ g : CommandLine.Given, g.option? "--log-level" = none →
        (∀ s, load file environment [] = .ok s → checkLog environment g ⟨tree, [], []⟩ = .ok () ⟨tree, [], []⟩) ∧
        ∀ e, load file environment [] = .error e →
          checkLog environment g ⟨tree, [], []⟩ =
            if e.isExpected then .ok () ⟨tree, [], []⟩ else .error (.crash (.settings e)) ⟨tree, [], []⟩ := by
  refine ⟨fun e => load_of_escapes, fun hstays => ?_, fun tree htext => ⟨fun s => settingsFor_of_load htext,
    fun e => settingsFor_of_load_error htext, fun g hlevel => ⟨fun s => checkLog_of_load htext g,
      fun e => checkLog_of_load_error htext hlevel⟩⟩⟩
  exact (load_or_refuses_of_not_escapes hstays).imp_right fun ⟨e, hrefuses, hload⟩ => ⟨e, hrefuses, hload, hrefuses.isExpected⟩

/-! ## Odd files -/

theorem exists_holdsOther {text : List Char} {kind : String}
    (h : (Yaml.load text).toOption.map (fun v => (v.isTruthy, v.kindName)) = some (true, kind)) (hkind : kind ≠ "dict") :
    ∃ v, HoldsOther (some text) v ∧ v.kindName = kind := by
  obtain ⟨v, hv, hshape⟩ := Option.map_eq_some_iff.1 h
  obtain ⟨hsomething, rfl⟩ := Prod.mk.inj hshape
  refine ⟨v, .intro (Except.toOption_eq_some_iff.1 hv) hsomething fun entries hmap => hkind ?_, rfl⟩
  rw [hmap]
  rfl

theorem kindName_of_isText {v : Value} (h : v.isText = true) : v.kindName = "str" := by
  unfold Value.isText Value.isBroken at h
  split at h
  · rfl
  · split at h
    · rfl
    · cases h

/-- The kinds of the keys of a value. -/
def keyKinds : Value → List String
  | .map entries => entries.map (·.1.kindName)
  | _ => []

theorem exists_key {text : List Char} {kind : String}
    (h : (Yaml.load text).toOption.map (fun v => (v.isTruthy, keyKinds v)) = some (true, [kind])) :
    ∃ base e, baseValue (some text) = .ok (.map base) ∧ e ∈ base ∧ e.1.kindName = kind := by
  obtain ⟨v, hv, hshape⟩ := Option.map_eq_some_iff.1 h
  obtain ⟨hsomething, hkinds⟩ := Prod.mk.inj hshape
  cases v with
  | map base =>
    obtain ⟨e, he, hkind⟩ := List.mem_map.1 (hkinds ▸ List.mem_singleton_self kind : kind ∈ keyKinds (.map base))
    refine ⟨base, e, ?_, he, hkind⟩
    rw [baseValue, fileValue, Except.toOption_eq_some_iff.1 hv]
    exact congrArg Except.ok (if_pos hsomething)
  | _ => cases hkinds

/-- Why a text has no value, if it has none. -/
def yamlFailure? (text : List Char) : Option Yaml.LoadError :=
  match Yaml.load text with
  | .error cause => some cause
  | .ok _ => none

theorem load_of_yamlFailure? {text : List Char} {cause : Yaml.LoadError} (h : yamlFailure? text = some cause) :
    Yaml.load text = .error cause := by
  rw [yamlFailure?] at h
  cases hload : Yaml.load text with
  | ok v =>
    rw [hload] at h
    cases h
  | error e =>
    rw [hload] at h
    exact congrArg Except.error (Option.some.inj h)

/-- A site with a file of the settings. -/
def siteWith (text : String) : FileTree where
  home := []
  entries := [([fileName], .file text.toUTF8.toList 0)]

/-- Files with a list, with a word, with a key that is a number, and with a word that is no truth value; and no file. -/
theorem oddFiles_escape :
    (∃ v, load (some "[a]".toList) [] [] = .error (.notAMapping v) ∧
      (LayerError.notAMapping v).message = "mdcontent.config.Settings() argument after ** must be a mapping, not list" ∧
      settingsFor [] [] ⟨siteWith "[a]", [], []⟩ = .error (.crash (.settings (.notAMapping v))) ⟨siteWith "[a]", [], []⟩ ∧
      checkLog [] {} ⟨siteWith "[a]", [], []⟩ = .error (.crash (.settings (.notAMapping v))) ⟨siteWith "[a]", [], []⟩) ∧
    (∃ v, load (some "abc".toList) [("MDCONTENT_SANITIZE", "false")] [] = .error (.notAssignable v)) ∧
    (∃ v, load (some "abc".toList) [] [("sanitize", .bool false)] = .error (.notUpdatable v)) ∧
    load (some "1: 2".toList) [] [] = .error .keyNotText ∧
    (∃ e, Escapes (some "a: !!bool maybe".toList) [] [] e ∧
      load (some "a: !!bool maybe".toList) [] [] = .error e ∧ e.isExpected = false) ∧
    (∀ e, ¬Escapes none [] [] e) ∧ ∃ s, load none [] [] = .ok s := by
  have hsilent : IsSilent [] := fun f _ text htext => by cases htext
  obtain ⟨items, hitems, hlist⟩ := @exists_holdsOther "[a]".toList "list" (by decide +kernel) (by decide)
  obtain ⟨word, hword, hstring⟩ := @exists_holdsOther "abc".toList "str" (by decide +kernel) (by decide)
  refine ⟨⟨items, ?_⟩, ⟨word, ?_⟩, ⟨word, ?_⟩, ?_, ?_, ?_⟩
  · obtain ⟨hescapes, -, hcallers⟩ := settings_load_or_are_refused_or_escape (some "[a]".toList) [] []
    obtain ⟨hload, hunexpected⟩ := hescapes _ (.unnamed hitems hsilent (.inl rfl))
    obtain ⟨-, hcommand, hlog⟩ := hcallers (siteWith "[a]") (by decide +kernel)
    refine ⟨hload, ?_, (hcommand _ hload).trans (if_neg (by simp [hunexpected])),
      ((hlog {} rfl).2 _ hload).trans (if_neg (by simp [hunexpected]))⟩
    cases items with
    | list => rfl
    | unwritable what =>
      cases what with
      | cycle => rfl
      | text t => exact absurd hlist (by simp [Value.kindName])
    | _ => exact absurd hlist (by simp [Value.kindName])
  · refine ((settings_load_or_are_refused_or_escape _ _ _).1 _ (.unassigned hword fun htold => ?_)).1
    exact absurd (htold (withDefault "sanitize" (.bool true) .flag) (by simp [fields]) "false" rfl) (by decide)
  · refine ((settings_load_or_are_refused_or_escape _ _ _).1 _ (.unchanged hword hsilent (by simp) fun chars hset => ?_)).1
    rw [hset] at hstring
    exact absurd hstring (by simp [Value.kindName])
  · obtain ⟨base, e, hbase, he, hnumber⟩ := @exists_key "1: 2".toList "int" (by decide +kernel)
    have hnoName : e.1.isText = false := Bool.eq_false_iff.2 fun htext => by
      rw [kindName_of_isText htext] at hnumber
      exact absurd hnumber (by decide)
    exact ((settings_load_or_are_refused_or_escape _ _ _).1 _ (.unkeyed hbase he hnoName)).1
  · have hfails : Yaml.load "a: !!bool maybe".toList = .error (.scalar (.notATruthValue "maybe".toList)) :=
      load_of_yamlFailure? (by decide +kernel)
    have hescapes : Escapes (some "a: !!bool maybe".toList) [] [] (.yaml _ (.scalar (.notATruthValue "maybe".toList))) :=
      .misread rfl hfails (Yaml.escapes_of_load hfails rfl)
    exact ⟨_, hescapes, (settings_load_or_are_refused_or_escape _ _ _).1 _ hescapes⟩
  · have hnone : ∀ e, ¬Escapes none [] [] e := fun e he => by
      cases he with
      | misread given => cases given
      | unassigned holds => cases holds
      | unchanged holds => cases holds
      | unnamed holds => cases holds
      | unkeyed holds mem =>
        obtain rfl := Value.map.inj (Except.ok.inj holds)
        cases mem
    refine ⟨hnone, ((settings_load_or_are_refused_or_escape none [] []).2.1 hnone).resolve_right ?_⟩
    rintro ⟨e, hrefuses, -⟩
    cases hrefuses with
    | unread given => cases given
    | unfit holds _ _ found =>
      obtain rfl := Value.map.inj (Except.ok.inj holds)
      cases found

end Folio.Settings
