import Folio.Proofs.Path.Names
import Folio.Proofs.Schema.Validation
import Folio.Proofs.Settings.Fields

set_option autoImplicit false

/-! # Layers field by field

Each field has one source, the first of an override that says something, a variable that is not empty, and the entry in the
file (`Given`). Settings are loaded exactly if what the sources of all fields give can be checked, and then each field has
what the check makes of it, or its default (`settings_are_layered`). -/

namespace Folio

open Schema

namespace Settings

/-! ## Variables -/

/-- What a variable that is not empty gives for a field: its text, or for a list the parts of the text between commas,
    without blanks around them, but for those that are blank. -/
inductive Reads (f : Field) : String → Value → Prop
  | text {text : String} (single : isList f = false) : Reads f text (.string text)
  | parts {parts : List String} (several : isList f = true) (some : parts ≠ []) (uncut : ∀ part ∈ parts, ',' ∉ part.toList) :
      Reads f (",".intercalate parts) (textsValue ((parts.map Text.strip).filter (· ≠ "")))

/-- What a text gives for a field. -/
def variableValue (f : Field) (text : String) : Value :=
  if isList f then textsValue (cutAtCommas text) else .string text

theorem cutAtCommas_eq (pieces : List (List Char)) :
    (pieces.map Text.trimBlanks).filterMap (fun part => if part.isEmpty then none else some (String.ofList part))
      = ((pieces.map String.ofList).map Text.strip).filter (· ≠ "") := by
  induction pieces with
  | nil => rfl
  | cons piece pieces ih =>
    have hempty : String.ofList (Text.trimBlanks piece) = "" ↔ (Text.trimBlanks piece).isEmpty = true := by
      rw [List.isEmpty_iff, ← String.toList_inj, String.toList_ofList]
      rfl
    have hstrip : Text.strip (String.ofList piece) = String.ofList (Text.trimBlanks piece) := by
      rw [Text.strip, String.toList_ofList]
    simp only [List.map_cons, List.filterMap_cons, List.filter_cons, hstrip]
    by_cases hblank : (Text.trimBlanks piece).isEmpty = true
    · simp only [hblank, if_true, hempty.2 hblank, ne_eq, not_true_eq_false, decide_false, Bool.false_eq_true, if_false]
      exact ih
    · simp only [hblank, if_false, ne_eq, hempty, not_false_eq_true, decide_true, if_true, Bool.false_eq_true]
      exact congrArg _ ih

theorem reads_iff {f : Field} {text : String} {v : Value} : Reads f text v ↔ v = variableValue f text := by
  constructor
  · intro h
    cases h with
    | text single =>
      rw [variableValue, single]
      rfl
    | @parts parts several some uncut =>
      have hcut : Text.cutAt ',' (",".intercalate parts).toList = parts.map String.toList := by
        rw [String.toList_intercalate]
        exact Text.cutAt_intercalate (mt List.map_eq_nil_iff.1 some) (List.forall_mem_map.2 uncut)
      rw [variableValue, several, cutAtCommas, hcut, cutAtCommas_eq, Path.map_ofList_toList]
      rfl
  · rintro rfl
    cases hlist : isList f with
    | false =>
      rw [variableValue, hlist]
      exact .text hlist
    | true =>
      obtain ⟨hjoined, hne⟩ := Text.intercalate_cutAt ',' text.toList
      have htext : ",".intercalate ((Text.cutAt ',' text.toList).map String.ofList) = text := by
        rw [← String.toList_inj, String.toList_intercalate, List.map_map]
        refine Eq.trans ?_ hjoined
        refine congrArg _ ((List.map_congr_left fun cs _ => String.toList_ofList).trans (List.map_id _))
      rw [variableValue, hlist, cutAtCommas, cutAtCommas_eq]
      conv_lhs => rw [← htext]
      refine .parts hlist (mt List.map_eq_nil_iff.1 hne) (List.forall_mem_map.2 fun piece hpiece => ?_)
      rw [String.toList_ofList]
      exact Text.not_mem_of_mem_cutAt hpiece

/-- What the environment gives for a field. -/
def inEnvironment? (environment : List (String × String)) (f : Field) : Option Value :=
  ((environment.lookup (variableName f.name)).filter (· ≠ "")).map (variableValue f)

theorem variableEntries_eq (environment : List (String × String)) :
    variableEntries environment = fields.filterMap fun f => (inEnvironment? environment f.1).map fun v => (f.1.name, v) := by
  rw [variableEntries]
  refine List.filterMap_congr fun f _ => ?_
  dsimp only
  rw [inEnvironment?]
  cases environment.lookup (variableName f.1.name) with
  | none => rfl
  | some text =>
    by_cases htext : text = ""
    · subst htext
      rfl
    · rw [Option.filter_some, if_pos (by simpa using htext)]
      split
      · next heq => cases heq
      · next heq => exact absurd (Option.some.inj heq) htext
      · next text' _ heq =>
        obtain rfl := Option.some.inj heq
        rfl

theorem filterMap_sublist_map {α β : Type} {p : α → Option β} {g : α → β} (h : ∀ a b, p a = some b → b = g a) (l : List α) :
    (l.filterMap p).Sublist (l.map g) := by
  induction l with
  | nil => exact .slnil
  | cons a l ih =>
    rw [List.filterMap_cons]
    cases hp : p a with
    | none => exact ih.cons _
    | some b =>
      obtain rfl := h a b hp
      exact ih.cons_cons _

theorem nodup_names : (fields.map (·.1.name)).Nodup := by decide

theorem key_eq_name : ∀ f ∈ fields, f.1.key = f.1.name := by
  simp [fields, withDefault]

/-- The entries of the environment are what it gives, each under the name of its field. -/
theorem said?_variableEntries (environment : List (String × String)) {f : Field × Shape} (hf : f ∈ fields) :
    said? f.1.name (variableEntries environment) = inEnvironment? environment f.1 := by
  have hmem : ∀ name v, (name, v) ∈ variableEntries environment ↔
      ∃ g ∈ fields, g.1.name = name ∧ inEnvironment? environment g.1 = some v := by
    intro name v
    rw [variableEntries_eq, List.mem_filterMap]
    refine exists_congr fun g => and_congr_right fun _ => ?_
    rw [Option.map_eq_some_iff]
    constructor
    · rintro ⟨w, hw, heq⟩
      obtain ⟨rfl, rfl⟩ := Prod.mk.inj heq
      exact ⟨rfl, hw⟩
    · rintro ⟨rfl, hv⟩
      exact ⟨v, hv, rfl⟩
  have hnodup : ((variableEntries environment).reverse.map Prod.fst).Nodup := by
    rw [List.map_reverse, List.nodup_reverse, variableEntries_eq, List.map_filterMap]
    refine nodup_names.sublist (filterMap_sublist_map (fun g name hname => ?_) fields)
    obtain ⟨e, he, rfl⟩ := Option.map_eq_some_iff.1 hname
    obtain ⟨v, -, rfl⟩ := Option.map_eq_some_iff.1 he
    rfl
  refine Option.ext fun v => ?_
  rw [said?, lookup_eq_some_iff_mem hnodup, List.mem_reverse, hmem]
  constructor
  · rintro ⟨g, hg, hname, hv⟩
    obtain rfl := List.inj_on_of_nodup_map nodup_names hg hf hname
    exact hv
  · exact fun hv => ⟨f, hf, rfl, hv⟩

/-! ## Sources -/

/-- What is given for a field by the file, the environment and the overrides: the first of an override that is not null, a
    variable that is not empty, and the entry in the file counts. -/
inductive Given (base : List (Value × Value)) (environment : List (String × String)) (overrides : List (String × Value))
    (f : Field) : Option Value → Prop
  | overridden {v : Value} (said : overrides.lookup f.name = some v) (notNull : v ≠ .null) :
      Given base environment overrides f (some v)
  | fromVariable {text : String} {v : Value} (silent : ∀ v, overrides.lookup f.name = some v → v = .null)
      (said : environment.lookup (variableName f.name) = some text) (notEmpty : text ≠ "") (reads : Reads f text v) :
      Given base environment overrides f (some v)
  | fromFile {v : Value} (silent : ∀ v, overrides.lookup f.name = some v → v = .null)
      (unset : ∀ text, environment.lookup (variableName f.name) = some text → text = "")
      (said : Value.field? f.name base = some v) : Given base environment overrides f (some v)
  | absent (silent : ∀ v, overrides.lookup f.name = some v → v = .null)
      (unset : ∀ text, environment.lookup (variableName f.name) = some text → text = "")
      (missing : Value.field? f.name base = none) : Given base environment overrides f none

section

variable {base : List (Value × Value)} {environment : List (String × String)} {overrides : List (String × Value)}
  {f : Field × Shape} {given : Option Value}

theorem inEnvironment?_eq_none_iff {f : Field} : inEnvironment? environment f = none ↔
    ∀ text, environment.lookup (variableName f.name) = some text → text = "" := by
  rw [inEnvironment?, Option.map_eq_none_iff, Option.filter_eq_none_iff]
  simp

theorem filter_isSaid_eq_none_iff {said : Option Value} : said.filter isSaid = none ↔ ∀ v, said = some v → v = .null := by
  cases said with
  | none => simp
  | some v => cases v <;> simp [isSaid]

/-- What is given for a field is what is laid over the file under its name. -/
theorem given_iff (hdistinct : (overrides.map Prod.fst).Nodup) (hf : f ∈ fields) :
    Given base environment overrides f.1 given ↔ Value.field? f.1.key (laidOver base environment overrides) = given := by
  have hlaid : Value.field? f.1.key (laidOver base environment overrides)
      = ((overrides.lookup f.1.name).filter isSaid).or ((inEnvironment? environment f.1).or (Value.field? f.1.name base)) := by
    rw [key_eq_name f hf, laidOver, field?_assign, field?_assign, said?_saying hdistinct, said?_variableEntries environment hf]
  rw [hlaid]
  constructor
  · intro h
    cases h with
    | @overridden v said notNull =>
      have hsaid : isSaid v = true := by cases v <;> first | rfl | exact absurd rfl notNull
      rw [said, Option.filter_some, if_pos hsaid, Option.some_or]
    | @fromVariable text v silent said notEmpty reads =>
      rw [filter_isSaid_eq_none_iff.2 silent, Option.none_or, inEnvironment?, said, Option.filter_some,
        if_pos (by simpa using notEmpty), reads_iff.1 reads]
      rfl
    | fromFile silent unset said =>
      rw [filter_isSaid_eq_none_iff.2 silent, Option.none_or, inEnvironment?_eq_none_iff.2 unset, Option.none_or, said]
    | absent silent unset missing =>
      rw [filter_isSaid_eq_none_iff.2 silent, Option.none_or, inEnvironment?_eq_none_iff.2 unset, Option.none_or, missing]
  · rintro rfl
    cases hoverride : (overrides.lookup f.1.name).filter isSaid with
    | some v =>
      obtain ⟨hsaid, hisSaid⟩ := Option.filter_eq_some_iff.1 hoverride
      exact .overridden hsaid fun hnull => by
        rw [hnull] at hisSaid
        cases hisSaid
    | none =>
      have silent := filter_isSaid_eq_none_iff.1 hoverride
      rw [Option.none_or]
      cases hvariable : inEnvironment? environment f.1 with
      | some v =>
        obtain ⟨text, htext, hv⟩ := Option.map_eq_some_iff.1 hvariable
        obtain ⟨hsaid, hnotEmpty⟩ := Option.filter_eq_some_iff.1 htext
        exact .fromVariable silent hsaid (by simpa using hnotEmpty) (reads_iff.2 hv.symm)
      | none =>
        have unset := inEnvironment?_eq_none_iff.1 hvariable
        rw [Option.none_or]
        cases hfile : Value.field? f.1.name base with
        | some v => exact .fromFile silent unset hfile
        | none => exact .absent silent unset hfile

end

end Settings

/-! ## Options for rendering -/

namespace RenderOptions

theorem fits_toEntries (o : RenderOptions) : Fits shape (.map o.toEntries) := by
  have htarget : Fits (.optional (.word LinkTarget.names)) (textValue (o.externalLinkTarget.map LinkTarget.name)) := by
    cases o.externalLinkTarget with
    | none => exact .absent
    | some target => exact .present (.word (by cases target <;> simp [LinkTarget.names]))
  have hhosts : Fits (.tuple .shown) (textsValue o.internalHosts) := .tuple fun v hv => by
    obtain ⟨host, -, rfl⟩ := List.mem_map.1 hv
    exact .shown host
  exact .record (.cons (.flag _) (.cons (.flag _) (.cons (.flag _) (.cons htarget (.cons hhosts .nil)))))
    (fun _ he => absurd he List.not_mem_nil) (fun _ _ he => absurd he List.not_mem_nil)

theorem ofEntries_toEntries (o : RenderOptions) : ofEntries o.toEntries = o := by
  obtain ⟨sanitize, allowHtml, generateHeadingIds, target, hosts⟩ := o
  have htarget : (textAt? "external_link_target" (toEntries ⟨sanitize, allowHtml, generateHeadingIds, target, hosts⟩)).bind
      LinkTarget.ofName? = target := by
    obtain _ | _ | _ := target <;> rfl
  have hhosts : textsAt "internal_hosts" (toEntries ⟨sanitize, allowHtml, generateHeadingIds, target, hosts⟩) = hosts := by
    show (hosts.map Value.string).filterMap _ = hosts
    rw [List.filterMap_map]
    exact List.filterMap_some
  rw [ofEntries, htarget, hhosts]
  rfl

/-- Options are made of their own entries. -/
theorem ofValue_toEntries (o : RenderOptions) : ofValue (.map o.toEntries) = .ok o := by
  have hcheck := shape.check_of_fits (isSound_forms shape (by simp)) _ o.fits_toEntries
  rw [ofValue, Shape.accept, hcheck]
  exact congrArg Except.ok o.ofEntries_toEntries

end RenderOptions

namespace Settings

/-- The settings that have a say in rendering. -/
def optionNames : List String :=
  ["sanitize", "allow_html", "generate_heading_ids", "external_link_target", "internal_hosts"]

/-- What the options for rendering are made of. -/
def renderInput (s : Settings) : List (Value × Value) :=
  optionNames.filterMap fun name => (Value.field? name s.toEntries).map fun v => (.string name, v)

theorem renderInput_eq (s : Settings) : s.renderInput = s.options.toEntries := rfl

/-! ## Settings from layers -/

section

variable {file : Option (List Char)} {base : List (Value × Value)} {environment : List (String × String)}
  {overrides : List (String × Value)} {s : Settings}

theorem isSound_shape : shape.IsSound :=
  isSound_forms shape (by simp)

/-- Loaded settings have the entries that checking their fields makes. -/
theorem checkFields_of_load (hbase : baseValue file = .ok (.map base)) (hnames : base.all (·.1.isText) = true)
    (h : load file environment overrides = .ok s) :
    Check.all (checkFields false (.map (laidOver base environment overrides)) (laidOver base environment overrides) fields)
      = .ok s.toEntries := by
  rw [load_of_base hbase hnames, Except.mapError_eq_ok_iff] at h
  obtain ⟨out, hout, rfl⟩ := exists_entries h
  have hgives := gives_checkFields fields isSound_shape.2 false (.map (laidOver base environment overrides))
    (laidOver base environment overrides)
  rw [hout] at hgives
  rw [hout, toEntries_ofEntries hgives]

/-- Settings are loaded exactly if all their fields can be made. -/
theorem exists_load_iff (hbase : baseValue file = .ok (.map base)) (hnames : base.all (·.1.isText) = true) :
    (∃ s, load file environment overrides = .ok s) ↔
      ∀ f ∈ fields, ∃ w, Settles f (Value.field? f.1.key (laidOver base environment overrides)) w := by
  have hmade : (∃ s, load file environment overrides = .ok s) ↔ ∃ out, Check.all (checkFields false
      (.map (laidOver base environment overrides)) (laidOver base environment overrides) fields) = .ok out := by
    constructor
    · rintro ⟨s, hs⟩
      exact ⟨_, checkFields_of_load hbase hnames hs⟩
    · rintro ⟨out, hout⟩
      refine ⟨ofEntries out, ?_⟩
      rw [load_of_base hbase hnames, ofValue, Shape.accept, shape, Shape.check, hout]
      rfl
  rw [hmade, exists_checkFields_iff]
  simp only [fieldValue_eq_ok_iff]

/-- Each field of loaded settings is settled by its source. -/
theorem field?_of_load (hbase : baseValue file = .ok (.map base)) (hnames : base.all (·.1.isText) = true)
    (hdistinct : (overrides.map Prod.fst).Nodup) (h : load file environment overrides = .ok s) {f : Field × Shape}
    (hf : f ∈ fields) {given : Option Value} (hgiven : Given base environment overrides f.1 given) :
    ∃ w, Value.field? f.1.name s.toEntries = some w ∧ Settles f given w := by
  obtain ⟨w, hvalue, hfield⟩ := field?_of_checkFields (checkFields_of_load hbase hnames h) isSound_shape.1 hf
  rw [fieldValue_eq_ok_iff, (given_iff hdistinct hf).1 hgiven] at hvalue
  exact ⟨w, key_eq_name f hf ▸ hfield, hvalue⟩

/-- A field is settled unless its source gives something improper. -/
theorem exists_settles_iff {f : Field × Shape} (hf : f ∈ fields) {given : Option Value} :
    (∃ w, Settles f given w) ↔ ∀ v, given = some v → ∃ w, f.2.check v = .ok w := by
  constructor
  · rintro ⟨w, hw⟩ v rfl
    cases hw with
    | checked proper => exact ⟨w, proper⟩
  · intro h
    cases given with
    | some v => exact (h v rfl).imp fun w => .checked
    | none =>
      have hdefaults : ∀ f ∈ fields, ∃ w, f.1.absent = some w := by simp [fields, withDefault]
      exact (hdefaults f hf).imp fun w => .default

/-- The entries of a value, if it is a mapping from names to texts. -/
def textEntries? : Value → Option (List (String × String))
  | .map entries => entries.mapM fun e => match e with
    | (.string name, .string text) => some (name, text)
    | _ => none
  | _ => none

theorem eq_map_of_textEntries? {v : Value} {named : List (String × String)} (h : textEntries? v = some named) :
    v = .map (named.map fun e => (.string e.1, .string e.2)) := by
  cases v with
  | map entries =>
    rw [textEntries?] at h
    refine congrArg Value.map ?_
    induction entries generalizing named with
    | nil =>
      obtain rfl : [] = named := by simpa using h
      rfl
    | cons e entries ih =>
      obtain ⟨k, v⟩ := e
      cases k with
      | string name =>
        cases v with
        | string text =>
          rw [List.mapM_cons] at h
          obtain ⟨_, hfirst, h⟩ := Option.bind_eq_some_iff.1 h
          obtain ⟨rest, hrest, h⟩ := Option.bind_eq_some_iff.1 h
          obtain rfl := Option.some.inj hfirst
          obtain rfl := Option.some.inj h
          rw [ih hrest]
          rfl
        | _ => simp at h
      | _ => simp at h
  | _ => cases h

/-- A file with a pace that is no number, and a log level that there is none of. -/
def looseFile : String :=
  "app_name: Notes\nwords_per_minute: slow\nsanitize: 'off'\nlog_level: loud\nauthor: me\n"

def looseBase : List (Value × Value) :=
  [(.string "app_name", .string "Notes"), (.string "words_per_minute", .string "slow"), (.string "sanitize", .string "off"),
    (.string "log_level", .string "loud"), (.string "author", .string "me")]

def looseVariables : List (String × String) :=
  [("MDCONTENT_WORDS_PER_MINUTE", "250"), ("MDCONTENT_INTERNAL_HOSTS", " a.com, ,b.com,"), ("MDCONTENT_LOG_LEVEL", "quiet"),
    ("MDCONTENT_APP_NAME", "")]

def looseOverrides : List (String × Value) :=
  [("log_level", .string "DEBUG"), ("app_name", .null)]

theorem baseValue_looseFile : baseValue (some looseFile.toList) = .ok (.map looseBase) := by
  have hentries : (fileValue looseFile.toList).toOption.bind textEntries? = some [("app_name", "Notes"),
      ("words_per_minute", "slow"), ("sanitize", "off"), ("log_level", "loud"), ("author", "me")] := by decide +kernel
  obtain ⟨v, hv, hentries⟩ := Option.bind_eq_some_iff.1 hentries
  obtain rfl := eq_map_of_textEntries? hentries
  exact Except.toOption_eq_some_iff.1 hv

theorem exists_load_looseFile : ∃ s, load (some looseFile.toList) looseVariables looseOverrides = .ok s := by
  have hlaid : laidOver looseBase looseVariables looseOverrides =
      [(.string "app_name", .string "Notes"), (.string "words_per_minute", .string "250"), (.string "sanitize", .string "off"),
        (.string "log_level", .string "DEBUG"), (.string "author", .string "me"),
        (.string "internal_hosts", textsValue ["a.com", "b.com"])] := rfl
  rw [exists_load_iff baseValue_looseFile rfl, hlaid]
  simp only [fields, withDefault, List.forall_mem_cons, List.not_mem_nil, false_implies, implies_true, and_true]
  refine ⟨⟨.string "Notes", .checked ?_⟩, ⟨_, .default rfl⟩, ⟨_, .default rfl⟩, ⟨_, .default rfl⟩,
    ⟨.bool false, .checked ?_⟩, ⟨_, .default rfl⟩, ⟨_, .default rfl⟩, ⟨_, .default rfl⟩,
    ⟨textsValue ["a.com", "b.com"], .checked ?_⟩, ⟨_, .default rfl⟩, ⟨.int 250, .checked ?_⟩, ⟨_, .default rfl⟩,
    ⟨.string "DEBUG", .checked ?_⟩⟩ <;> cbv

end

end Settings

end Folio
