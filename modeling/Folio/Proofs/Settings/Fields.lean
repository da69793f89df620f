import Folio.Proofs.Except
import Folio.Proofs.Value
import Folio.Proofs.Schema.Forms
import Folio.Settings.Layers
import Mathlib.Data.List.Nodup

set_option autoImplicit false

/-! # Settings field by field

A record takes each field from the entry with the key of the field, and from nothing else (`checkFields_agrees`). So
settings that are loaded from one file and one environment agree on every field of which the overrides say the same
(`load_agrees`). -/

namespace Folio

/-! ## Mappings -/

namespace Value

variable {name : String} {v : Value} {entries : List (Value × Value)}

theorem field?_insert_self (name : String) (v : Value) (entries : List (Value × Value)) :
    field? name (insert (.string name) v entries) = some v := by
  induction entries with
  | nil => exact field?_cons_self
  | cons e entries ih =>
    obtain ⟨k, w⟩ := e
    rw [insert]
    split
    · next hsame => rw [field?_cons, if_pos hsame]
    · next hother => rw [field?_cons, if_neg hother, ih]

theorem field?_insert_of_ne {other : String} (h : other ≠ name) (v : Value) (entries : List (Value × Value)) :
    field? name (insert (.string other) v entries) = field? name entries := by
  have hne : Value.string other ≠ .string name := fun heq => h (Value.string.inj heq)
  induction entries with
  | nil => exact field?_cons_of_ne hne
  | cons e entries ih =>
    obtain ⟨k, w⟩ := e
    rw [insert]
    split
    · next hsame =>
      obtain rfl := sameKey_string_iff.1 hsame
      rw [field?_cons_of_ne hne, field?_cons_of_ne hne]
    · rw [field?_cons, field?_cons, ih]

/-- Keys are names exactly if they are with another name among them. -/
theorem all_isText_insert (name : String) (v : Value) (entries : List (Value × Value)) :
    (insert (.string name) v entries).all (·.1.isText) = entries.all (·.1.isText) := by
  induction entries with
  | nil => rfl
  | cons e entries ih =>
    obtain ⟨k, w⟩ := e
    rw [insert]
    split
    · rfl
    · rw [List.all_cons, List.all_cons, ih]

end Value

namespace Settings

/-- What some overrides say about a field: of several the last counts. -/
def said? (name : String) (named : List (String × Value)) : Option Value :=
  named.reverse.lookup name

/-- An override that says something. -/
def isSaid : Value → Bool
  | .null => false
  | _ => true

theorem field?_assign (name : String) (named : List (String × Value)) (entries : List (Value × Value)) :
    Value.field? name (assign entries named) = (said? name named).or (Value.field? name entries) := by
  induction named generalizing entries with
  | nil => rfl
  | cons e named ih =>
    obtain ⟨n, v⟩ := e
    have hassign : assign entries ((n, v) :: named) = assign (Value.insert (.string n) v entries) named := rfl
    rw [hassign, ih, said?, said?, List.reverse_cons, List.lookup_append]
    cases named.reverse.lookup name with
    | some w => rfl
    | none =>
      by_cases hname : n = name
      · rw [hname, Value.field?_insert_self, List.lookup_cons_self]
        rfl
      · rw [Value.field?_insert_of_ne hname, List.lookup_cons, beq_eq_false_iff_ne.2 (Ne.symm hname)]
        rfl

/-- Of overrides with different names the one with the name of a field counts, if it says something. -/
theorem said?_saying {overrides : List (String × Value)} (hnodup : (overrides.map Prod.fst).Nodup) (name : String) :
    said? name (saying overrides) = (overrides.lookup name).filter isSaid := by
  have hsaying : ((saying overrides).reverse.map Prod.fst).Nodup := by
    rw [List.map_reverse, List.nodup_reverse]
    exact hnodup.sublist (List.filter_sublist.map Prod.fst)
  refine Option.ext fun v => ?_
  rw [said?, lookup_eq_some_iff_mem hsaying, List.mem_reverse, saying, List.mem_filter, Option.filter_eq_some_iff,
    lookup_eq_some_iff_mem hnodup]
  rfl

theorem all_isText_assign (named : List (String × Value)) (entries : List (Value × Value)) :
    (assign entries named).all (·.1.isText) = entries.all (·.1.isText) := by
  induction named generalizing entries with
  | nil => rfl
  | cons e named ih =>
    have hassign : assign entries (e :: named) = assign (Value.insert (.string e.1) e.2 entries) named := rfl
    rw [hassign, ih, Value.all_isText_insert]

end Settings

/-! ## Records -/

namespace Schema

/-- The value of a field, from the entry with its key. -/
def fieldValue (input : Value) (entries : List (Value × Value)) (f : Field × Shape) : Check Value :=
  match Value.field? f.1.key entries with
  | some v => Check.under (.key f.1.key) (f.2.check v)
  | none =>
    match f.1.absent with
    | some v => .ok v
    | none => Check.under (.key f.1.key) (Check.fail .missing input)

variable {input input' : Value} {entries entries' out out' : List (Value × Value)} {f : Field × Shape}
  {fields : List (Field × Shape)}

theorem checkFields_cons (input : Value) (entries : List (Value × Value)) (f : Field × Shape) (fields : List (Field × Shape)) :
    checkFields false input entries (f :: fields)
      = (fieldValue input entries f).map (fun v => (Value.string f.1.key, v)) :: checkFields false input entries fields := by
  rw [checkFields, fieldValue, Field.find?]
  cases Value.field? f.1.key entries <;> rfl

/-- What a field is, given what its source gives: the value in the form of the field, or the default. -/
inductive Settles (f : Field × Shape) : Option Value → Value → Prop
  | checked {v w : Value} (proper : f.2.check v = .ok w) : Settles f (some v) w
  | default {w : Value} (absent : f.1.absent = some w) : Settles f none w

theorem Settles.unique {given : Option Value} {w w' : Value} (h : Settles f given w)
    (h' : Settles f given w') : w' = w := by
  cases h with
  | checked proper =>
    cases h' with
    | checked proper' => exact Except.ok.inj (proper'.symm.trans proper)
  | default absent =>
    cases h' with
    | default absent' => exact Option.some.inj (absent'.symm.trans absent)

theorem fieldValue_eq_ok_iff {w : Value} :
    fieldValue input entries f = .ok w ↔ Settles f (Value.field? f.1.key entries) w := by
  rw [fieldValue]
  cases Value.field? f.1.key entries with
  | some v =>
    refine Except.mapError_eq_ok_iff.trans ⟨.checked, fun h => ?_⟩
    cases h with
    | checked proper => exact proper
  | none =>
    cases habsent : f.1.absent with
    | some v =>
      constructor
      · intro h
        exact .default (habsent.trans (congrArg some (Except.ok.inj h)))
      · intro h
        cases h with
        | default absent => exact congrArg Except.ok (Option.some.inj (habsent.symm.trans absent))
    | none =>
      constructor
      · intro h
        cases h
      · intro h
        cases h with
        | default absent => cases habsent.symm.trans absent

theorem fieldValue_agrees (hsame : Value.field? f.1.key entries' = Value.field? f.1.key entries) {v v' : Value}
    (h : fieldValue input entries f = .ok v) (h' : fieldValue input' entries' f = .ok v') : v' = v := by
  rw [fieldValue_eq_ok_iff] at h h'
  exact h.unique (hsame ▸ h')

/-- A record is made if each of its fields has a value. -/
theorem exists_checkFields_iff : (∃ out, Check.all (checkFields false input entries fields) = .ok out) ↔
    ∀ f ∈ fields, ∃ v, fieldValue input entries f = .ok v := by
  induction fields with
  | nil =>
    rw [checkFields]
    exact iff_of_true ⟨[], rfl⟩ (List.forall_mem_nil _)
  | cons f fields ih =>
    rw [checkFields_cons, List.forall_mem_cons, ← ih]
    constructor
    · rintro ⟨_, hout⟩
      obtain ⟨e, rest, hmade, hrest, rfl⟩ := Check.all_cons_eq_ok_iff.1 hout
      obtain ⟨v, hv, rfl⟩ := Except.map_eq_ok_iff.1 hmade
      exact ⟨⟨v, hv⟩, rest, hrest⟩
    · rintro ⟨⟨v, hv⟩, rest, hrest⟩
      exact ⟨_, Check.all_cons_eq_ok_iff.2 ⟨_, rest, by rw [hv]; rfl, hrest, rfl⟩⟩

/-- Each field of a record has its value under its key. -/
theorem field?_of_checkFields (h : Check.all (checkFields false input entries fields) = .ok out)
    (hkeys : (fields.map (·.1.key)).Nodup) (hf : f ∈ fields) :
    ∃ v, fieldValue input entries f = .ok v ∧ Value.field? f.1.key out = some v := by
  induction fields generalizing out with
  | nil => cases hf
  | cons first fields ih =>
    obtain ⟨hnew, hkeys⟩ := List.nodup_cons.1 hkeys
    rw [checkFields_cons] at h
    obtain ⟨e, rest, hmade, hrest, rfl⟩ := Check.all_cons_eq_ok_iff.1 h
    obtain ⟨v, hv, rfl⟩ := Except.map_eq_ok_iff.1 hmade
    rcases List.mem_cons.1 hf with rfl | hf
    · exact ⟨v, hv, Value.field?_cons_self⟩
    · have hne : Value.string first.1.key ≠ .string f.1.key := fun heq =>
        hnew (List.mem_map.2 ⟨f, hf, (Value.string.inj heq).symm⟩)
      rw [Value.field?_cons_of_ne hne]
      exact ih hrest hkeys hf

/-- Two records have the same value in a field that both take from the same entry. -/
theorem checkFields_agrees (h : Check.all (checkFields false input entries fields) = .ok out)
    (h' : Check.all (checkFields false input' entries' fields) = .ok out') (hkeys : (fields.map (·.1.key)).Nodup)
    (hf : f ∈ fields) (hsame : Value.field? f.1.key entries' = Value.field? f.1.key entries) :
    Value.field? f.1.key out' = Value.field? f.1.key out := by
  obtain ⟨v, hv, hout⟩ := field?_of_checkFields h hkeys hf
  obtain ⟨v', hv', hout'⟩ := field?_of_checkFields h' hkeys hf
  rw [hout, hout', fieldValue_agrees hsame hv hv']

/-- A record without defects: each field has the value of its entry, in its proper form, or its default. -/
theorem checkFields_of_proper (hproper : ∀ f ∈ fields, ∀ v, Value.field? f.1.key entries = some v → f.2.check v = .ok v)
    (hdefaults : ∀ f ∈ fields, f.1.absent.isSome = true) : Check.all (checkFields false input entries fields)
      = .ok (fields.map fun f =>
          (Value.string f.1.key, (Value.field? f.1.key entries).getD (f.1.absent.getD .null))) := by
  induction fields with
  | nil => rw [checkFields]; rfl
  | cons f fields ih =>
    obtain ⟨hfirst, hproper⟩ := List.forall_mem_cons.1 hproper
    obtain ⟨hdefault, hdefaults⟩ := List.forall_mem_cons.1 hdefaults
    have hvalue : fieldValue input entries f = .ok ((Value.field? f.1.key entries).getD (f.1.absent.getD .null)) := by
      rw [fieldValue]
      cases hfield : Value.field? f.1.key entries with
      | some v => simp only [hfirst v hfield, Check.under, Except.mapError, Option.getD_some]
      | none =>
        obtain ⟨w, hw⟩ := Option.isSome_iff_exists.1 hdefault
        simp only [hw, Option.getD_none, Option.getD_some]
    rw [checkFields_cons, hvalue]
    exact Check.all_cons_eq_ok_iff.2 ⟨_, _, rfl, ih hproper hdefaults, rfl⟩

/-- A text, or a list of texts, where a shape asks for it. -/
def isTextual : Shape → Value → Bool
  | .shown, .string _ => true
  | .list .shown, .list items => items.all fun v => match v with
    | .string _ => true
    | _ => false
  | _, _ => false

theorem check_of_isTextual {shape : Shape} {v : Value} (h : isTextual shape v = true) : shape.check v = .ok v := by
  unfold isTextual at h
  split at h
  · exact Shape.check_of_fits _ (by simp) _ (.shown _)
  · refine Shape.check_of_fits _ (by simp) _ (.list fun v hv => ?_)
    have hv := List.all_eq_true.1 h v hv
    cases v with
    | string s => exact .shown s
    | _ => cases hv
  · cases h

/-! ## Reading entries -/

section

variable {name : String} {own : List (Value × Value)}

theorem textAt_of_fits (h : ∃ v, Value.field? name own = some v ∧ Fits .shown v) :
    .string ((textAt? name own).getD "") = (Value.field? name own).getD .null := by
  obtain ⟨_, hfound, ⟨⟩⟩ := h
  rw [textAt?, hfound]
  rfl

theorem textAt_of_fits_least {least : Nat} (h : ∃ v, Value.field? name own = some v ∧ Fits (.text (least + 1)) v) :
    .string ((textAt? name own).getD "") = (Value.field? name own).getD .null := by
  obtain ⟨_, hfound, ⟨⟩⟩ := h
  rw [textAt?, hfound]
  rfl

theorem wordAt_of_fits {words : List String} (h : ∃ v, Value.field? name own = some v ∧ Fits (.matching words) v) :
    .string ((textAt? name own).getD "") = (Value.field? name own).getD .null := by
  obtain ⟨_, hfound, ⟨⟩⟩ := h
  rw [textAt?, hfound]
  rfl

theorem flagAt_of_fits (h : ∃ v, Value.field? name own = some v ∧ Fits .flag v) :
    .bool (flagAt name own) = (Value.field? name own).getD .null := by
  obtain ⟨_, hfound, ⟨⟩⟩ := h
  rw [flagAt, hfound]
  rfl

theorem integerAt_of_fits {least most : Option Int} (h : ∃ v, Value.field? name own = some v ∧ Fits (.integer least most) v) :
    .int (integerAt name own) = (Value.field? name own).getD .null := by
  obtain ⟨_, hfound, ⟨⟩⟩ := h
  rw [integerAt, hfound]
  rfl

theorem textsAt_of_fits (h : ∃ v, Value.field? name own = some v ∧ Fits (.list .shown) v) :
    textsValue (textsAt name own) = (Value.field? name own).getD .null := by
  obtain ⟨_, hfound, hfits⟩ := h
  cases hfits with
  | @list _ items each =>
    rw [textsAt, hfound]
    refine congrArg Value.list ?_
    clear hfound
    dsimp only
    induction items with
    | nil => rfl
    | cons v items ih =>
      obtain ⟨hfirst, hitems⟩ := List.forall_mem_cons.1 each
      cases hfirst with
      | shown s => exact congrArg _ (ih hitems)

theorem targetAt_of_fits
    (h : ∃ v, Value.field? name own = some v ∧ Fits (.optional (.matching LinkTarget.names)) v) :
    textValue (((textAt? name own).bind LinkTarget.ofName?).map LinkTarget.name)
      = (Value.field? name own).getD .null := by
  obtain ⟨_, hfound, hfits⟩ := h
  rw [textAt?, hfound]
  cases hfits with
  | absent => rfl
  | present fits =>
    cases fits with
    | matching mem =>
      simp only [LinkTarget.names, List.mem_cons, List.not_mem_nil, or_false] at mem
      obtain rfl | rfl := mem <;> rfl

end

end Schema

/-! ## Settings from layers -/

namespace Settings

open Schema

/-- Settings have the entries that they are made of. -/
theorem toEntries_ofEntries {out : List (Value × Value)} (h : FieldsFit fields out) : (ofEntries out).toEntries = out := by
  have hkeys : (fields.map (·.1.key)).Nodup := by decide
  have hfield : ∀ f ∈ fields, ∃ v, Value.field? f.1.key out = some v ∧ Fits f.2 v := fun f hf => h.field? hkeys hf
  simp only [fields, withDefault, List.forall_mem_cons] at hfield
  obtain ⟨happ, hroot, halias, hdir, hsanitize, hhtml, hids, htarget, hhosts, hformats, hpace, hseparator, hlevel, -⟩ := hfield
  refine Eq.trans ?_ (h.eq_map hkeys).symm
  simp only [toEntries, RenderOptions.toEntries, ofEntries, RenderOptions.ofEntries, fields, withDefault, List.map_cons, List.map_nil,
    List.cons_append, List.nil_append, textAt_of_fits happ, textAt_of_fits hroot, textAt_of_fits halias, textAt_of_fits hdir,
    flagAt_of_fits hsanitize, flagAt_of_fits hhtml, flagAt_of_fits hids, targetAt_of_fits htarget, textsAt_of_fits hhosts,
    textsAt_of_fits hformats, integerAt_of_fits hpace, textAt_of_fits_least hseparator, wordAt_of_fits hlevel]

variable {file : Option (List Char)} {environment : List (String × String)} {overrides overrides' : List (String × Value)}
  {base : List (Value × Value)} {s s' : Settings}

/-- What settings are made of. -/
theorem exists_entries {entries : List (Value × Value)} (h : ofValue (.map entries) = .ok s) :
    ∃ out, Check.all (checkFields false (.map entries) entries fields) = .ok out ∧ s = ofEntries out := by
  obtain ⟨out, haccept, rfl⟩ := Except.map_eq_ok_iff.1 h
  refine ⟨out, ?_, rfl⟩
  rw [Shape.accept, shape, Shape.check] at haccept
  cases hall : Check.all (checkFields false (.map entries) entries fields) with
  | ok made =>
    rw [hall] at haccept
    exact congrArg Except.ok (Except.ok.inj haccept)
  | error issues =>
    rw [hall] at haccept
    cases haccept

/-- Settings of which all values have their proper form. -/
theorem ofValue_of_proper {entries : List (Value × Value)}
    (h : ∀ f ∈ fields, ∀ v, Value.field? f.1.key entries = some v → f.2.check v = .ok v) :
    ofValue (.map entries) = .ok (ofEntries (fields.map fun f =>
      (Value.string f.1.key, (Value.field? f.1.key entries).getD (f.1.absent.getD .null)))) := by
  rw [ofValue, Shape.accept, shape, Shape.check, checkFields_of_proper h (by decide)]
  rfl

/-- The value that variables and overrides are laid over. -/
def baseValue (file : Option (List Char)) : Except LayerError Value :=
  match file with
  | some text => fileValue text
  | none => .ok (.map [])

/-- Entries with variables and overrides laid over them. -/
def laidOver (base : List (Value × Value)) (environment : List (String × String)) (overrides : List (String × Value)) :
    List (Value × Value) :=
  assign (assign base (variableEntries environment)) (saying overrides)

theorem load_eq (file : Option (List Char)) (environment : List (String × String)) (overrides : List (String × Value)) :
    load file environment overrides = (do
      let base ← baseValue file
      let entries ← overlay base (variableEntries environment) overrides
      if !entries.all fun e => e.1.isText then throw .keyNotText
      (ofValue (.map entries)).mapError .refused) := by
  cases file <;> rfl

theorem all_isText_laidOver : (laidOver base environment overrides).all (·.1.isText) = base.all (·.1.isText) := by
  rw [laidOver, all_isText_assign, all_isText_assign]

/-- Over a mapping of names settings are loaded, or their fields are refused. -/
theorem load_of_base (hbase : baseValue file = .ok (.map base)) (hnames : base.all (·.1.isText) = true)
    (environment : List (String × String)) (overrides : List (String × Value)) :
    load file environment overrides = (ofValue (.map (laidOver base environment overrides))).mapError .refused := by
  have hoverlay : overlay (.map base) (variableEntries environment) overrides
      = .ok (laidOver base environment overrides) := rfl
  rw [load_eq, hbase]
  simp only [bind, Except.bind, hoverlay, all_isText_laidOver, hnames, Bool.not_true, Bool.false_eq_true, if_false]

/-- Settings are loaded over a mapping of names only. -/
theorem exists_base (h : load file environment overrides = .ok s) : ∃ base : List (Value × Value),
    baseValue file = .ok (.map base) ∧ base.all (·.1.isText) = true ∧
      ofValue (.map (laidOver base environment overrides)) = .ok s := by
  have hload := h
  rw [load_eq] at hload
  obtain ⟨v, hv, hload⟩ := Except.bind_eq_ok_iff.1 hload
  obtain ⟨entries, hentries, hload⟩ := Except.bind_eq_ok_iff.1 hload
  cases v with
  | map base =>
    obtain rfl : laidOver base environment overrides = entries := Except.ok.inj hentries
    cases hnames : base.all (·.1.isText) with
    | true =>
      rw [load_of_base hv hnames] at h
      exact ⟨base, hv, hnames, Except.mapError_eq_ok_iff.1 h⟩
    | false =>
      simp only [all_isText_laidOver, hnames, Bool.not_false, if_true] at hload
      cases hload
  | _ => cases hentries

/-- **Settings that are loaded from one file and one environment agree on a field of which the overrides say the same.** -/
theorem load_agrees (h : load file environment overrides = .ok s) (h' : load file environment overrides' = .ok s') :
    ∃ out out', s = ofEntries out ∧ s' = ofEntries out' ∧
      ∀ name ∈ fields.map (·.1.key), said? name (saying overrides') = said? name (saying overrides) →
        Value.field? name out' = Value.field? name out := by
  obtain ⟨base, hbase, -, hmade⟩ := exists_base h
  obtain ⟨base', hbase', -, hmade'⟩ := exists_base h'
  obtain rfl := Value.map.inj (Except.ok.inj (hbase.symm.trans hbase'))
  obtain ⟨out, hout, hs⟩ := exists_entries hmade
  obtain ⟨out', hout', hs'⟩ := exists_entries hmade'
  refine ⟨out, out', hs, hs', fun name hname hsame => ?_⟩
  obtain ⟨f, hf, rfl⟩ := List.mem_map.1 hname
  refine checkFields_agrees hout hout' (by decide) hf ?_
  simp only [laidOver, field?_assign, hsame]

/-- What variables and overrides make of the default settings, if all that they say are texts and lists of texts. -/
def made (environment : List (String × String)) (overrides : List (String × Value)) : Settings :=
  ofEntries (fields.map fun f =>
    (Value.string f.1.key, (Value.field? f.1.key (laidOver [] environment overrides)).getD (f.1.absent.getD .null)))

/-- Whether all that variables and overrides say are texts and lists of texts. -/
def areTextual (environment : List (String × String)) (overrides : List (String × Value)) : Bool :=
  fields.all fun f => (Value.field? f.1.key (laidOver [] environment overrides)).all (isTextual f.2)

theorem load_of_textual (h : areTextual environment overrides = true) :
    load none environment overrides = .ok (made environment overrides) := by
  have hproper : ∀ f ∈ fields, ∀ v, Value.field? f.1.key (laidOver [] environment overrides) = some v →
      f.2.check v = .ok v := by
    intro f hf v hv
    have hall := List.all_eq_true.1 h f hf
    rw [hv] at hall
    exact check_of_isTextual hall
  rw [load_of_base rfl rfl, ofValue_of_proper hproper]
  rfl

/-- Where settings are loaded with some overrides, they are loaded or refused with others. -/
theorem load_or_refused (h : load file environment overrides = .ok s) (overrides' : List (String × Value)) :
    (∃ s', load file environment overrides' = .ok s') ∨
      ∃ cause, load file environment overrides' = .error (.refused cause) := by
  obtain ⟨base, hbase, hnames, -⟩ := exists_base h
  rw [load_of_base hbase hnames]
  cases ofValue (.map (laidOver base environment overrides')) with
  | ok s' => exact .inl ⟨s', rfl⟩
  | error cause => exact .inr ⟨cause, rfl⟩

end Settings

end Folio
