import Folio.Proofs.Except
import Folio.Proofs.Value
import Folio.Schema.Content
import Mathlib.Data.List.Nodup

set_option autoImplicit false

/-! # Proper forms

Checking a value against a shape gives the value in the proper form of the shape (`Fits`), or at least one issue
(`Shape.gives_check`). What has its proper form is left as it is (`Shape.check_of_fits`), so a second check changes nothing
(`Shape.check_check`). This takes a shape that is sound: its defaults have their proper form, and no two fields of a record
have one key. -/

namespace Folio.Schema

/-! ## What checks give -/

namespace Check

variable {α β : Type} {c : Check α} {cs : List (Check α)} {P : α → Prop}

/-- A check gives what has a property, or at least one issue. -/
def Gives (c : Check α) (P : α → Prop) : Prop :=
  c.Meets P (· ≠ [])

@[simp] theorem gives_ok {a : α} : Gives (.ok a) P ↔ P a := .rfl

@[simp] theorem gives_fail (defect : Defect) (input : Value) : (fail defect input : Check α).Gives P :=
  List.cons_ne_nil _ _

@[simp] theorem gives_map_fail {Q : β → Prop} (f : α → β) (defect : Defect) (input : Value) :
    Gives (f <$> fail defect input) Q :=
  List.cons_ne_nil _ _

theorem Gives.mono {Q : α → Prop} (h : c.Gives P) (hmono : ∀ a, P a → Q a) : c.Gives Q :=
  Except.Meets.mono h hmono fun _ => id

theorem Gives.bind {Q : β → Prop} {f : α → Check β} (h : c.Gives P) (hf : ∀ a, P a → (f a).Gives Q) :
    Gives (c >>= f) Q :=
  Except.meets_bind.2 (h.mono hf)

theorem Gives.map {Q : β → Prop} {f : α → β} (h : c.Gives P) (hf : ∀ a, P a → Q (f a)) : Gives (c.map f) Q :=
  Except.meets_map.2 (h.mono hf)

theorem Gives.under (h : c.Gives P) (step : Step) : (under step c).Gives P :=
  Except.meets_mapError.2 (Except.Meets.mono h (fun _ => id) fun _ => mt List.map_eq_nil_iff.1)

theorem gives_all_cons {Q R : List α → Prop} (hc : c.Gives P) (hcs : (all cs).Gives Q)
    (h : ∀ a as, P a → Q as → R (a :: as)) : (all (c :: cs)).Gives R := by
  cases c with
  | ok a =>
    rw [all]
    exact hcs.map fun as => h a as hc
  | error issues =>
    rw [all]
    cases all cs with
    | ok _ => exact hc
    | error more => exact List.append_ne_nil_of_left_ne_nil hc more

theorem gives_all_pair {c' : Check α} {P' : α → Prop} (h : c.Gives P) (h' : c'.Gives P') :
    (all [c, c']).Gives fun as => ∃ a a', as = [a, a'] ∧ P a ∧ P' a' := by
  have hlast : (all [c']).Gives fun as => ∃ a, as = [a] ∧ P' a :=
    gives_all_cons h' (gives_ok.2 rfl : Gives (all []) (· = [])) fun a as ha has => ⟨a, has ▸ rfl, ha⟩
  exact gives_all_cons h hlast fun a _ ha ⟨a', has, ha'⟩ => ⟨a, a', has ▸ rfl, ha, ha'⟩

theorem gives_all (h : ∀ c ∈ cs, c.Gives P) : (all cs).Gives fun as => ∀ a ∈ as, P a := by
  induction cs with
  | nil => exact fun a ha => absurd ha List.not_mem_nil
  | cons c cs ih =>
    obtain ⟨hc, hcs⟩ := List.forall_mem_cons.1 h
    exact gives_all_cons hc (ih hcs) fun a as ha has => List.forall_mem_cons.2 ⟨ha, has⟩

theorem all_cons_eq_ok_iff {vs : List α} :
    all (c :: cs) = .ok vs ↔ ∃ v rest, c = .ok v ∧ all cs = .ok rest ∧ vs = v :: rest := by
  cases c with
  | error issues =>
    rw [all]
    cases all cs <;> simp
  | ok v =>
    rw [all]
    cases all cs with
    | error issues => simp [Except.map]
    | ok rest => simp [Except.map, eq_comm]

end Check

open Check

/-! ## Simple values -/

section

variable {input : Value}

theorem gives_textOf {defect : Defect} {c : Check String} (h : textOf input defect = some c) : c.Gives fun _ => True := by
  cases input with
  | string s =>
    obtain rfl := Option.some.inj h
    simp
  | bytes bs =>
    rw [textOf] at h
    cases hdecode : Text.decodeUtf8 bs <;> rw [hdecode] at h <;> obtain rfl := Option.some.inj h <;> simp
  | unwritable what =>
    cases what with
    | cycle => cases h
    | text t =>
      obtain rfl := Option.some.inj h
      simp
  | _ => cases h

theorem gives_checkText (input : Value) : (checkText input).Gives fun _ => True := by
  rw [checkText]
  cases htext : textOf input .undecodable with
  | some c => exact gives_textOf htext
  | none => exact gives_fail _ _

theorem gives_checkFlag (input : Value) : (checkFlag input).Gives fun _ => True := by
  unfold checkFlag
  dsimp only
  split
  · simp
  · split <;> simp
  · split
    · split <;> simp
    · simp
  · split
    · next htext =>
      refine (gives_textOf htext).bind fun s _ => ?_
      split <;> simp
    · simp

theorem gives_checkInteger (input : Value) : (checkInteger input).Gives fun _ => True := by
  unfold checkInteger
  split
  · simp
  · simp
  · split
    · split
      · split <;> simp
      · simp
    · simp
  · split
    · next htext =>
      refine (gives_textOf htext).bind fun s _ => ?_
      split
      · simp
      · split <;> simp
    · simp

/-- An integer is in a range that may be open. -/
def IsWithin (least most : Option Int) (n : Int) : Prop :=
  (∀ k ∈ least, k ≤ n) ∧ ∀ k ∈ most, n ≤ k

theorem gives_checkRange (least most : Option Int) (input : Value) (n : Int) :
    (checkRange least most input n).Gives (IsWithin least most) := by
  have hleast : (checkRange.checkLeast least input n).Gives fun k => k = n ∧ ∀ k ∈ least, k ≤ n := by
    cases least with
    | none => simp [checkRange.checkLeast]
    | some k => by_cases h : n < k <;> simp [checkRange.checkLeast, h]; omega
  cases most with
  | none => exact hleast.mono fun k hk => ⟨hk.1 ▸ hk.2, by simp⟩
  | some m =>
    rw [checkRange]
    split
    · simp
    · next h => exact hleast.mono fun k hk => ⟨hk.1 ▸ hk.2, by simpa [hk.1] using h⟩

theorem checkRange_of_isWithin {least most : Option Int} {n : Int} (h : IsWithin least most n) (input : Value) :
    checkRange least most input n = .ok n := by
  obtain ⟨hleast, hmost⟩ := h
  have hlow : checkRange.checkLeast least input n = .ok n := by
    cases least with
    | none => rfl
    | some k => exact if_neg (Int.not_lt.2 (hleast k rfl))
  cases most with
  | none => exact hlow
  | some m => exact (if_neg (Int.not_lt.2 (hmost m rfl))).trans hlow

theorem gives_checkMoment (input : Value) : (checkMoment input).Gives fun _ => True := by
  unfold checkMoment
  dsimp only
  split
  · simp
  · simp
  · split <;> simp
  · split
    · split
      · split <;> simp
      · simp
    · simp
  · split
    · next htext =>
      refine (gives_textOf htext).bind fun s _ => ?_
      cases readMoment s.toList <;> simp
    · simp

end

/-! ## Mappings from names -/

/-- All keys of a mapping are texts. -/
def HasNames (entries : List (Value × Value)) : Prop :=
  ∀ e ∈ entries, e.1.isText = true

/-- All keys of a mapping are texts without halves. -/
def HasWholeNames (entries : List (Value × Value)) : Prop :=
  ∀ e ∈ entries, ∃ name, e.1 = .string name

theorem isText_iff {v : Value} : v.isText = true ↔ (∃ s, v = .string s) ∨ v.isBroken = true := by
  cases v <;> simp [Value.isText, Value.isBroken]

theorem exists_of_isBroken {v : Value} (h : v.isBroken = true) : ∃ t, v = .unwritable (.text t) := by
  unfold Value.isBroken at h
  split at h
  · exact ⟨_, rfl⟩
  · cases h

theorem HasWholeNames.hasNames {entries : List (Value × Value)} (h : HasWholeNames entries) : HasNames entries :=
  fun e he => isText_iff.2 (.inl (h e he))

theorem gives_checkKeys (defect : Defect) (entries : List (Value × Value)) :
    (checkKeys defect entries).Gives fun out => out = entries ∧ HasNames entries := by
  induction entries with
  | nil => exact gives_ok.2 ⟨rfl, fun e he => absurd he List.not_mem_nil⟩
  | cons e entries ih =>
    obtain ⟨k, v⟩ := e
    refine gives_all_cons (P := fun out => out = (k, v) ∧ k.isText = true) ?_ ih ?_
    · dsimp only
      split
      · next htext => exact gives_ok.2 ⟨rfl, htext⟩
      · refine Gives.under ?_ _
        split
        · exact (gives_fail defect k).under _
        · exact gives_fail defect k
    · rintro _ _ ⟨rfl, hname⟩ ⟨rfl, hnames⟩
      exact ⟨rfl, List.forall_mem_cons.2 ⟨hname, hnames⟩⟩

theorem checkKeys_of_hasNames {entries : List (Value × Value)} (h : HasNames entries) (defect : Defect) :
    checkKeys defect entries = .ok entries := by
  induction entries with
  | nil => rfl
  | cons e entries ih =>
    obtain ⟨hname, hnames⟩ := List.forall_mem_cons.1 h
    exact all_cons_eq_ok_iff.2 ⟨_, _, if_pos hname, ih hnames, rfl⟩

theorem HasNames.whole {entries : List (Value × Value)} (h : HasNames entries)
    (hnone : ∀ e ∈ entries, ¬e.1.isBroken = true) : HasWholeNames entries :=
  fun e he => (isText_iff.1 (h e he)).resolve_right (hnone e he)

/-! ## Proper forms -/

mutual

/-- A value has the proper form of a shape. -/
inductive Fits : Shape → Value → Prop
  | text {least : Nat} {s : String} (long : least ≤ s.length) : Fits (.text least) (.string s)
  | broken {t : Text.Broken} : Fits (.text 0) (.unwritable (.text t))
  | shown (s : String) : Fits .shown (.string s)
  | matching {words : List String} {s : String} (mem : s ∈ words) : Fits (.matching words) (.string s)
  | word {words : List String} {s : String} (mem : s ∈ words) : Fits (.word words) (.string s)
  | flag (b : Bool) : Fits .flag (.bool b)
  | integer {least most : Option Int} {n : Int} (within : IsWithin least most n) : Fits (.integer least most) (.int n)
  | moment (m : DateTime) : Fits .moment (.dateTime m)
  | mapping {entries : List (Value × Value)} (names : HasNames entries) : Fits .mapping (.map entries)
  | absent {shape : Shape} : Fits (.optional shape) .null
  | present {shape : Shape} {v : Value} (fits : Fits shape v) : Fits (.optional shape) v
  | list {shape : Shape} {items : List Value} (each : ∀ v ∈ items, Fits shape v) : Fits (.list shape) (.list items)
  | tuple {shape : Shape} {items : List Value} (each : ∀ v ∈ items, Fits shape v) : Fits (.tuple shape) (.list items)
  /-- A record has its fields in order, and after them the keys that name none, if it keeps them. -/
  | record {name : String} {fields : List (Field × Shape)} {others : OtherKeys} {byName : Bool}
      {own rest : List (Value × Value)} (own_fit : FieldsFit fields own) (names : HasWholeNames rest)
      (unknown : ∀ s v, (Value.string s, v) ∈ rest → others = .keep ∧ namesField byName fields s = false) :
      Fits (.record name fields others byName) (.map (own ++ rest))

/-- Entries have the keys of some fields, in order, and values of their shapes. -/
inductive FieldsFit : List (Field × Shape) → List (Value × Value) → Prop
  | nil : FieldsFit [] []
  | cons {f : Field} {shape : Shape} {fields : List (Field × Shape)} {v : Value} {own : List (Value × Value)}
      (fits : Fits shape v) (rest : FieldsFit fields own) :
      FieldsFit ((f, shape) :: fields) ((.string f.key, v) :: own)

end

mutual

/-- The defaults in a shape have their proper form, and no two fields of a record in it have one key. -/
def Shape.IsSound : Shape → Prop
  | .optional shape | .list shape | .tuple shape => shape.IsSound
  | .record _ fields _ _ => (fields.map (·.1.key)).Nodup ∧ FieldsSound fields
  | _ => True

/-- The shapes of some fields are sound, and their defaults have their proper form. -/
def FieldsSound : List (Field × Shape) → Prop
  | [] => True
  | (f, shape) :: fields => (∀ v ∈ f.absent, Fits shape v) ∧ shape.IsSound ∧ FieldsSound fields

end

attribute [simp] Shape.IsSound

@[simp] theorem fieldsSound_nil : FieldsSound [] := trivial

theorem fieldsSound_cons {field : Field × Shape} {fields : List (Field × Shape)} : FieldsSound (field :: fields) ↔
    (∀ v ∈ field.1.absent, Fits field.2 v) ∧ field.2.IsSound ∧ FieldsSound fields := Iff.rfl

theorem gives_checkItems {shape : Shape} (h : ∀ input, (shape.check input).Gives (Fits shape)) (items : List Value) (n : Nat) :
    (all (checkItems shape n items)).Gives fun out => ∀ v ∈ out, Fits shape v := by
  refine gives_all ?_
  induction items generalizing n with
  | nil => simp [checkItems]
  | cons v items ih =>
    rw [checkItems]
    exact List.forall_mem_cons.2 ⟨(h v).under _, ih (n + 1)⟩

namespace Shape

variable {input : Value}

theorem check_shown (input : Value) : shown.check input =
    match input with
    | .unwritable (.text t) => .ok (.string (String.ofList (Text.skeleton t.points)))
    | _ => (checkText input).map .string :=
  (check.eq_def _ input).trans (by cases input <;> rfl)

theorem check_word (words : List String) (input : Value) : (word words).check input =
    match input with
    | .string s => if words.contains s then .ok input else fail (.notOneOf words) input
    | .unwritable (.text _) => fail .undecodable input
    | _ => fail (.notOneOf words) input :=
  (check.eq_def _ input).trans (by cases input <;> rfl)

theorem check_mapping (input : Value) : mapping.check input =
    match input with
    | .map entries => (checkKeys .notText entries).map .map
    | _ => fail .notAMapping input :=
  (check.eq_def _ input).trans (by cases input <;> rfl)

theorem check_optional (shape : Shape) (input : Value) : (optional shape).check input =
    match input with
    | .null => .ok .null
    | _ => shape.check input :=
  (check.eq_def _ input).trans (by cases input <;> rfl)

/-- The entries of a record that name no field. -/
def others (byName : Bool) (fields : List (Field × Shape)) (entries : List (Value × Value)) : List (Value × Value) :=
  entries.filter fun (k, _) =>
    match k with
    | .string s => !namesField byName fields s
    | _ => true

theorem namesField_of_mem_others {byName : Bool} {fields : List (Field × Shape)} {entries : List (Value × Value)}
    {s : String} {v : Value} (h : (Value.string s, v) ∈ others byName fields entries) :
    namesField byName fields s = false := by
  simpa using (List.mem_filter.1 h).2

theorem check_record (name : String) (fields : List (Field × Shape)) (others : OtherKeys) (byName : Bool)
    (entries : List (Value × Value)) : (record name fields others byName).check (.map entries) =
      match others with
      | .drop => (all (checkFields byName (.map entries) entries fields)).map .map
      | .keep =>
        match entries.find? fun (k, _) => k.isBroken with
        | some (k, _) => fail .undecodable k
        | none =>
          (all [all (checkFields byName (.map entries) entries fields),
            checkKeys .notAKey (Shape.others byName fields entries)]).map fun parts => .map parts.flatten := by
  rw [check.eq_def]
  cases others <;> rfl

theorem check_record_of_not_map {name : String} {fields : List (Field × Shape)} {others : OtherKeys} {byName : Bool}
    (h : ∀ entries, input ≠ .map entries) :
    (record name fields others byName).check input = fail (.notARecord name) input := by
  rw [check.eq_def]
  cases input with
  | map entries => exact absurd rfl (h entries)
  | _ => rfl

end Shape

mutual

/-- **Checking a value gives it in its proper form, or at least one issue.** -/
theorem Shape.gives_check : ∀ (shape : Shape), shape.IsSound → ∀ input, (shape.check input).Gives (Fits shape)
  | .text least, _, input => by
    rw [Shape.check]
    split
    · next h =>
      obtain ⟨rfl, hbroken⟩ := h
      obtain ⟨t, rfl⟩ := exists_of_isBroken hbroken
      exact .broken
    · refine (gives_checkText input).bind fun s _ => ?_
      split
      · simp
      · next h => exact .text (Nat.not_lt.1 h)
  | .shown, _, input => by
    rw [Shape.check_shown]
    split
    · exact .shown _
    · exact (gives_checkText input).map fun s _ => .shown s
  | .matching words, _, input => by
    rw [Shape.check]
    refine (gives_checkText input).bind fun s _ => ?_
    split
    · simp
    · next h => exact .matching (by simpa using h)
  | .word words, _, input => by
    rw [Shape.check_word]
    split
    · split
      · next h => exact .word (by simpa using h)
      · simp
    · simp
    · simp
  | .flag, _, input => by
    rw [Shape.check]
    exact (gives_checkFlag input).map fun b _ => .flag b
  | .integer least most, _, input => by
    rw [Shape.check]
    exact (gives_checkInteger input).bind fun n _ => (gives_checkRange least most input n).bind fun k hk => .integer hk
  | .moment, _, input => by
    rw [Shape.check]
    exact (gives_checkMoment input).map fun m _ => .moment m
  | .mapping, _, input => by
    rw [Shape.check_mapping]
    split
    · exact (gives_checkKeys _ _).map fun out h => h.1 ▸ .mapping h.2
    · simp
  | .optional shape, hsound, input => by
    rw [Shape.check_optional]
    split
    · exact .absent
    · exact (shape.gives_check hsound _).mono fun v => .present
  | .list shape, hsound, input => by
    rw [Shape.check]
    split
    · exact (gives_checkItems (shape.gives_check hsound) _ _).map fun out => .list
    · simp
  | .tuple shape, hsound, input => by
    rw [Shape.check]
    split
    · exact (gives_checkItems (shape.gives_check hsound) _ _).map fun out => .tuple
    · simp
  | .record name fields others byName, hsound, input => by
    by_cases hmap : ∃ entries, input = .map entries
    · obtain ⟨entries, rfl⟩ := hmap
      have hown := gives_checkFields fields hsound.2 byName (.map entries) entries
      rw [Shape.check_record]
      cases others with
      | drop =>
        exact hown.map fun own h => List.append_nil own ▸ @Fits.record name fields .drop byName own [] h nofun nofun
      | keep =>
        dsimp only
        split
        · exact gives_fail _ _
        · next hnone =>
          refine (gives_all_pair hown (gives_checkKeys _ _)).map ?_
          rintro _ ⟨own, _, rfl, hfit, rfl, hnames⟩
          rw [List.flatten_cons, List.flatten_singleton]
          have hwhole := hnames.whole fun e he => List.find?_eq_none.1 hnone e (List.mem_filter.1 he).1
          exact .record hfit hwhole fun s v hmem => ⟨rfl, Shape.namesField_of_mem_others hmem⟩
    · rw [Shape.check_record_of_not_map fun entries h => hmap ⟨entries, h⟩]
      simp

theorem gives_checkFields : ∀ (fields : List (Field × Shape)), FieldsSound fields →
    ∀ byName input entries, (all (checkFields byName input entries fields)).Gives (FieldsFit fields)
  | [], _, byName, input, entries => by
    rw [checkFields]
    exact .nil
  | (f, shape) :: fields, ⟨hdefault, hshape, hfields⟩, byName, input, entries => by
    have hmade : Gives (match f.find? byName entries with
        | some (key, v) => Check.under (.key key) (shape.check v)
        | none =>
          match f.absent with
          | some v => .ok v
          | none => Check.under (.key f.key) (Check.fail .missing input)) (Fits shape) := by
      split
      · exact (shape.gives_check hshape _).under _
      · split
        · next v habsent => exact gives_ok.2 (hdefault v habsent)
        · exact (gives_fail _ _).under _
    rw [checkFields]
    have hentry := hmade.map (Q := fun e : Value × Value => ∃ v, e = (.string f.key, v) ∧ Fits shape v) fun v hv => ⟨v, rfl, hv⟩
    refine gives_all_cons hentry (gives_checkFields fields hfields byName input entries) ?_
    rintro _ own ⟨v, rfl, hv⟩ hown
    exact .cons hv hown

end

/-! ## Values in proper form -/

theorem checkItems_of_fits {shape : Shape} {items : List Value} (h : ∀ v ∈ items, shape.check v = .ok v) (n : Nat) :
    all (checkItems shape n items) = .ok items := by
  induction items generalizing n with
  | nil => rw [checkItems]; rfl
  | cons v items ih =>
    obtain ⟨hv, hitems⟩ := List.forall_mem_cons.1 h
    rw [checkItems, hv]
    exact all_cons_eq_ok_iff.2 ⟨_, _, rfl, ih hitems _, rfl⟩

section

variable {fields : List (Field × Shape)} {own rest : List (Value × Value)}

theorem FieldsFit.map_fst (h : FieldsFit fields own) : own.map Prod.fst = fields.map fun f => Value.string f.1.key := by
  induction fields generalizing own with
  | nil =>
    cases h
    rfl
  | cons f fields ih =>
    cases h with
    | cons hv hown => rw [List.map_cons, List.map_cons, ih hown]

theorem FieldsFit.nodup (h : FieldsFit fields own) (hkeys : (fields.map (·.1.key)).Nodup) : (own.map Prod.fst).Nodup := by
  have hmap : (fields.map fun f => Value.string f.1.key) = (fields.map (·.1.key)).map Value.string := by
    rw [List.map_map]
    rfl
  rw [h.map_fst, hmap]
  exact hkeys.map fun s t => Value.string.inj

theorem FieldsFit.namesField (h : FieldsFit fields own) (byName : Bool) {e : Value × Value} (he : e ∈ own) :
    ∃ s, e.1 = .string s ∧ namesField byName fields s = true := by
  have hkey : e.1 ∈ fields.map fun f => Value.string f.1.key := h.map_fst ▸ List.mem_map_of_mem he
  obtain ⟨f, hf, hkey⟩ := List.mem_map.1 hkey
  refine ⟨f.1.key, hkey.symm, List.any_eq_true.2 ⟨f, hf, ?_⟩⟩
  simp

theorem FieldsFit.field? (h : FieldsFit fields own) (hkeys : (fields.map (·.1.key)).Nodup) {f : Field × Shape}
    (hf : f ∈ fields) : ∃ v, Value.field? f.1.key own = some v ∧ Fits f.2 v := by
  induction fields generalizing own with
  | nil => cases hf
  | cons first fields ih =>
    cases h with
    | @cons _ _ _ v own fits rest =>
      obtain ⟨hnew, hkeys⟩ := List.nodup_cons.1 hkeys
      rcases List.mem_cons.1 hf with rfl | hf
      · exact ⟨v, Value.field?_cons_self, fits⟩
      · refine (ih rest hkeys hf).imp fun w hw => ⟨?_, hw.2⟩
        rw [Value.field?_cons_of_ne fun heq => hnew (List.mem_map.2 ⟨f, hf, (Value.string.inj heq).symm⟩), hw.1]

/-- A record in proper form is given by the values of its fields. -/
theorem FieldsFit.eq_map (h : FieldsFit fields own) (hkeys : (fields.map (·.1.key)).Nodup) :
    own = fields.map fun f => (Value.string f.1.key, (Value.field? f.1.key own).getD .null) := by
  have hentry : ∀ e ∈ own, (e.1, (Value.lookUp e.1 own).getD .null) = e := by
    rintro ⟨k, v⟩ he
    obtain ⟨name, rfl, -⟩ := h.namesField false he
    have hfound := Value.field?_append_of_mem (h.nodup hkeys) he []
    rw [List.append_nil] at hfound
    exact Prod.ext rfl (congrArg (Option.getD · Value.null) hfound)
  calc own = own.map fun e => (e.1, (Value.lookUp e.1 own).getD .null) :=
        ((List.map_congr_left hentry).trans (List.map_id _)).symm
    _ = (own.map Prod.fst).map fun k => (k, (Value.lookUp k own).getD .null) := by
      rw [List.map_map]
      rfl
    _ = (fields.map fun f => Value.string f.1.key).map fun k => (k, (Value.lookUp k own).getD .null) := by rw [h.map_fst]
    _ = fields.map fun f => (Value.string f.1.key, (Value.field? f.1.key own).getD .null) := by
      rw [List.map_map]
      rfl

/-- A record in proper form keeps the entries that name no field. -/
theorem others_of_fits {byName : Bool} (h : FieldsFit fields own) (hnames : HasWholeNames rest)
    (hunknown : ∀ s v, (Value.string s, v) ∈ rest → namesField byName fields s = false) :
    Shape.others byName fields (own ++ rest) = rest := by
  have hown : Shape.others byName fields own = [] := by
    refine List.filter_eq_nil_iff.2 fun e he => ?_
    obtain ⟨s, hs, hnamed⟩ := h.namesField byName he
    simp [hs, hnamed]
  have hrest : Shape.others byName fields rest = rest := by
    refine List.filter_eq_self.2 fun e he => ?_
    obtain ⟨s, hs⟩ := hnames e he
    obtain ⟨k, v⟩ := e
    obtain rfl : k = .string s := hs
    simp [hunknown s v he]
  rw [Shape.others, List.filter_append]
  exact congrArg₂ (· ++ ·) hown hrest

/-- No key of a record in proper form has halves. -/
theorem find?_isBroken_of_fits (h : FieldsFit fields own) (hnames : HasWholeNames rest) :
    ((own ++ rest).find? fun e => e.1.isBroken) = none := by
  refine List.find?_eq_none.2 fun e he => ?_
  have hname : ∃ s, e.1 = .string s := by
    rcases List.mem_append.1 he with he | he
    · obtain ⟨s, hs, -⟩ := h.namesField false he
      exact ⟨s, hs⟩
    · exact hnames e he
  obtain ⟨s, hs⟩ := hname
  rw [hs]
  exact Bool.false_ne_true

end

mutual

/-- **What has the proper form of a sound shape is left as it is.** -/
theorem Shape.check_of_fits : ∀ (shape : Shape), shape.IsSound → ∀ v, Fits shape v → shape.check v = .ok v
  | .text least, _, _, .text long => by
    rw [Shape.check, if_neg (by simp [Value.isBroken])]
    exact if_neg (Nat.not_lt.2 long)
  | .text _, _, _, .broken => by
    rw [Shape.check]
    exact if_pos ⟨rfl, rfl⟩
  | .shown, _, _, .shown s => Shape.check_shown (.string s)
  | .matching words, _, _, .matching mem => by
    rw [Shape.check]
    exact if_neg (by simpa using mem)
  | .word words, _, _, .word mem => by
    rw [Shape.check_word]
    exact if_pos (List.contains_iff_mem.2 mem)
  | .flag, _, _, .flag b => by
    rw [Shape.check]
    rfl
  | .integer least most, _, _, .integer within => by
    rw [Shape.check]
    show (fun n => Value.int n) <$> checkRange least most _ _ = _
    rw [checkRange_of_isWithin within]
    rfl
  | .moment, _, _, .moment m => by
    rw [Shape.check]
    rfl
  | .mapping, _, _, .mapping names => by
    rw [Shape.check_mapping]
    simp only [checkKeys_of_hasNames names]
    rfl
  | .optional shape, _, _, .absent => Shape.check_optional shape .null
  | .optional shape, hsound, v, .present fits => by
    have hshape := shape.check_of_fits hsound v fits
    rw [Shape.check_optional]
    cases v with
    | null => rfl
    | _ => exact hshape
  | .list shape, hsound, _, .list each => by
    have hitems := checkItems_of_fits (fun v hv => shape.check_of_fits hsound v (each v hv)) 0
    rw [Shape.check]
    simp only [itemsOf?, hitems]
    rfl
  | .tuple shape, hsound, _, .tuple each => by
    have hitems := checkItems_of_fits (fun v hv => shape.check_of_fits hsound v (each v hv)) 0
    rw [Shape.check]
    simp only [itemsOf?, hitems]
    rfl
  | .record name fields others byName, ⟨hkeys, hfields⟩, _, @Fits.record _ _ _ _ own rest hfit names unknown => by
    have hown := checkFields_of_fits fields hfields own hfit byName (.map (own ++ rest)) (own ++ rest) fun name v hmem =>
      Value.field?_append_of_mem (hfit.nodup hkeys) hmem rest
    have hunknown : ∀ s v, (Value.string s, v) ∈ rest → namesField byName fields s = false := fun s v hmem =>
      (unknown s v hmem).2
    rw [Shape.check_record]
    cases others with
    | drop =>
      obtain rfl : rest = [] := List.eq_nil_iff_forall_not_mem.2 fun e he => by
        obtain ⟨k, v⟩ := e
        obtain ⟨s, rfl⟩ := names _ he
        cases (unknown s v he).1
      rw [List.append_nil] at hown ⊢
      simp only [hown]
      rfl
    | keep =>
      simp only [hown, find?_isBroken_of_fits hfit names, others_of_fits hfit names hunknown,
        checkKeys_of_hasNames names.hasNames]
      simp [all, Except.map]

theorem checkFields_of_fits : ∀ (fields : List (Field × Shape)), FieldsSound fields → ∀ own, FieldsFit fields own →
    ∀ byName input entries, (∀ name v, (Value.string name, v) ∈ own → Value.field? name entries = some v) →
      all (checkFields byName input entries fields) = .ok own
  | [], _, _, .nil, byName, input, entries, _ => by
    rw [checkFields]
    rfl
  | (f, shape) :: fields, ⟨_, hshape, hfields⟩, _, @FieldsFit.cons _ _ _ v own fits rest, byName, input, entries, hfound => by
    have hfind : f.find? byName entries = some (f.key, v) := by
      rw [Field.find?, hfound f.key v List.mem_cons_self]
    have hrest := checkFields_of_fits fields hfields own rest byName input entries fun name v hmem =>
      hfound name v (List.mem_cons_of_mem _ hmem)
    rw [checkFields, hfind]
    simp only [shape.check_of_fits hshape v fits]
    exact all_cons_eq_ok_iff.2 ⟨_, _, rfl, hrest, rfl⟩

end

/-- What a check gives has the proper form. -/
theorem Shape.fits_of_check {shape : Shape} (hsound : shape.IsSound) {input v : Value} (h : shape.check input = .ok v) :
    Fits shape v := by
  have hgives := shape.gives_check hsound input
  rw [h] at hgives
  exact hgives

/-- Checking again changes nothing. -/
theorem Shape.check_check {shape : Shape} (hsound : shape.IsSound) {input v : Value} (h : shape.check input = .ok v) :
    shape.check v = .ok v :=
  shape.check_of_fits hsound v (fits_of_check hsound h)

end Folio.Schema
