import Folio.Proofs.Yaml.Scalars
import Folio.Yaml.Load

set_option autoImplicit false

/-! # Nodes that are not what their tags say

What is wrong with a text is told in most reports. The reports that do not tell it have their cause at a node of
the text: a scalar, or a collection that stands for one, that is not what its tag says (`Misread`). Every other
step of making values fails with an explanation (`load_meets`). -/

namespace Folio.Yaml

/-! ## The text of a node -/

/-- The text of a node: that of a scalar, or of the default value of a mapping. -/
inductive HasText : Node → List Text.Point → Prop
  | scalar (tag : List Char) (text : List Text.Point) (mark : Mark) : HasText (.scalar tag text mark) text
  | default {tag : List Char} {text : List Text.Point} {entries : List (Node × Node)} {mark : Mark} {value : Node}
      (isDefault : Load.defaultOf? entries = some value) (hasText : HasText value text) :
      HasText (.mapping tag entries mark) text

/-- The default value of a node leads back to a collection around it, of which these marks are known. -/
inductive LeadsBack : List Mark → Node → Prop
  | here {outer : List Mark} {mark : Mark} (known : mark ∈ outer) : LeadsBack outer (.enclosing mark)
  | default {outer : List Mark} {tag : List Char} {entries : List (Node × Node)} {mark : Mark} {value : Node}
      (isDefault : Load.defaultOf? entries = some value) (leads : LeadsBack (mark :: outer) value) :
      LeadsBack outer (.mapping tag entries mark)

theorem textOf_meets (outer : List Mark) (fuel : Nat) (node : Node) :
    (Load.textOf outer fuel node).Meets (HasText node) fun e =>
      e.isExplained = true ∨ e = .endless ∧ LeadsBack outer node := by
  induction fuel generalizing outer node with
  | zero =>
    cases node with
    | scalar tag text mark => exact .scalar tag text mark
    | sequence tag items mark => exact .inl rfl
    | mapping tag entries mark => exact .inl rfl
    | enclosing mark =>
      rw [Load.textOf]
      split
      next h => exact .inr ⟨rfl, .here (List.contains_iff_mem.1 h)⟩
      next => exact .inl rfl
  | succ fuel ih =>
    cases node with
    | scalar tag text mark => exact .scalar tag text mark
    | sequence tag items mark => exact .inl rfl
    | mapping tag entries mark =>
      rw [Load.textOf]
      split
      next value h =>
        exact (ih (mark :: outer) value).mono (fun _ => .default h) fun e he =>
          he.imp_right fun he => ⟨he.1, .default h he.2⟩
      next => exact .inl rfl
    | enclosing mark =>
      rw [Load.textOf]
      split
      next h => exact .inr ⟨rfl, .here (List.contains_iff_mem.1 h)⟩
      next => exact .inl rfl

/-! ## Scalars -/

/-- The tags of the language that say what a text is. -/
def textTags : List (List Char) :=
  ["null", "bool", "int", "float", "binary", "timestamp", "str"].map tagNamed

/-- Why a node is not what its tag says, if the report does not tell it. -/
inductive Misread (node : Node) : LoadError → Prop
  /-- A word that is no truth value. -/
  | truth {text : List Text.Point} (tagged : Load.tagOf node = tagNamed "bool") (hasText : HasText node text)
      (unknown : String.ofList (Text.skeleton (Text.lowerPoints text)) ∉ truths) :
      Misread node (.scalar (.notATruthValue (Text.lowerPoints text)))
  /-- A timestamp in no known form, but for a line feed after it. -/
  | moment {text : List Text.Point} (tagged : Load.tagOf node = tagNamed "timestamp") (hasText : HasText node text)
      (unread : Timestamp.ofText? (unbroken (Text.skeleton text)) = none) :
      Misread node (.scalar .notATimestamp)
  /-- A mapping that stands for a timestamp. -/
  | momentOfMapping {tag : List Char} {text : List Text.Point} {entries : List (Node × Node)} {mark : Mark}
      (isMapping : node = .mapping tag entries mark) (tagged : tag = tagNamed "timestamp")
      (hasText : HasText node text) : Misread node (.scalar .timestampInCollection)
  /-- An integer without a digit. -/
  | integer {text : List Text.Point} (tagged : Load.tagOf node = tagNamed "int") (hasText : HasText node text)
      (lacks : LacksDigits text) : Misread node (.scalar .noNumber)
  /-- A number of low lines only, or of nothing. -/
  | float {text : List Text.Point} (tagged : Load.tagOf node = tagNamed "float") (hasText : HasText node text)
      (lacks : (Text.lowerPoints text).filter (· != .char '_') = []) : Misread node (.scalar .noNumber)
  /-- A number in base 60 of more than 174 parts. -/
  | sexagesimal {text : List Text.Point} (tagged : Load.tagOf node = tagNamed "float") (hasText : HasText node text)
      (parts : 174 ≤ (Text.lowerPoints text).count (.char ':')) : Misread node (.scalar .unitTooLarge)
  /-- A collection whose default value leads back to it. -/
  | endless (tagged : Load.tagOf node ∈ textTags) (leads : LeadsBack [] node) : Misread node .endless

theorem Misread.isExplained {node : Node} {e : LoadError} (h : Misread node e) : e.isExplained = false := by
  cases h <;> rfl

theorem isExplained_fault {fault : Fault} (h : ∀ number, fault.problem ≠ .noCharacter number) :
    (LoadError.fault fault).isExplained = true := by
  obtain ⟨context, problem, mark⟩ := fault
  cases problem with
  | noCharacter number => exact absurd rfl (h number)
  | _ => rfl

theorem bytesOf_meets (text : List Text.Point) : (bytesOf text).Meets (fun _ => True) fun problem =>
    ∀ number, problem ≠ .noCharacter number := by
  unfold bytesOf
  split
  next => exact fun number => by simp
  next =>
    simp only [Except.meets_map, Except.meets_mapError]
    cases Text.decodeBase64 (Text.skeleton text) with
    | ok bytes => exact trivial
    | error e => exact fun number => by simp

theorem tagOf_of_tagName {node : Node} {name : String} (h : Load.tagName (Load.tagOf node) = some name) :
    Load.tagOf node = tagNamed name := by
  obtain ⟨rest, hrest, hname⟩ := Option.map_eq_some_iff.1 h
  rw [Text.dropPrefix?_eq_some hrest, tagNamed, ← hname, String.toList_ofList]

/-- The value of a node is made, unless the node is refused with an explanation or is not what its tag
    says. -/
theorem simple_meets (node : Node) : (Load.simple node).Meets (fun _ => True) fun e =>
    e.isExplained = true ∨ Misread node e := by
  have htext {name : String} (htag : Load.tagName (Load.tagOf node) = some name)
      (hname : tagNamed name ∈ textTags) : (Load.textOf [] node.depth node).Meets (HasText node) fun e =>
        e.isExplained = true ∨ Misread node e :=
    (textOf_meets [] node.depth node).mono (fun _ => id) fun e he => by
      rcases he with he | ⟨rfl, hleads⟩
      · exact .inl he
      · exact .inr (.endless (tagOf_of_tagName htag ▸ hname) hleads)
  unfold Load.simple
  dsimp only
  split
  next htag =>
    simp only [Except.meets_bind, Except.meets_pure]
    exact (htext htag (by simp [textTags])).mono (fun _ _ => trivial) fun _ => id
  next htag =>
    simp only [Except.meets_bind, Except.meets_map, Except.meets_mapError]
    refine (htext htag (by simp [textTags])).mono (fun text hhas => ?_) fun _ => id
    refine (truthOf_meets text).mono (fun _ => id) fun e he => ?_
    rcases he with ⟨rfl, hunknown⟩
    exact .inr (.truth (tagOf_of_tagName htag) hhas hunknown)
  next htag =>
    simp only [Except.meets_bind, Except.meets_map, Except.meets_mapError]
    refine (htext htag (by simp [textTags])).mono (fun text hhas => ?_) fun _ => id
    refine (integerOf_meets text).mono (fun _ => id) fun e he => ?_
    rcases he with ⟨cause, rfl⟩ | ⟨rfl, hlacks⟩
    · exact .inl rfl
    · exact .inr (.integer (tagOf_of_tagName htag) hhas hlacks)
  next htag =>
    simp only [Except.meets_bind, Except.meets_map, Except.meets_mapError]
    refine (htext htag (by simp [textTags])).mono (fun text hhas => ?_) fun _ => id
    refine (floatOf_meets text).mono (fun _ => id) fun e he => ?_
    rcases he with ⟨cs, rfl⟩ | ⟨rfl, hlacks⟩ | ⟨rfl, hparts⟩
    · exact .inl rfl
    · exact .inr (.float (tagOf_of_tagName htag) hhas hlacks)
    · exact .inr (.sexagesimal (tagOf_of_tagName htag) hhas hparts)
  next htag =>
    rw [Except.meets_bind]
    refine (htext htag (by simp [textTags])).mono (fun text _ => ?_) fun _ => id
    have hbytes := bytesOf_meets text
    cases hresult : bytesOf text with
    | ok v => exact trivial
    | error problem =>
      rw [hresult] at hbytes
      exact .inl (isExplained_fault hbytes)
  next htag =>
    rw [Except.meets_bind]
    refine (htext htag (by simp [textTags])).mono (fun text hhas => ?_) fun _ => id
    have htagged := tagOf_of_tagName htag
    split
    next => exact .inr (.momentOfMapping rfl htagged hhas)
    next =>
      simp only [Except.meets_map, Except.meets_mapError]
      refine (timestampOf_meets text).mono (fun _ => id) fun e he => ?_
      rcases he with ⟨cause, rfl⟩ | ⟨minutes, rfl⟩ | ⟨rfl, hunread⟩
      · exact .inl rfl
      · exact .inl rfl
      · exact .inr (.moment htagged hhas hunread)
  next htag =>
    simp only [Except.meets_bind, Except.meets_pure]
    exact (htext htag (by simp [textTags])).mono (fun _ _ => trivial) fun _ => id
  iterate 5 next => exact trivial
  next => exact .inl rfl

end Folio.Yaml
