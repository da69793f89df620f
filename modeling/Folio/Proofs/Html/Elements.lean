import Folio.Html.Headings
import Folio.Proofs.Html.Normal

set_option autoImplicit false

/-! # The elements of a forest

What holds of every element of a forest, by its name, its attributes and whether it is the first child of a heading
(`EachList`). A page is worked on by changing attributes (`RelabelsList`), which leaves the shape of its forest alone, so
what becomes of single elements tells what holds of all of them, and whether the forest is still normal. -/

namespace Folio.Html

/-! ## Properties of all elements -/

/-- A property of an element: the id of the heading whose first child it is, its name and its attributes. -/
abbrev ElementProperty := Option String → String → List (String × String) → Prop

/-- The id that the first child of an element is the first child of, if the element is a heading. -/
def ownId? (name : String) (attributes : List (String × String)) : Option String :=
  if isHeading name then some (idOf attributes) else none

mutual

/-- A node is text, or an element that has a property, with all elements in it. -/
def Node.Each (p : ElementProperty) (own : Option String) : Node → Prop
  | .element name attributes children =>
    p own name attributes ∧ EachList p (ownId? name attributes) children
  | .text _ _ => True
  | _ => False

/-- A forest of text and of elements that have a property. -/
def EachList (p : ElementProperty) (own : Option String) : Forest → Prop
  | [] => True
  | node :: rest => node.Each p own ∧ EachList p none rest

end

mutual

/-- The elements of a node in document order, by name and attributes. -/
def Node.elements : Node → List (String × List (String × String))
  | .element name attributes children => (name, attributes) :: elementsList children
  | _ => []

/-- The elements of a forest in document order, by name and attributes. -/
def elementsList : Forest → List (String × List (String × String))
  | [] => []
  | node :: rest => node.elements ++ elementsList rest

end

section

variable {p p' : ElementProperty} {own : Option String} {name : String} {attributes : List (String × String)}

mutual

theorem Node.Each.of_mem {own : Option String} : ∀ {node : Node}, node.Each p own → (name, attributes) ∈ node.elements →
    ∃ own, p own name attributes
  | .element _ _ _, ⟨hp, hchildren⟩, hmem => by
    rcases List.mem_cons.1 hmem with heq | hmem
    · obtain ⟨rfl, rfl⟩ := Prod.mk.inj heq
      exact ⟨own, hp⟩
    · exact EachList.of_mem hchildren hmem

/-- What holds of all elements holds of each. -/
theorem EachList.of_mem {own : Option String} : ∀ {f : Forest}, EachList p own f → (name, attributes) ∈ elementsList f →
    ∃ own, p own name attributes
  | _ :: _, ⟨hnode, hrest⟩, hmem =>
    (List.mem_append.1 hmem).elim (fun hmem => hnode.of_mem hmem) fun hmem => EachList.of_mem hrest hmem

end

mutual

theorem Node.Each.imp (hp : ∀ own name attributes, p own name attributes → p' own name attributes)
    {own : Option String} : ∀ {node : Node}, node.Each p own → node.Each p' own
  | .element _ _ _, ⟨hnode, hchildren⟩ => ⟨hp _ _ _ hnode, EachList.imp hp hchildren⟩
  | .text _ _, _ => trivial

/-- What follows for an element follows for all of them. -/
theorem EachList.imp (hp : ∀ own name attributes, p own name attributes → p' own name attributes)
    {own : Option String} : ∀ {f : Forest}, EachList p own f → EachList p' own f
  | [], _ => trivial
  | _ :: _, ⟨hnode, hrest⟩ => ⟨hnode.imp hp, EachList.imp hp hrest⟩

end

/-- What pending text becomes is no element. -/
theorem eachList_pendingText (kept : Bool) (pending : List Char) {f : Forest} (hf : ∀ own, EachList p own f)
    (own : Option String) : EachList p own (pendingText kept pending ++ f) := by
  unfold pendingText
  split
  · exact hf own
  · exact ⟨trivial, hf none⟩

/-- What holds of the elements of all tags holds of the elements of the forest that the tags build. -/
theorem Builds.each {kept : Bool} {pending last : List Char} {events : List Event} {f : Forest}
    (h : Builds kept pending events f last)
    (htags : ∀ name attributes selfClosing, .startTag name attributes selfClosing ∈ events →
      ∀ own, p own name (elementAttributes name attributes)) (own : Option String) :
    EachList p own (f ++ pendingText kept last) := by
  induction h generalizing own with
  | nil =>
    rw [List.nil_append, ← List.append_nil (pendingText _ _)]
    refine eachList_pendingText _ _ (fun _ => ?_) own
    trivial
  | text _ ih => exact ih (fun n a s hmem => htags n a s (List.mem_cons_of_mem _ hmem)) own
  | leaf _ _ ih =>
    have hrest := ih fun n a s hmem => htags n a s (List.mem_cons_of_mem _ hmem)
    rw [List.append_assoc]
    refine eachList_pendingText _ _ (fun own => ?_) own
    exact ⟨⟨htags _ _ _ List.mem_cons_self own, trivial⟩, hrest none⟩
  | element _ _ _ _ ihContent ih =>
    have hrest := ih fun n a s hmem => htags n a s (by simp [hmem])
    have hcontent := ihContent fun n a s hmem => htags n a s (by simp [hmem])
    rw [List.append_assoc]
    refine eachList_pendingText _ _ (fun own => ?_) own
    exact ⟨⟨htags _ _ false (by simp) own, hcontent _⟩, hrest none⟩

end

/-! ## Changing attributes -/

mutual

/-- Two nodes of one shape, whose elements have the same names and attributes that are related. -/
def Node.Relabels (r : String → List (String × String) → List (String × String) → Prop) : Node → Node → Prop
  | .element name attributes children, node' =>
    ∃ attributes' children', node' = .element name attributes' children' ∧ r name attributes attributes' ∧
      RelabelsList r children children'
  | node, node' => node' = node

/-- Two forests of one shape, whose elements have the same names and attributes that are related. -/
def RelabelsList (r : String → List (String × String) → List (String × String) → Prop) : Forest → Forest → Prop
  | [], f' => f' = []
  | node :: rest, f' => ∃ node' rest', f' = node' :: rest' ∧ node.Relabels r node' ∧ RelabelsList r rest rest'

end

section

variable {r : String → List (String × String) → List (String × String) → Prop}

theorem Node.Relabels.isText_eq {node node' : Node} (h : node.Relabels r node') : node'.isText = node.isText := by
  cases node with
  | element name attributes children =>
    obtain ⟨attributes', children', rfl, -⟩ := h
    rfl
  | text content plain => rw [show node' = .text content plain from h]
  | comment content => rw [show node' = .comment content from h]
  | doctype content => rw [show node' = .doctype content from h]
  | characterData content => rw [show node' = .characterData content from h]
  | declaration content => rw [show node' = .declaration content from h]
  | instruction content => rw [show node' = .instruction content from h]

theorem RelabelsList.head {f f' : Forest} (h : RelabelsList r f f') {node' : Node} (hmem : node' ∈ f'.head?) :
    ∃ node ∈ f.head?, node'.isText = node.isText := by
  cases f with
  | nil =>
    obtain rfl : f' = [] := h
    cases hmem
  | cons node rest =>
    obtain ⟨_, _, rfl, hnode, -⟩ := h
    obtain rfl := Option.some.inj hmem
    exact ⟨node, rfl, hnode.isText_eq⟩

section

variable {r' : String → List (String × String) → List (String × String) → Prop}

mutual

theorem Node.Relabels.imp (hr : ∀ name attributes attributes', r name attributes attributes' →
    r' name attributes attributes') : ∀ {node node' : Node}, node.Relabels r node' → node.Relabels r' node'
  | .element _ _ _, _, ⟨_, _, rfl, hlabel, hchildren⟩ => ⟨_, _, rfl, hr _ _ _ hlabel, hchildren.imp hr⟩
  | .text _ _, _, h => h
  | .comment _, _, h => h
  | .doctype _, _, h => h
  | .characterData _, _, h => h
  | .declaration _, _, h => h
  | .instruction _, _, h => h

theorem RelabelsList.imp (hr : ∀ name attributes attributes', r name attributes attributes' →
    r' name attributes attributes') : ∀ {f f' : Forest}, RelabelsList r f f' → RelabelsList r' f f'
  | [], _, h => h
  | _ :: _, _, ⟨_, _, rfl, hnode, hrest⟩ => ⟨_, _, rfl, hnode.imp hr, hrest.imp hr⟩

end

end

mutual

theorem Node.Relabels.isNormal (hr : ∀ name attributes attributes', IsTag name attributes →
    r name attributes attributes' → IsTag name attributes') {kept : Bool} :
    ∀ {node node' : Node}, node.Relabels r node' → node.IsNormal kept → node'.IsNormal kept
  | .element _ _ _, _, ⟨_, _, rfl, hlabel, hchildren⟩, ⟨htag, hempty, hnormal⟩ => by
    refine ⟨hr _ _ _ htag hlabel, fun hvoid => ?_, RelabelsList.isNormal hr hchildren hnormal⟩
    obtain rfl := hempty hvoid
    exact hchildren
  | .text _ _, _, rfl, h => h

/-- A forest stays normal if its elements keep tags that are held as they are written. -/
theorem RelabelsList.isNormal (hr : ∀ name attributes attributes', IsTag name attributes →
    r name attributes attributes' → IsTag name attributes') {kept : Bool} :
    ∀ {f f' : Forest}, RelabelsList r f f' → IsNormalList kept f → IsNormalList kept f'
  | [], _, rfl, h => h
  | _ :: _, _, ⟨_, _, rfl, hnode, hrest⟩, ⟨hnormal, hnext, hnormals⟩ => by
    refine ⟨hnode.isNormal hr hnormal, fun htext next' hmem => ?_, RelabelsList.isNormal hr hrest hnormals⟩
    obtain ⟨next, hnextMem, heq⟩ := hrest.head hmem
    rw [heq]
    exact hnext (hnode.isText_eq ▸ htext) next hnextMem

end

section

variable {p p' : ElementProperty} {s : Option String → Option String → Prop}

mutual

theorem Node.Relabels.each (hnone : s none none)
    (hr : ∀ own own' name attributes attributes', s own own' → p own name attributes →
      r name attributes attributes' →
      p' own' name attributes' ∧ s (ownId? name attributes) (ownId? name attributes')) {own own' : Option String}
    (hown : s own own') : ∀ {node node' : Node}, node.Relabels r node' → node.Each p own → node'.Each p' own'
  | .element _ _ _, _, ⟨_, _, rfl, hlabel, hchildren⟩, ⟨hp, heach⟩ =>
    have hlabels := hr _ _ _ _ _ hown hp hlabel
    ⟨hlabels.1, RelabelsList.each hnone hr hlabels.2 hchildren heach⟩
  | .text _ _, _, rfl, _ => trivial

/-- What holds of elements and what becomes of them tell what holds of them then. The ids that headings tell their
    first children may change in the way of `s`. -/
theorem RelabelsList.each (hnone : s none none)
    (hr : ∀ own own' name attributes attributes', s own own' → p own name attributes →
      r name attributes attributes' →
      p' own' name attributes' ∧ s (ownId? name attributes) (ownId? name attributes')) {own own' : Option String}
    (hown : s own own') : ∀ {f f' : Forest}, RelabelsList r f f' → EachList p own f → EachList p' own' f'
  | [], _, rfl, _ => trivial
  | _ :: _, _, ⟨_, _, rfl, hnode, hrest⟩, ⟨heach, heachRest⟩ =>
    ⟨hnode.each hnone hr hown heach, RelabelsList.each hnone hr hnone hrest heachRest⟩

end

end

end

end Folio.Html
