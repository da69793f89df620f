import Folio.Html.Printer
import Folio.Proofs.Html.Builds

set_option autoImplicit false

/-! # Forests of elements and text

The forests that well-nested events build are *normal*: their names are plain, no attribute is there twice, empty
elements are empty, and no text stands next to another (`Builds.isNormal`). A normal forest is what its own events
build, apart from the order of attributes, in which it is written (`builds_events`). -/

namespace Folio.Html

/-! ## Words -/

theorem splitWords_cons (c : Char) (cs : List Char) : splitWords (c :: cs) =
    if Text.isBlank c then splitWords cs
    else match cs, splitWords cs with
      | d :: _, word :: words => if Text.isBlank d then [c] :: word :: words else (c :: word) :: words
      | _, words => [c] :: words :=
  rfl

/-- A word: some characters, none of them blank. -/
def IsWord (word : List Char) : Prop :=
  word ≠ [] ∧ ∀ c ∈ word, Text.isBlank c = false

theorem isWord_of_mem_splitWords (cs : List Char) : ∀ word ∈ splitWords cs, IsWord word := by
  induction cs with
  | nil => exact fun _ h => nomatch h
  | cons c cs ih =>
    rw [splitWords_cons]
    split
    · exact ih
    · next hblank =>
      have hsingle : IsWord [c] := ⟨by simp, by simpa using hblank⟩
      split
      · next heq =>
        rw [heq] at ih
        obtain ⟨hword, hwords⟩ := List.forall_mem_cons.1 ih
        split
        · exact List.forall_mem_cons.2 ⟨hsingle, ih⟩
        · refine List.forall_mem_cons.2 ⟨⟨by simp, ?_⟩, hwords⟩
          exact List.forall_mem_cons.2 ⟨by simpa using hblank, hword.2⟩
      · exact List.forall_mem_cons.2 ⟨hsingle, ih⟩

theorem splitWords_append_space {word : List Char} (h : IsWord word) (rest : List Char) :
    splitWords (word ++ ' ' :: rest) = word :: splitWords rest := by
  obtain ⟨hne, hblanks⟩ := h
  induction word with
  | nil => exact absurd rfl hne
  | cons c word ih =>
    obtain ⟨hc, hword⟩ := List.forall_mem_cons.1 hblanks
    rw [List.cons_append, splitWords_cons, if_neg (by simp [hc])]
    cases word with
    | nil =>
      have hskip : splitWords (' ' :: rest) = splitWords rest := by
        rw [splitWords_cons, if_pos (by decide)]
      rw [List.nil_append, hskip]
      cases splitWords rest with
      | nil => rfl
      | cons next words => simp [show Text.isBlank ' ' = true by decide]
    | cons d word =>
      rw [ih (by simp) hword]
      simp [hword d]

theorem splitWords_of_isWord {word : List Char} (h : IsWord word) : splitWords word = [word] := by
  obtain ⟨hne, hblanks⟩ := h
  induction word with
  | nil => exact absurd rfl hne
  | cons c word ih =>
    obtain ⟨hc, hword⟩ := List.forall_mem_cons.1 hblanks
    rw [splitWords_cons, if_neg (by simp [hc])]
    cases word with
    | nil => rfl
    | cons d word =>
      rw [ih (by simp) hword]
      simp [hword d]

theorem splitWords_intercalate {words : List (List Char)} (h : ∀ word ∈ words, IsWord word) :
    splitWords ([' '].intercalate words) = words := by
  induction words with
  | nil => rfl
  | cons word words ih =>
    obtain ⟨hword, hwords⟩ := List.forall_mem_cons.1 h
    cases words with
    | nil => rw [List.intercalate_singleton, splitWords_of_isWord hword]
    | cons next words =>
      rw [List.intercalate_cons_cons, List.append_assoc, List.singleton_append, splitWords_append_space hword,
        ih hwords]

/-- A value that an element holds is held as it is. -/
theorem attributeValue_attributeValue (element name value : String) :
    attributeValue element name (attributeValue element name value) = attributeValue element name value := by
  unfold attributeValue
  split
  · have hwords : (((splitWords value.toList).map String.ofList).map String.toList) = splitWords value.toList := by
      simp [Function.comp_def]
    rw [String.toList_intercalate, hwords, show " ".toList = [' '] from rfl,
      splitWords_intercalate (isWord_of_mem_splitWords _)]
  · rfl

/-! ## Attributes -/

theorem map_fst_setAttribute (name value : String) (attributes : List (String × String)) :
    (setAttribute name value attributes).map Prod.fst
      = if name ∈ attributes.map Prod.fst then attributes.map Prod.fst else attributes.map Prod.fst ++ [name] := by
  induction attributes with
  | nil => rfl
  | cons first rest ih =>
    obtain ⟨n, v⟩ := first
    rw [setAttribute]
    split
    · next heq => simp [heq]
    · next hne =>
      rw [List.map_cons, ih, List.map_cons]
      simp only [List.mem_cons, Ne.symm hne, false_or]
      split <;> rfl

/-- No attribute is there twice. -/
def AreDistinct (attributes : List (String × String)) : Prop :=
  (attributes.map Prod.fst).Nodup

theorem AreDistinct.setAttribute {attributes : List (String × String)} (h : AreDistinct attributes)
    (name value : String) : AreDistinct (setAttribute name value attributes) := by
  unfold AreDistinct
  rw [map_fst_setAttribute]
  split
  · exact h
  · next hnot =>
    refine List.nodup_append.2 ⟨h, by simp, ?_⟩
    rintro a ha b hb rfl
    exact hnot (List.mem_singleton.1 hb ▸ ha)

theorem mem_of_mem_setAttribute {name value : String} {attributes : List (String × String)} {a : String × String}
    (h : a ∈ setAttribute name value attributes) : a = (name, value) ∨ a ∈ attributes := by
  induction attributes with
  | nil => exact .inl (List.mem_singleton.1 h)
  | cons first rest ih =>
    obtain ⟨n, v⟩ := first
    rw [setAttribute] at h
    split at h
    · rcases List.mem_cons.1 h with heq | hrest
      · exact .inl heq
      · exact .inr (List.mem_cons_of_mem _ hrest)
    · rcases List.mem_cons.1 h with rfl | hrest
      · exact .inr List.mem_cons_self
      · exact (ih hrest).imp_right (List.mem_cons_of_mem _)

theorem setAttribute_of_not_mem {name value : String} {attributes : List (String × String)}
    (h : name ∉ attributes.map Prod.fst) : setAttribute name value attributes = attributes ++ [(name, value)] := by
  induction attributes with
  | nil => rfl
  | cons first rest ih =>
    obtain ⟨hne, hrest⟩ := not_or.1 (mt List.mem_cons.2 h)
    rw [setAttribute, if_neg (Ne.symm hne), ih hrest, List.cons_append]

theorem foldl_setAttribute {attributes : List (String × String)} (merged : List (String × String))
    (h : AreDistinct (merged ++ attributes)) :
    attributes.foldl (fun merged (name, value) => setAttribute name value merged) merged = merged ++ attributes := by
  induction attributes generalizing merged with
  | nil => simp
  | cons first rest ih =>
    obtain ⟨name, value⟩ := first
    have hnot : name ∉ merged.map Prod.fst := by
      intro hmem
      rw [AreDistinct, List.map_append] at h
      exact (List.nodup_append.1 h).2.2 _ hmem _ List.mem_cons_self rfl
    have hrest := ih (merged ++ [(name, value)]) (by rwa [List.append_assoc])
    rw [List.append_assoc] at hrest
    rw [List.foldl_cons]
    simp only [setAttribute_of_not_mem hnot]
    exact hrest

theorem AreDistinct.mergeAttributes_eq {attributes : List (String × String)} (h : AreDistinct attributes) :
    mergeAttributes attributes = attributes :=
  foldl_setAttribute [] h

theorem areDistinct_mergeAttributes (attributes : List (String × String)) :
    AreDistinct (mergeAttributes attributes) := by
  unfold mergeAttributes
  suffices h : ∀ merged, AreDistinct merged →
      AreDistinct (attributes.foldl (fun merged (name, value) => setAttribute name value merged) merged) from
    h [] (by simp [AreDistinct])
  induction attributes with
  | nil => exact fun merged h => h
  | cons first rest ih => exact fun merged h => ih _ (h.setAttribute _ _)

theorem mem_of_mem_mergeAttributes {attributes : List (String × String)} {a : String × String}
    (h : a ∈ mergeAttributes attributes) : a ∈ attributes := by
  unfold mergeAttributes at h
  suffices hfold : ∀ merged,
      a ∈ attributes.foldl (fun merged (name, value) => setAttribute name value merged) merged →
      a ∈ merged ∨ a ∈ attributes from (hfold [] h).resolve_left (by simp)
  clear h
  induction attributes with
  | nil => exact fun merged h => .inl h
  | cons first rest ih =>
    intro merged h
    rcases ih _ h with hmem | hmem
    · exact (mem_of_mem_setAttribute hmem).elim (fun heq => .inr (heq ▸ List.mem_cons_self)) .inl
    · exact .inr (List.mem_cons_of_mem _ hmem)

/-! ## Tags -/

/-- Characters of a plain name. -/
def isMarkupNameChar (c : Char) : Bool :=
  ('a' ≤ c && c ≤ 'z') || Text.isAsciiDigit c || c == '-'

/-- A plain name of an element or an attribute: a small letter, then small letters, digits and hyphens. -/
def isMarkupName (s : String) : Bool :=
  match s.toList with
  | [] => false
  | c :: cs => ('a' ≤ c && c ≤ 'z') && cs.all isMarkupNameChar

/-- A tag that is held as it is written, of an element whose text is plain. -/
structure IsTag (name : String) (attributes : List (String × String)) : Prop where
  named : isMarkupName name = true
  plain : hidesText name = false
  notMeta : name ≠ "meta"
  names : ∀ a ∈ attributes, isMarkupName a.1 = true
  distinct : AreDistinct attributes
  values : ∀ a ∈ attributes, attributeValue name a.1 a.2 = a.2

section

variable {name : String} {attributes : List (String × String)}

theorem elementAttributes_of_ne_meta (h : name ≠ "meta") : elementAttributes name attributes
    = (mergeAttributes attributes).map fun (n, v) => (n, attributeValue name n v) := by
  rw [elementAttributes, declareEncoding, if_pos h]

theorem IsTag.elementAttributes_eq (h : IsTag name attributes) : elementAttributes name attributes = attributes := by
  rw [elementAttributes_of_ne_meta h.notMeta, h.distinct.mergeAttributes_eq]
  refine (List.map_congr_left fun a ha => ?_).trans (List.map_id _)
  exact congrArg (Prod.mk a.1) (h.values a ha)

theorem isTag_elementAttributes (hname : isMarkupName name = true) (plain : hidesText name = false)
    (notMeta : name ≠ "meta") (hnames : ∀ a ∈ attributes, isMarkupName a.1 = true) :
    IsTag name (elementAttributes name attributes) := by
  rw [elementAttributes_of_ne_meta notMeta]
  refine ⟨hname, plain, notMeta, fun a ha => ?_, ?_, fun a ha => ?_⟩
  · obtain ⟨b, hb, rfl⟩ := List.mem_map.1 ha
    exact hnames b (mem_of_mem_mergeAttributes hb)
  · rw [AreDistinct, List.map_map]
    exact areDistinct_mergeAttributes attributes
  · obtain ⟨b, -, rfl⟩ := List.mem_map.1 ha
    exact attributeValue_attributeValue name b.1 b.2

/-- An attribute is set. -/
theorem IsTag.setAttribute (h : IsTag name attributes) {n v : String} (hn : isMarkupName n = true)
    (hv : attributeValue name n v = v) : IsTag name (setAttribute n v attributes) := by
  refine ⟨h.named, h.plain, h.notMeta, fun a ha => ?_, h.distinct.setAttribute n v, fun a ha => ?_⟩
  · rcases mem_of_mem_setAttribute ha with rfl | hmem
    · exact hn
    · exact h.names a hmem
  · rcases mem_of_mem_setAttribute ha with rfl | hmem
    · exact hv
    · exact h.values a hmem

/-- Attributes in the order in which they are written. -/
def arrangeAttributes (attributes : List (String × String)) : List (String × String) :=
  attributes.mergeSort fun a b => decide (a.1 ≤ b.1)

theorem mem_arrangeAttributes {a : String × String} : a ∈ arrangeAttributes attributes ↔ a ∈ attributes :=
  List.mem_mergeSort

theorem IsTag.arrange (h : IsTag name attributes) : IsTag name (arrangeAttributes attributes) :=
  ⟨h.named, h.plain, h.notMeta, fun a ha => h.names a (mem_arrangeAttributes.1 ha),
    ((List.mergeSort_perm attributes _).map Prod.fst).nodup_iff.2 h.distinct,
    fun a ha => h.values a (mem_arrangeAttributes.1 ha)⟩

end

/-! ## Normal forests -/

/-- Whether a node is text. -/
def Node.isText : Node → Bool
  | .text _ _ => true
  | _ => false

mutual

/-- An element or a text that reads back. -/
def Node.IsNormal (kept : Bool) : Node → Prop
  | .element name attributes children =>
    IsTag name attributes ∧ (isVoidElement name = true → children = []) ∧
      IsNormalList (keepsBlanks name || kept) children
  | .text content plain => plain = true ∧ content.toList ≠ [] ∧ collapsed kept content.toList = content.toList
  | _ => False

/-- Elements and texts that read back, no text next to another. -/
def IsNormalList (kept : Bool) : Forest → Prop
  | [] => True
  | node :: rest =>
    node.IsNormal kept ∧ (node.isText = true → ∀ next ∈ rest.head?, next.isText = false) ∧ IsNormalList kept rest

end

mutual

/-- A node with the attributes of its elements in the order in which they are written. -/
def Node.arrange : Node → Node
  | .element name attributes children => .element name (arrangeAttributes attributes) (arrangeList children)
  | node => node

/-- A forest with the attributes of its elements in the order in which they are written. -/
def arrangeList : Forest → Forest
  | [] => []
  | node :: rest => node.arrange :: arrangeList rest

end

/-- What pending text becomes stands before anything that is not text. -/
theorem isNormalList_pendingText {kept : Bool} (pending : List Char) {f : Forest} (hf : IsNormalList kept f)
    (hhead : ∀ node ∈ f.head?, node.isText = false) : IsNormalList kept (pendingText kept pending ++ f) := by
  unfold pendingText
  split
  · exact hf
  · next hne =>
    refine ⟨⟨rfl, ?_, ?_⟩, fun _ => hhead, hf⟩
    · rw [String.toList_ofList]
      exact collapsed_ne_nil (by simpa using hne)
    · rw [String.toList_ofList, collapsed_collapsed]

/-- What well-nested events add is normal, with the text that is pending after them. -/
theorem Builds.isNormal {kept : Bool} {pending last : List Char} {events : List Event} {f : Forest}
    (h : Builds kept pending events f last)
    (htags : ∀ name attributes selfClosing, .startTag name attributes selfClosing ∈ events →
      IsTag name (elementAttributes name attributes)) : IsNormalList kept (f ++ pendingText kept last) := by
  induction h with
  | nil =>
    rw [List.nil_append, ← List.append_nil (pendingText _ _)]
    exact isNormalList_pendingText _ trivial (by simp)
  | text _ ih => exact ih fun n a s hmem => htags n a s (List.mem_cons_of_mem _ hmem)
  | leaf _ _ ih =>
    have hrest := ih fun n a s hmem => htags n a s (List.mem_cons_of_mem _ hmem)
    rw [List.append_assoc]
    refine isNormalList_pendingText _ ⟨⟨htags _ _ _ List.mem_cons_self, fun _ => rfl, trivial⟩, nofun, hrest⟩ ?_
    simp [Node.isText]
  | element nonempty _ _ _ ihContent ih =>
    have hrest := ih fun n a s hmem => htags n a s (by simp [hmem])
    have hcontent := ihContent fun n a s hmem => htags n a s (by simp [hmem])
    rw [List.append_assoc]
    refine isNormalList_pendingText _ ⟨⟨htags _ _ false (by simp), fun hvoid => ?_, hcontent⟩, nofun, hrest⟩ ?_
    · simp [nonempty] at hvoid
    · simp [Node.isText]

/-! ## The events of a forest -/

mutual

/-- The events of a node, in the order in which it is written. -/
def Node.events : Node → List Event
  | .element name attributes children =>
    if isVoidElement name then [.startTag name (arrangeAttributes attributes) true]
    else .startTag name (arrangeAttributes attributes) false :: eventsList children ++ [.endTag name]
  | .text content _ => [.text content.toList]
  | _ => []

/-- The events of a list of nodes. -/
def eventsList : Forest → List Event
  | [] => []
  | node :: rest => node.events ++ eventsList rest

end

/-- A normal forest is what its events add, with its last text still pending. -/
theorem builds_events {kept : Bool} (pending : List Char) : ∀ {f : Forest}, IsNormalList kept f →
    (pending ≠ [] → ∀ node ∈ f.head?, node.isText = false) →
    ∃ g last, Builds kept pending (eventsList f) g last ∧
      g ++ pendingText kept last = pendingText kept pending ++ arrangeList f
  | [], _, _ => ⟨[], pending, .nil, by simp [arrangeList]⟩
  | .text content plain :: rest, ⟨⟨hplain, hne, hcollapsed⟩, hnext, hrest⟩, hpending => by
    obtain rfl : pending = [] := by
      cases pending with
      | nil => rfl
      | cons c cs => simp [Node.isText] at hpending
    obtain ⟨g, last, hbuilds, heq⟩ := builds_events content.toList hrest fun _ => hnext rfl
    refine ⟨g, last, .text hbuilds, heq.trans ?_⟩
    rw [pendingText, if_neg (by simpa using hne), hcollapsed, String.ofList_toList, hplain]
    rfl
  | .element name attributes children :: rest, ⟨⟨htag, hempty, hchildren⟩, _, hrest⟩, _ => by
    obtain ⟨g, last, hbuilds, heq⟩ := builds_events [] hrest (by simp)
    rw [eventsList, Node.events]
    cases hvoid : isVoidElement name with
    | true =>
      obtain rfl := hempty hvoid
      refine ⟨_, last, .leaf (.inl rfl) hbuilds, ?_⟩
      rw [htag.arrange.elementAttributes_eq, List.append_assoc, List.cons_append, heq]
      rfl
    | false =>
      obtain ⟨inner, within, hinner, heqInner⟩ := builds_events [] hchildren (by simp)
      rw [if_neg (by simp), List.append_assoc, List.singleton_append]
      refine ⟨_, last, .element hvoid htag.plain hinner hbuilds, ?_⟩
      rw [htag.arrange.elementAttributes_eq, List.append_assoc, List.cons_append, heq, heqInner]
      rfl

/-- A normal forest is the tree of its events. -/
theorem buildForest_events {f : Forest} (hf : IsNormalList false f) : buildForest (eventsList f) = arrangeList f := by
  obtain ⟨g, last, hbuilds, heq⟩ := builds_events [] hf (by simp)
  exact hbuilds.buildForest_eq.trans heq

end Folio.Html
