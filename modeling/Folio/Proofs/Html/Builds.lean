import Folio.Html.Node

set_option autoImplicit false

/-! # Which trees events build

Events that are well nested build a forest of elements and text: `Builds` says which, event by event, given the text
that is pending before them. What they build does not depend on what is there already (`Builds.foldl_step`), so the
tree of a whole text is read off a derivation (`Builds.buildForest_eq`). -/

namespace Folio.Html

/-! ## Pending text -/

/-- The characters of a run that collapses. -/
def isSpace (c : Char) : Bool :=
  c == ' ' || c == '\n' || c == '\t' || c == '\x0c' || c == '\r'

/-- Text as it is added: a run of blanks collapses, unless it is kept. -/
def collapsed (kept : Bool) (content : List Char) : List Char :=
  if kept || !content.all isSpace then content
  else if content.contains '\n' then ['\n'] else [' ']

/-- The node that pending text becomes, if there is any. -/
def pendingText (kept : Bool) (pending : List Char) : Forest :=
  if pending.isEmpty then [] else [.text (String.ofList (collapsed kept pending)) true]

@[simp] theorem pendingText_nil (kept : Bool) : pendingText kept [] = [] :=
  rfl

theorem collapsed_ne_nil {kept : Bool} {content : List Char} (h : content ≠ []) : collapsed kept content ≠ [] := by
  unfold collapsed
  split
  · exact h
  · split <;> simp

theorem collapsed_collapsed (kept : Bool) (content : List Char) :
    collapsed kept (collapsed kept content) = collapsed kept content := by
  by_cases h : (kept || !content.all isSpace) = true
  · have hself : collapsed kept content = content := if_pos h
    rw [hself, hself]
  · obtain rfl : kept = false := by
      cases kept with
      | false => rfl
      | true => simp at h
    rw [show collapsed false content = if content.contains '\n' then ['\n'] else [' '] from if_neg h]
    split <;> rfl

namespace Construction

variable {c : Construction} {f g : Forest} {node : Node} {kept : Bool}

/-- A construction with nodes added to the innermost open element, and with other pending text and closed empty
    elements. -/
def after (c : Construction) (f : Forest) (pending : List Char) (voids : List String) : Construction :=
  match c.stack with
  | [] => ⟨[], f.reverse ++ c.finished, pending, voids⟩
  | top :: rest => ⟨{ top with children := f.reverse ++ top.children } :: rest, c.finished, pending, voids⟩

@[simp] theorem after_nil : c.after [] c.pending c.closedVoids = c := by
  obtain ⟨stack, finished, pending, voids⟩ := c
  cases stack <;> rfl

variable {pending pending' : List Char} {voids voids' : List String}

@[simp] theorem after_after : (c.after f pending voids).after g pending' voids' = c.after (f ++ g) pending' voids' := by
  cases hstack : c.stack <;> simp [after, hstack]

@[simp] theorem addNode_after : addNode node (c.after f pending voids) = c.after (f ++ [node]) pending voids := by
  cases hstack : c.stack <;> simp [addNode, after, hstack]

@[simp] theorem pending_after : (c.after f pending voids).pending = pending := by
  cases hstack : c.stack <;> simp [after, hstack]

@[simp] theorem closedVoids_after : (c.after f pending voids).closedVoids = voids := by
  cases hstack : c.stack <;> simp [after, hstack]

/-- The names of the elements that are open stay. -/
theorem any_after (p : String → Bool) :
    (c.after f pending voids).stack.any (fun e => p e.name) = c.stack.any fun e => p e.name := by
  cases hstack : c.stack <;> simp [after, hstack]

/-- A place where text is plain and blanks are kept or not, and where only empty elements are closed at once. -/
structure Stands (c : Construction) (kept : Bool) : Prop where
  kept : c.stack.any (fun e => keepsBlanks e.name) = kept
  plain : c.stack.any (fun e => hidesText e.name) = false
  voids : ∀ name ∈ c.closedVoids, isVoidElement name = true

theorem Stands.after (h : c.Stands kept) (f : Forest) (pending : List Char)
    (hvoids : ∀ name ∈ voids, isVoidElement name = true) : (c.after f pending voids).Stands kept :=
  ⟨(any_after keepsBlanks).trans h.kept, (any_after hidesText).trans h.plain, by rwa [closedVoids_after]⟩

theorem Stands.flush (h : c.Stands kept) : c.flush = c.after (pendingText kept c.pending) [] c.closedVoids := by
  unfold Construction.flush pendingText
  split
  · next hempty =>
    have hnil : c.pending = [] := List.isEmpty_iff.1 hempty
    rw [← hnil, after_nil]
  · have hcollapse : c.collapse c.pending = collapsed kept c.pending := by
      rw [← h.kept]
      rfl
    have hplain : c.isPlain = true := by rw [isPlain, h.plain, Bool.not_false]
    rw [hcollapse, hplain]
    cases hstack : c.stack <;> simp [addNode, Construction.after, hstack]

end Construction

/-! ## Derivations -/

/-- Events add a forest of elements and text. `kept` says whether blanks are kept where they stand, `pending` is the
    text before them, and the last text is what is pending after them. -/
inductive Builds : Bool → List Char → List Event → Forest → List Char → Prop where
  | nil {kept : Bool} {pending : List Char} : Builds kept pending [] [] pending
  | text {kept : Bool} {pending content last : List Char} {events : List Event} {f : Forest}
      (rest : Builds kept (pending ++ content) events f last) : Builds kept pending (.text content :: events) f last
  /-- An element whose start tag closes it. -/
  | leaf {kept : Bool} {pending last : List Char} {name : String} {attributes : List (String × String)}
      {selfClosing : Bool} {events : List Event} {f : Forest}
      (closed : selfClosing = true ∨ isVoidElement name = true) (rest : Builds kept [] events f last) :
      Builds kept pending (.startTag name attributes selfClosing :: events)
        (pendingText kept pending ++ .element name (elementAttributes name attributes) [] :: f) last
  | element {kept : Bool} {pending within last : List Char} {name : String} {attributes : List (String × String)}
      {inner events : List Event} {children f : Forest} (nonempty : isVoidElement name = false)
      (plain : hidesText name = false) (content : Builds (keepsBlanks name || kept) [] inner children within)
      (rest : Builds kept [] events f last) :
      Builds kept pending (.startTag name attributes false :: inner ++ .endTag name :: events)
        (pendingText kept pending ++ .element name (elementAttributes name attributes)
          (children ++ pendingText (keepsBlanks name || kept) within) :: f) last

variable {kept : Bool} {pending last : List Char} {events : List Event} {f : Forest}

theorem Builds.append {more : List Event} {g : Forest} {last' : List Char} (h : Builds kept pending events f last)
    (h' : Builds kept last more g last') : Builds kept pending (events ++ more) (f ++ g) last' := by
  induction h with
  | nil => exact h'
  | text _ ih => exact .text (ih h')
  | leaf closed _ ih =>
    rw [List.append_assoc]
    exact .leaf closed (ih h')
  | element nonempty plain content _ _ ih =>
    rw [List.append_assoc, List.cons_append, List.append_assoc]
    exact .element nonempty plain content (ih h')

namespace Construction

variable {c : Construction} {name : String} {attributes : List (String × String)} {selfClosing : Bool}
variable {voids : List String}

/-- An element is opened and closed at once. -/
theorem Stands.step_leaf (h : c.Stands kept) (closed : selfClosing = true ∨ isVoidElement name = true) :
    ∃ voids, (∀ name ∈ voids, isVoidElement name = true) ∧ c.step (.startTag name attributes selfClosing)
      = c.after (pendingText kept c.pending ++ [.element name (elementAttributes name attributes) []]) [] voids := by
  rw [step, h.flush]
  simp only
  split
  · refine ⟨c.closedVoids, h.voids, ?_⟩
    cases hstack : c.stack <;> simp [closeInnermost, addNode, Construction.after, hstack]
  · next hopen =>
    have hvoid := closed.resolve_left hopen
    rw [if_pos hvoid]
    refine ⟨name :: c.closedVoids, by simpa [hvoid] using h.voids, ?_⟩
    cases hstack : c.stack <;> simp [closeInnermost, addNode, Construction.after, hstack]

/-- The place inside an element that has been opened. -/
def inside (c : Construction) (name : String) (attributes : List (String × String)) : Construction :=
  { c with stack := ⟨name, attributes, []⟩ :: c.stack }

/-- An element is opened. -/
theorem Stands.step_open (h : c.Stands kept) (nonempty : isVoidElement name = false) :
    c.step (.startTag name attributes false)
      = (c.after (pendingText kept c.pending) [] c.closedVoids).inside name (elementAttributes name attributes) := by
  rw [step, h.flush]
  simp only [Bool.false_eq_true, if_false, nonempty]
  rfl

theorem Stands.inside (h : c.Stands kept) (attributes : List (String × String)) (plain : hidesText name = false) :
    (c.inside name attributes).Stands (keepsBlanks name || kept) :=
  ⟨by simp [Construction.inside, ← h.kept], by simp [Construction.inside, plain, h.plain], h.voids⟩

theorem closeNamed_inside {pending : List Char} :
    ((c.inside name attributes).after f pending voids).closeNamed name
      = c.after [.element name attributes f] pending voids := by
  cases hstack : c.stack <;>
    simp [closeNamed, Construction.inside, Construction.after, closeInnermost, addNode, hstack]

/-- The element that has been opened is closed. -/
theorem Stands.step_close (h : c.Stands kept) (plain : hidesText name = false) (nonempty : isVoidElement name = false)
    (hvoids : ∀ name ∈ voids, isVoidElement name = true) :
    ((c.inside name attributes).after f pending voids).step (.endTag name)
      = c.after [.element name attributes (f ++ pendingText (keepsBlanks name || kept) pending)] [] voids := by
  have hinside := (h.inside attributes plain).after f pending hvoids
  have hopen : name ∉ voids := fun hmem => by simp [hvoids name hmem] at nonempty
  rw [step, closedVoids_after, if_neg (by simpa using hopen), hinside.flush, pending_after, closedVoids_after,
    after_after, closeNamed_inside]

end Construction

/-- What events add does not depend on what is there already. -/
theorem Builds.foldl_step (h : Builds kept pending events f last) {c : Construction} (hc : c.Stands kept)
    (hpending : c.pending = pending) : ∃ voids, (∀ name ∈ voids, isVoidElement name = true) ∧
      events.foldl Construction.step c = c.after f last voids := by
  induction h generalizing c with
  | nil => exact ⟨c.closedVoids, hc.voids, by simp [← hpending]⟩
  | @text kept pending content _ _ _ _ ih =>
    obtain ⟨voids, hvoids, heq⟩ := ih (c := { c with pending := pending ++ content }) ⟨hc.kept, hc.plain, hc.voids⟩ rfl
    refine ⟨voids, hvoids, ?_⟩
    rw [List.foldl_cons, Construction.step, hpending, heq]
    rfl
  | leaf closed _ ih =>
    obtain ⟨voids, hvoids, hstep⟩ := hc.step_leaf closed
    obtain ⟨voids', hvoids', heq⟩ := ih (hc.after _ _ hvoids) Construction.pending_after
    refine ⟨voids', hvoids', ?_⟩
    rw [List.foldl_cons, hstep, heq, Construction.after_after, hpending, List.append_assoc]
    rfl
  | @element kept pending _ _ name attributes _ _ _ _ nonempty plain _ _ ihInner ihRest =>
    have hopen := hc.after (pendingText kept pending) [] hc.voids
    obtain ⟨voids, hvoids, hinner⟩ :=
      ihInner (hopen.inside (elementAttributes name attributes) plain) Construction.pending_after
    rw [List.foldl_append, List.foldl_cons, List.foldl_cons, hc.step_open nonempty, hpending, hinner,
      hopen.step_close plain nonempty hvoids, Construction.after_after]
    obtain ⟨voids', hvoids', heq⟩ := ihRest (hc.after _ _ hvoids) Construction.pending_after
    refine ⟨voids', hvoids', ?_⟩
    rw [heq, Construction.after_after, List.append_assoc]
    rfl

/-- The tree of events. -/
theorem Builds.buildForest_eq (h : Builds false [] events f last) : buildForest events = f ++ pendingText false last := by
  have hempty : Construction.Stands {} false := ⟨rfl, rfl, by simp⟩
  obtain ⟨voids, hvoids, heq⟩ := h.foldl_step hempty rfl
  rw [buildForest, heq, Construction.finish, (hempty.after _ _ hvoids).flush]
  simp [Construction.after]

end Folio.Html
