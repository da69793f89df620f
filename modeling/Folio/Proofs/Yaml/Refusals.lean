import Folio.Proofs.Yaml.Faults
import Folio.Proofs.Yaml.Misread

set_option autoImplicit false

/-! # Texts that are refused without an explanation

Making the value of a node makes those of the nodes inside it, after some of them have been merged. Where none of
them fails but for causes of some kind, the whole does not (`value_meets`). So a text that is refused without an
explanation has a node that is not what its tag says, or an escape of a number for no character (`load_meets`). -/

namespace Folio.Yaml

/-- A node inside a node, or the node itself. -/
inductive Within : Node → Node → Prop
  | self (node : Node) : Within node node
  | item {tag : List Char} {items : List Node} {mark : Mark} {item inner : Node} (mem : item ∈ items)
      (within : Within item inner) : Within (.sequence tag items mark) inner
  | key {tag : List Char} {entries : List (Node × Node)} {mark : Mark} {entry : Node × Node} {inner : Node}
      (mem : entry ∈ entries) (within : Within entry.1 inner) : Within (.mapping tag entries mark) inner
  | value {tag : List Char} {entries : List (Node × Node)} {mark : Mark} {entry : Node × Node} {inner : Node}
      (mem : entry ∈ entries) (within : Within entry.2 inner) : Within (.mapping tag entries mark) inner

/-- Neither a node nor a node inside it is refused but for causes of a kind. -/
def FailsOnly (E : LoadError → Prop) (node : Node) : Prop :=
  ∀ inner, Within node inner → (Load.simple inner).Meets (fun _ => True) E

/-- Nor are the keys and values of some entries. -/
def EntriesFailOnly (E : LoadError → Prop) (entries : List (Node × Node)) : Prop :=
  ∀ entry ∈ entries, FailsOnly E entry.1 ∧ FailsOnly E entry.2

section

variable {E : LoadError → Prop} {tag : List Char} {mark : Mark} {node : Node}

theorem FailsOnly.simple (h : FailsOnly E node) : (Load.simple node).Meets (fun _ => True) E :=
  h node (.self node)

theorem FailsOnly.items {items : List Node} (h : FailsOnly E (.sequence tag items mark)) :
    ∀ item ∈ items, FailsOnly E item :=
  fun _ hitem inner hinner => h inner (.item hitem hinner)

theorem FailsOnly.entries {entries : List (Node × Node)} (h : FailsOnly E (.mapping tag entries mark)) :
    EntriesFailOnly E entries := fun _ hentry =>
  ⟨fun inner hinner => h inner (.key hentry hinner), fun inner hinner => h inner (.value hentry hinner)⟩

/-- A key that stands for the whole is a text when its mapping is merged. -/
theorem FailsOnly.retag {text : List Text.Point} (h : FailsOnly E (.scalar tag text mark)) :
    FailsOnly E (.scalar (if tag = tagNamed "value" then tagNamed "str" else tag) text mark) := by
  split
  next =>
    rintro inner ⟨⟩
    exact trivial
  next => exact h

variable (hE : ∀ e, e.isExplained = true → E e)
include hE

/-! ## The parts of a collection -/

theorem itemEntries_meets (whole : Node) {merge : Node → List (Node × Node) → Load (List (Node × Node))}
    (hmerge : ∀ whole entries, EntriesFailOnly E entries → (merge whole entries).Meets (EntriesFailOnly E) E)
    {item : Node} (h : FailsOnly E item) : (Load.itemEntries whole merge item).Meets (EntriesFailOnly E) E := by
  cases item with
  | mapping tag inner mark => exact hmerge _ inner h.entries
  | enclosing mark => exact List.forall_mem_nil _
  | scalar tag text mark => exact hE _ rfl
  | sequence tag items mark => exact hE _ rfl

theorem mergedEntries_meets (whole : Node) (fuel : Nat) (entries : List (Node × Node))
    (h : EntriesFailOnly E entries) : (Load.mergedEntries whole fuel entries).Meets (EntriesFailOnly E) E := by
  induction fuel generalizing whole entries with
  | zero => exact h
  | succ fuel ih =>
    have hflatten {parts : List (List (Node × Node))} (h : ∀ part ∈ parts, EntriesFailOnly E part) :
        EntriesFailOnly E parts.flatten := fun entry hentry => by
      obtain ⟨part, hpart, hentry⟩ := List.mem_flatten.1 hentry
      exact h part hpart entry hentry
    rw [Load.mergedEntries]
    simp only [Except.meets_bind, Except.meets_pure]
    refine (Except.meets_mapM (Q := EntriesFailOnly E) ?_).mono ?_ fun _ => id
    · rintro ⟨key, value⟩ hentry
      have hvalue : FailsOnly E value := (h _ (List.mem_filter.1 hentry).1).2
      cases value with
      | mapping tag inner mark => exact ih _ inner hvalue.entries
      | enclosing mark => exact List.forall_mem_nil _
      | scalar tag text mark => exact hE _ rfl
      | sequence tag items mark =>
        simp only [Except.meets_bind, Except.meets_pure]
        refine (Except.meets_mapM fun item hmem => itemEntries_meets hE whole ih (hvalue.items item hmem)).mono
          (fun parts hparts => ?_) fun _ => id
        exact hflatten fun part hpart => hparts.2 part (List.mem_reverse.1 hpart)
    · intro merged hmerged entry hentry
      rcases List.mem_append.1 hentry with hentry | hentry
      · exact hflatten hmerged.2 entry hentry
      · obtain ⟨⟨key, value⟩, hown, rfl⟩ := List.mem_map.1 hentry
        obtain ⟨hkey, hvalue⟩ := h _ (List.mem_filter.1 hown).1
        cases key with
        | scalar tag text mark => exact ⟨hkey.retag, hvalue⟩
        | _ => exact ⟨hkey, hvalue⟩

theorem entriesOf_meets (h : FailsOnly E node) : (Load.entriesOf node).Meets (EntriesFailOnly E) E := by
  unfold Load.entriesOf
  cases node with
  | mapping tag entries mark => exact mergedEntries_meets hE _ _ entries h.entries
  | _ => exact hE _ rfl

theorem singleEntries_meets (context : Context) (h : FailsOnly E node) :
    (Load.singleEntries context node).Meets
      (fun loads => ∀ load ∈ loads, load.Meets (fun e => FailsOnly E e.1 ∧ FailsOnly E e.2) E) E := by
  unfold Load.singleEntries
  cases node with
  | sequence tag items mark =>
    intro load hload
    obtain ⟨item, hitem, rfl⟩ := List.mem_map.1 hload
    split
    next entry _ => exact (h.items _ hitem).entries entry List.mem_cons_self
    next => exact hE _ rfl
    next => exact hE _ rfl
  | _ => exact hE _ rfl

omit hE in
theorem part_meets (h : FailsOnly E node) : (Load.part node).Meets (fun nodes => ∀ n ∈ nodes, FailsOnly E n) E := by
  unfold Load.part
  split
  next => exact List.forall_mem_nil _
  next =>
    simp only [Except.meets_bind, Except.meets_pure]
    refine h.simple.mono (fun v _ => ?_) fun _ => id
    split
    next => exact List.forall_mem_nil _
    next => exact fun n hn => List.mem_singleton.1 hn ▸ h

theorem inside_meets (h : FailsOnly E node) :
    (Load.inside node).Meets (fun nodes => ∀ n ∈ nodes, FailsOnly E n) E := by
  have hflatten {parts : List (List Node)} (h : ∀ part ∈ parts, ∀ n ∈ part, FailsOnly E n) :
      ∀ n ∈ parts.flatten, FailsOnly E n := fun n hn => by
    obtain ⟨part, hpart, hn⟩ := List.mem_flatten.1 hn
    exact h part hpart n hn
  unfold Load.inside
  split
  next =>
    cases node with
    | sequence tag items mark =>
      simp only [Except.meets_bind, Except.meets_pure]
      exact (Except.meets_mapM fun item hitem => part_meets (h.items item hitem)).mono
        (fun parts hparts => hflatten hparts.2) fun _ => id
    | _ => exact hE _ rfl
  iterate 2
    next =>
      simp only [Except.meets_bind, Except.meets_pure]
      refine (singleEntries_meets hE _ h).mono (fun loads hloads => ?_) fun _ => id
      refine (Except.meets_mapM fun load hload => ?_).mono (fun parts hparts => hflatten hparts.2) fun _ => id
      simp only [Except.meets_bind, Except.meets_pure]
      refine (hloads load hload).mono (fun entry hentry => ?_) fun _ => id
      refine (part_meets hentry.1).mono (fun keys hkeys => ?_) fun _ => id
      refine (part_meets hentry.2).mono (fun values hvalues => ?_) fun _ => id
      exact List.forall_mem_append.2 ⟨hkeys, hvalues⟩
  next =>
    simp only [Except.meets_bind, Except.meets_pure]
    refine (entriesOf_meets hE h).mono (fun entries hentries => ?_) fun _ => id
    refine (Except.meets_mapM fun entry hentry => ?_).mono (fun parts hparts => hflatten hparts.2) fun _ => id
    obtain ⟨hkey, hvalue⟩ := hentries entry hentry
    split
    next => exact hE _ rfl
    next =>
      rw [Except.meets_bind]
      refine hkey.simple.mono (fun v _ => ?_) fun _ => id
      split
      next => exact hE _ rfl
      next => exact part_meets hvalue

theorem check_meets (fuel : Nat) {nodes : List Node} (h : ∀ n ∈ nodes, FailsOnly E n) :
    (Load.check fuel nodes).Meets (fun _ => True) E := by
  induction fuel generalizing nodes with
  | zero => exact trivial
  | succ fuel ih =>
    rw [Load.check]
    split
    next => exact trivial
    next =>
      simp only [Except.meets_bind]
      refine (Except.meets_mapM fun n hn => inside_meets hE (h n hn)).mono (fun parts hparts => ih fun n hn => ?_)
        fun _ => id
      obtain ⟨part, hpart, hn⟩ := List.mem_flatten.1 hn
      exact hparts.2 part hpart n hn

/-! ## Values -/

theorem value_meets (fuel : Nat) {node : Node} (h : FailsOnly E node) :
    (Load.value fuel node).Meets (fun _ => True) E := by
  induction fuel generalizing node with
  | zero => exact trivial
  | succ fuel ih =>
    have hentry {entry : Node × Node} (h : FailsOnly E entry.1 ∧ FailsOnly E entry.2) :
        (do return (← Load.value fuel entry.1, ← Load.value fuel entry.2) : Load (Value × Value)).Meets
          (fun _ => True) E := by
      simp only [Except.meets_bind, Except.meets_pure]
      exact (ih h.1).mono (fun _ _ => ih h.2) fun _ => id
    unfold Load.value
    dsimp only
    split
    next => exact trivial
    next =>
      rw [Except.meets_bind]
      refine h.simple.mono (fun v _ => ?_) fun _ => id
      split
      next => exact trivial
      next =>
        split
        next =>
          cases node with
          | sequence tag items mark =>
            simp only [Except.meets_bind, Except.meets_pure]
            exact (Except.meets_mapM fun item hitem => ih (h.items item hitem)).mono (fun _ _ => trivial) fun _ => id
          | _ => exact trivial
        iterate 2
          next =>
            simp only [Except.meets_bind, Except.meets_pure]
            refine (singleEntries_meets hE _ h).mono (fun loads hloads => ?_) fun _ => id
            refine (Except.meets_mapM (Q := fun _ => True) fun load hload => ?_).mono (fun _ _ => trivial) fun _ => id
            simp only [Except.meets_bind, Except.meets_pure]
            exact (hloads load hload).mono
              (fun entry h => (ih h.1).mono (fun _ _ => (ih h.2).mono (fun _ _ => trivial) fun _ => id) fun _ => id)
              fun _ => id
        iterate 2
          next =>
            simp only [Except.meets_bind, Except.meets_pure]
            refine (entriesOf_meets hE h).mono (fun entries hentries => ?_) fun _ => id
            exact (Except.meets_mapM fun entry hmem => hentry (hentries entry hmem)).mono (fun _ _ => trivial)
              fun _ => id

end

/-! ## Whole texts -/

/-- Why a text is refused without an explanation. -/
inductive Escapes (text : List Char) : LoadError → Prop
  /-- The number of an escape does not fit into a machine word. -/
  | number {context : Option (Context × Option Mark)} {number : Nat} {mark : Mark}
      (faulty : compose text = .error ⟨context, .noCharacter number, mark⟩) (hasEscape : HasEscape text number)
      (tooLarge : wordLimit ≤ number) : Escapes text (.fault ⟨context, .noCharacter number, mark⟩)
  /-- A node is not what its tag says. -/
  | misread {root node : Node} {cause : LoadError} (composed : compose text = .ok (some root))
      (within : Within root node) (misread : Misread node cause) : Escapes text cause

theorem Escapes.isExplained {text : List Char} {e : LoadError} (h : Escapes text e) : e.isExplained = false := by
  cases h with
  | number _ _ hlarge => exact decide_eq_false (by omega)
  | misread _ _ hmisread => exact hmisread.isExplained

/-- A text has a value, or is refused with an explanation, or has what lets it be refused without. -/
theorem load_meets (text : List Char) : (load text).Meets (fun _ => True) fun e =>
    e.isExplained = true ∨ Escapes text e := by
  unfold load
  split
  next => exact .inl rfl
  next =>
    split
    next fault hcompose =>
      have hfrom := compose_meets text
      rw [hcompose] at hfrom
      obtain ⟨context, problem, mark⟩ := fault
      cases hexplained : (LoadError.fault ⟨context, problem, mark⟩).isExplained with
      | true => exact .inl hexplained
      | false =>
        cases problem with
        | noCharacter number =>
          have hlarge : wordLimit ≤ number := Nat.le_of_not_lt (of_decide_eq_false hexplained)
          exact .inr (.number hcompose (hfrom number rfl) hlarge)
        | _ => cases hexplained
    next => exact trivial
    next root hcompose =>
      have hroot : FailsOnly (fun e => e.isExplained = true ∨ Escapes text e) root := fun node hnode =>
        (simple_meets node).mono (fun _ => id) fun e he => he.imp_right (.misread hcompose hnode)
      have hexplained (e : LoadError) (he : e.isExplained = true) : e.isExplained = true ∨ Escapes text e := .inl he
      rw [Except.meets_bind]
      refine hroot.simple.mono (fun v _ => ?_) fun _ => id
      split
      next =>
        rw [Except.meets_bind]
        exact (check_meets hexplained _ (List.forall_mem_singleton.2 hroot)).mono
          (fun _ _ => value_meets hexplained _ hroot) fun _ => id
      next => exact value_meets hexplained _ hroot

theorem escapes_of_load {text : List Char} {cause : LoadError} (h : load text = .error cause)
    (hunexplained : cause.isExplained = false) : Escapes text cause := by
  have hmeets := load_meets text
  rw [h] at hmeets
  exact Or.resolve_left hmeets (by simp [hunexplained])

end Folio.Yaml
