import Folio.Proofs.Except
import Folio.Proofs.Yaml.Reading
import Folio.Yaml.Node

set_option autoImplicit false
set_option mvcgen.warning false

/-! # Where faults come from

Tokens are found by readers that go on inside the text, and nodes are made of tokens, whose fault is reported
where they end. So a text that has no nodes because of a number for no character has an escape for it
(`compose_meets`). -/

namespace Folio.Yaml

open Std.Do

variable {text : List Char}

/-- What a triple says of a run from one state. -/
theorem meets_of_triple {σ α : Type} {t : StateT σ (Except Fault) α} {P Q : σ → Prop} {E : Fault → Prop} {s : σ}
    (h : ⦃fun s => ⌜P s⌝⦄ t ⦃post⟨fun _ s => ⌜Q s⌝, fun fault => ⌜E fault⌝⟩⦄) (hs : P s) :
    (t s).Meets (fun p => Q p.2) E := by
  have hrun : (wp⟦t s⟧ (post⟨fun p => ⌜Q p.2⌝, fun fault => ⌜E fault⌝⟩)).down := h s hs
  cases hresult : t s with
  | ok p =>
    rw [hresult] at hrun
    exact hrun
  | error fault =>
    rw [hresult] at hrun
    exact hrun

/-! ## Tokens -/

namespace Tokenize

/-- A step that starts in a text ends in it, and its fault is from the text. -/
abbrev StaysIn (text : List Char) {α : Type} (t : Tokenize α) : Prop :=
  ⦃fun s => ⌜s.cursor.IsIn text⌝⦄ t
  ⦃post⟨fun _ s => ⌜s.cursor.IsIn text⌝, fun fault => ⌜fault.IsFrom text⌝⟩⦄

/-- What holds when a reader has ended holds with the cursor where it stands. -/
@[spec]
theorem read_spec {α : Type} (r : Read α) {Q : PostCond α (.arg Tokenizer (.except Fault .pure))} :
    ⦃fun s => wp⟦r⟧ (fun a cursor => Q.1 a { s with cursor }, Q.2) s.cursor⦄ read r ⦃Q⦄ := by
  mvcgen [read]

attribute [spec] mark inFlow add addEmpty addWord allowKey leastColumn

@[spec]
theorem fail_stays {α : Type} (problem : Problem) (h : ∀ number, problem ≠ .noCharacter number) :
    (fail problem : Tokenize α).StaysIn text := by
  mvcgen [fail] with grind

@[spec]
theorem addMark_stays (kind : TokenKind) (length : Nat) : (addMark kind length).StaysIn text := by
  mvcgen [addMark] with grind

@[spec]
theorem failKey_stays {α : Type} (key : PossibleKey) : (failKey key : Tokenize α).StaysIn text := by
  mvcgen [failKey] with grind

@[spec]
theorem dropStaleKeys_stays : dropStaleKeys.StaysIn text := by
  mvcgen [dropStaleKeys]

@[spec]
theorem dropKey_stays : dropKey.StaysIn text := by
  mvcgen [dropKey]

@[spec]
theorem saveKey_stays : saveKey.StaysIn text := by
  mvcgen [saveKey]

@[spec]
theorem closeBlocks_stays (column : Option Nat) : (closeBlocks column).StaysIn text := by
  mvcgen [closeBlocks]

@[spec]
theorem openBlock_stays (column : Nat) : (openBlock column).StaysIn text := by
  mvcgen [openBlock]

@[spec]
theorem separator_stays (kind : TokenKind) : (separator kind).StaysIn text := by
  mvcgen [separator]

@[spec]
theorem flowStart_stays (kind : TokenKind) : (flowStart kind).StaysIn text := by
  mvcgen [flowStart]

@[spec]
theorem flowEnd_stays (kind : TokenKind) : (flowEnd kind).StaysIn text := by
  mvcgen [flowEnd]

@[spec]
theorem blockMark_stays (kind start : TokenKind) (problem : Problem) (allowsKey : Bool)
    (h : ∀ number, problem ≠ .noCharacter number) : (blockMark kind start problem allowsKey).StaysIn text := by
  mvcgen [blockMark]

@[spec]
theorem insertAt_stays (number : Nat) (token : Token) : (insertAt number token).StaysIn text := by
  mvcgen [insertAt]

@[spec]
theorem valueMark_stays : valueMark.StaysIn text := by
  mvcgen [valueMark] with grind

@[spec]
theorem blockScalar_stays : blockScalar.StaysIn text := by
  mvcgen [blockScalar]

@[spec]
theorem plainScalar_stays : plainScalar.StaysIn text := by
  mvcgen [plainScalar]

@[spec]
theorem skipGap_stays (fuel : Nat) : (skipGap fuel).StaysIn text := by
  induction fuel with
  | zero => mvcgen [skipGap]
  | succ fuel ih => mvcgen [skipGap, ih] with grind

@[spec]
theorem toToken_stays : toToken.StaysIn text := by
  mvcgen [toToken] with grind

@[spec]
theorem more_stays : more.StaysIn text := by
  mvcgen [more, word] with grind

@[spec]
theorem mustWait_stays : mustWait.StaysIn text := by
  mvcgen [mustWait]

/-- The fault that the tokens of a text end with is from the text. -/
theorem run_isFrom (fuel : Nat) (s : Tokenizer) (h : s.cursor.IsIn text) :
    ∀ fault ∈ (run fuel s).fault, fault.IsFrom text := by
  induction fuel generalizing s with
  | zero => simp [run]
  | succ fuel ih =>
    have hwait := meets_of_triple mustWait_stays h
    rw [run]
    split
    next fault heq =>
      rw [heq] at hwait
      simpa using hwait
    next waiting heq =>
      rw [heq] at hwait
      have hmore := meets_of_triple more_stays hwait
      split
      next fault heq =>
        rw [heq] at hmore
        simpa using hmore
      next after heq =>
        rw [heq] at hmore
        exact ih after hmore
    next waiting heq =>
      rw [heq] at hwait
      split
      next => simp
      next =>
        split
        next => simp
        next => exact ih _ hwait

end Tokenize

/-! ## Nodes -/

/-- A fault that the tokens end with is from the text. -/
def Composer.IsFrom (text : List Char) (s : Composer) : Prop :=
  ∀ fault ∈ s.stream.fault, fault.IsFrom text

namespace Compose

/-- A step on tokens of a text goes on with tokens of the text, and its fault is from the text. -/
abbrev StaysIn (text : List Char) {α : Type} (t : Compose α) : Prop :=
  ⦃fun s => ⌜s.IsFrom text⌝⦄ t
  ⦃post⟨fun _ s => ⌜s.IsFrom text⌝, fun fault => ⌜fault.IsFrom text⌝⟩⦄

@[spec]
theorem peek_stays : peek.StaysIn text := by
  mvcgen [peek] with grind [Composer.IsFrom]

@[spec]
theorem take_stays : take.StaysIn text := by
  mvcgen [take]

@[spec]
theorem failHere_stays {α : Type} (context : Option (Context × Option Mark)) (problem : String → Problem)
    (h : ∀ found number, problem found ≠ .noCharacter number) :
    (failHere context problem : Compose α).StaysIn text := by
  mvcgen [failHere] with grind

@[spec]
theorem properties_stays : properties.StaysIn text := by
  mvcgen [properties]

@[spec]
theorem resolveTag_stays (p : Properties) : (resolveTag p).StaysIn text := by
  mvcgen [resolveTag] with grind

@[spec]
theorem declare_stays (anchor : Option (List Char)) (mark : Mark) : (declare anchor mark).StaysIn text := by
  mvcgen [declare] with grind [Composer.IsFrom]

@[spec]
theorem define_stays (anchor : Option (List Char)) (node : Node) : (define anchor node).StaysIn text := by
  mvcgen [define]

@[spec]
theorem resolveAlias_stays (name : List Char) (mark : Mark) : (resolveAlias name mark).StaysIn text := by
  mvcgen [resolveAlias] with grind

attribute [spec] nextIs

@[spec]
theorem noContent_stays (position : Position) (p : Properties) (tag : Option (List Char)) (start : Mark) :
    (noContent position p tag start).StaysIn text := by
  mvcgen [noContent] with grind

@[spec]
theorem flowComma_stays (context : Context) (start : Mark) (stop : TokenKind) (expected : String) (isFirst : Bool) :
    (flowComma context start stop expected isFirst).StaysIn text := by
  mvcgen [flowComma] with grind

/-- What holds of the readers of nodes with some fuel. -/
structure NodesStayIn (text : List Char) (fuel : Nat) : Prop where
  node (position : Position) : (node position fuel).StaysIn text
  blockItems (start : Mark) : (blockItems start fuel).StaysIn text
  indentlessItems : (indentlessItems fuel).StaysIn text
  blockEntries (start : Mark) : (blockEntries start fuel).StaysIn text
  flowValue (stop : TokenKind) : (flowValue stop fuel).StaysIn text
  flowKey (stop : TokenKind) : (flowKey stop fuel).StaysIn text
  flowItems (start : Mark) (isFirst : Bool) : (flowItems start isFirst fuel).StaysIn text
  flowEntries (start : Mark) (isFirst : Bool) : (flowEntries start isFirst fuel).StaysIn text

theorem nodes_stay (fuel : Nat) : NodesStayIn text fuel := by
  induction fuel with
  | zero =>
    constructor
    · intro position; mvcgen [node] with grind
    · intro start; mvcgen [blockItems]
    · mvcgen [indentlessItems]
    · intro start; mvcgen [blockEntries]
    · intro stop; mvcgen [flowValue] with grind
    · intro stop; mvcgen [flowKey] with grind
    · intro start isFirst; mvcgen [flowItems]
    · intro start isFirst; mvcgen [flowEntries]
  | succ fuel ih =>
    obtain ⟨hnode, hblockItems, hindentlessItems, hblockEntries, hflowValue, hflowKey, hflowItems, hflowEntries⟩ := ih
    constructor
    · intro position
      mvcgen [node, hblockItems, hindentlessItems, hblockEntries, hflowItems, hflowEntries]
    · intro start; mvcgen [blockItems, hnode, hblockItems] with grind
    · mvcgen [indentlessItems, hnode, hindentlessItems]
    · intro start; mvcgen [blockEntries, hnode, hblockEntries] with grind
    · intro stop; mvcgen [flowValue, hnode]
    · intro stop; mvcgen [flowKey, hnode]
    · intro start isFirst; mvcgen [flowItems, hnode, hflowKey, hflowValue, hflowItems]
    · intro start isFirst; mvcgen [flowEntries, hnode, hflowKey, hflowValue, hflowEntries]

@[spec]
theorem node_stays (position : Position) (fuel : Nat) : (node position fuel).StaysIn text :=
  (nodes_stay fuel).node position

@[spec]
theorem directives_stays (hasVersion : Bool) (handles : List (List Char × List Char)) (fuel : Nat) :
    (directives hasVersion handles fuel).StaysIn text := by
  induction fuel generalizing hasVersion handles with
  | zero => mvcgen [directives]
  | succ fuel ih => mvcgen [directives, ih] with grind

@[spec]
theorem skipEnds_stays (fuel : Nat) : (skipEnds fuel).StaysIn text := by
  induction fuel with
  | zero => mvcgen [skipEnds]
  | succ fuel ih => mvcgen [skipEnds, ih]

@[spec]
theorem documentStart_stays (fuel : Nat) : (documentStart fuel).StaysIn text := by
  mvcgen [documentStart] with grind [Composer.IsFrom]

@[spec]
theorem single_stays (fuel : Nat) : (single fuel).StaysIn text := by
  mvcgen [single] with grind

end Compose

/-- The fault because of which the nodes of a text are not made is from the text. -/
theorem compose_meets (text : List Char) : (compose text).Meets (fun _ => True) (·.IsFrom text) := by
  have hstream : Composer.IsFrom text ⟨TokenStream.ofText text, Compose.defaultHandles, []⟩ :=
    Tokenize.run_isFrom _ _ List.suffix_rfl
  unfold compose
  rw [Except.meets_bind]
  exact (meets_of_triple (Compose.single_stays _) hstream).mono (fun _ _ => trivial) fun _ => id

end Folio.Yaml
