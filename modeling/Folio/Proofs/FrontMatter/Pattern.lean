import Folio.FrontMatter
import Mathlib.Data.List.Basic

set_option autoImplicit false

/-! # The header as a pattern

A pattern is matched by trying: each part of it has outcomes in an order, and a later part that fails leads
back to the next outcome of an earlier one. A match is the first outcome of the whole. The header of a page
is such a pattern, with as little text as possible between its two fences; the pass over the text finds the
header that the pattern matches (`header?_eq_firstMatch`). -/

namespace Folio.Text

/-- What is matched by trying. -/
inductive Pattern where
  /-- One character of a set. -/
  | one (p : Char → Bool)
  | textStart
  /-- The start of the text, or the place after a line feed. -/
  | lineStart
  | textEnd
  | nothing
  | seq (first second : Pattern)
  /-- One of two, with the first tried first. -/
  | either (first second : Pattern)
  /-- Characters of a set, as many as possible at first. -/
  | greedy (p : Char → Bool)
  /-- Characters of a set, as few as possible at first. -/
  | lazy (p : Char → Bool)
  /-- A part whose text is kept. -/
  | group (inner : Pattern)

/-- Where a match stands: after which character, before which text, and what it has kept. -/
structure Position where
  last : Option Char
  rest : List Char
  kept : List Char

namespace Pattern

/-- The positions after none and more characters of a set, the nearest first. -/
def reach (p : Char → Bool) (kept : List Char) : Option Char → List Char → List Position
  | last, [] => [⟨last, [], kept⟩]
  | last, c :: rest => ⟨last, c :: rest, kept⟩ :: if p c then reach p kept (some c) rest else []

/-- Where a pattern can end that starts at a position, in the order in which that is tried. -/
def run : Pattern → Position → List Position
  | one p, position =>
    match position.rest with
    | [] => []
    | c :: rest => if p c then [⟨some c, rest, position.kept⟩] else []
  | textStart, position => if position.last.isNone then [position] else []
  | lineStart, position => if position.last.all (· == '\n') then [position] else []
  | textEnd, position => if position.rest.isEmpty then [position] else []
  | nothing, position => [position]
  | seq first second, position => (run first position).flatMap (run second)
  | either first second, position => run first position ++ run second position
  | greedy p, position => (reach p position.kept position.last position.rest).reverse
  | lazy p, position => reach p position.kept position.last position.rest
  | group inner, position =>
    (run inner position).map fun there =>
      { there with kept := position.rest.take (position.rest.length - there.rest.length) }

/-- The match at the start of a text: what it keeps, and the text after it. -/
def firstMatch? (pattern : Pattern) (cs : List Char) : Option (List Char × List Char) :=
  (pattern.run ⟨none, cs, []⟩).head?.map fun there => (there.kept, there.rest)

/-! ## The pattern of a header -/

/-- A character. -/
def char (c : Char) : Pattern := one (· == c)

/-- The characters of a text, one after the other. -/
def text (cs : List Char) : Pattern :=
  cs.foldr (fun c following => seq (char c) following) nothing

/-- A line feed, with or without a carriage return before it. -/
def lineFeed : Pattern := seq (either (char '\r') nothing) (char '\n')

/-- The end of a line, or with the flag the end of the text. -/
def lineEnd (atEnd : Bool) : Pattern := if atEnd then either lineFeed textEnd else lineFeed

/-- Three hyphens and blanks up to the end. -/
def fence (atEnd : Bool) : Pattern :=
  seq (text ['-', '-', '-']) (seq (greedy isFenceBlank) (lineEnd atEnd))

/-- A fence where the text starts, as little text as possible, and a fence where a line starts. -/
def header : Pattern :=
  seq textStart (seq (fence false) (seq (group (lazy fun _ => true)) (seq lineStart (fence true))))

/-! ## Outcomes -/

@[simp] theorem reach_nil (p : Char → Bool) (last : Option Char) (kept : List Char) :
    reach p kept last [] = [⟨last, [], kept⟩] := rfl

@[simp] theorem reach_cons (p : Char → Bool) (last : Option Char) (c : Char) (rest kept : List Char) :
    reach p kept last (c :: rest)
      = ⟨last, c :: rest, kept⟩ :: if p c then reach p kept (some c) rest else [] := rfl

@[simp] theorem run_one_nil (p : Char → Bool) (last : Option Char) (kept : List Char) :
    (one p).run ⟨last, [], kept⟩ = [] := rfl

@[simp] theorem run_one_cons (p : Char → Bool) (last : Option Char) (c : Char) (rest kept : List Char) :
    (one p).run ⟨last, c :: rest, kept⟩ = if p c then [⟨some c, rest, kept⟩] else [] := rfl

@[simp] theorem run_nothing (position : Position) : nothing.run position = [position] := rfl

@[simp] theorem run_seq (first second : Pattern) (position : Position) :
    (seq first second).run position = (first.run position).flatMap second.run := rfl

@[simp] theorem run_either (first second : Pattern) (position : Position) :
    (either first second).run position = first.run position ++ second.run position := rfl

theorem run_textStart (position : Position) :
    textStart.run position = if position.last.isNone then [position] else [] := rfl

theorem run_lineStart (position : Position) :
    lineStart.run position = if position.last.all (· == '\n') then [position] else [] := rfl

theorem run_greedy_eq_reach (p : Char → Bool) (position : Position) :
    (greedy p).run position = (reach p position.kept position.last position.rest).reverse := rfl

theorem run_group (inner : Pattern) (position : Position) :
    (group inner).run position = (inner.run position).map fun there =>
      { there with kept := position.rest.take (position.rest.length - there.rest.length) } := rfl

theorem run_char (c : Char) (last : Option Char) (cs kept : List Char) : (char c).run ⟨last, cs, kept⟩
    = (dropPrefix? [c] cs).toList.map fun rest => ⟨some c, rest, kept⟩ := by
  cases cs with
  | nil => rfl
  | cons d rest =>
    by_cases hc : c = d
    · simp [char, dropPrefix?, hc]
    · simp [char, dropPrefix?, hc, Ne.symm hc]

theorem run_text (p : List Char) (last : Option Char) (cs kept : List Char) :
    ∃ last', (text p).run ⟨last, cs, kept⟩
    = (dropPrefix? p cs).toList.map fun rest => ⟨last', rest, kept⟩ := by
  induction p generalizing cs last with
  | nil => exact ⟨last, rfl⟩
  | cons c p ih =>
    cases cs with
    | nil => exact ⟨none, rfl⟩
    | cons d rest =>
      by_cases hc : c = d
      · obtain ⟨last', ih⟩ := ih (some c) rest
        refine ⟨last', ?_⟩
        change ((char c).run _).flatMap (text p).run = _
        simp [run_char, dropPrefix?, hc, ← ih]
      · refine ⟨none, ?_⟩
        change ((char c).run _).flatMap (text p).run = _
        simp [run_char, dropPrefix?, hc]

/-- Where the next part cannot go on before a character of the set, only the longest run of such
    characters is of use. -/
theorem run_greedy {p : Char → Bool} {next : Pattern} {kept : List Char}
    (h : ∀ last c rest, p c → next.run ⟨last, c :: rest, kept⟩ = []) (last : Option Char)
    (cs : List Char) :
    ∃ last', (seq (greedy p) next).run ⟨last, cs, kept⟩ = next.run ⟨last', cs.dropWhile p, kept⟩ := by
  induction cs generalizing last with
  | nil => exact ⟨last, by simp [run_greedy_eq_reach]⟩
  | cons c rest ih =>
    by_cases hc : p c
    · obtain ⟨last', hlast⟩ := ih (some c)
      refine ⟨last', ?_⟩
      simp only [run_seq, run_greedy_eq_reach] at hlast ⊢
      simp [hc, hlast, h]
    · exact ⟨last, by simp [run_greedy_eq_reach, hc]⟩

theorem run_lineFeed (last : Option Char) (cs kept : List Char) : lineFeed.run ⟨last, cs, kept⟩
    = (afterLineEnd? false cs).toList.map fun rest => ⟨some '\n', rest, kept⟩ := by
  unfold afterLineEnd?
  split
  next => rfl
  next => rfl
  next => rfl
  next hfeed hpair hnil =>
    obtain ⟨c, rest, rfl⟩ := List.exists_cons_of_ne_nil hnil
    have hc : '\n' ≠ c := fun hc => hfeed rest (hc ▸ rfl)
    by_cases hreturn : '\r' = c
    · subst hreturn
      cases rest with
      | nil => rfl
      | cons d rest =>
        have hd : '\n' ≠ d := fun hd => hpair rest (hd ▸ rfl)
        simp [lineFeed, run_char, dropPrefix?, hd]
    · simp [lineFeed, run_char, dropPrefix?, hc, hreturn]

theorem afterLineEnd?_cons (atEnd : Bool) (c : Char) (cs : List Char) :
    afterLineEnd? atEnd (c :: cs) = afterLineEnd? false (c :: cs) := by
  unfold afterLineEnd?
  split
  next => rfl
  next => rfl
  next h => cases h
  next => rfl

theorem run_lineEnd (atEnd : Bool) (last : Option Char) (cs kept : List Char) :
    ∃ last', (atEnd = false → last' = some '\n') ∧ (lineEnd atEnd).run ⟨last, cs, kept⟩
      = (afterLineEnd? atEnd cs).toList.map fun rest => ⟨last', rest, kept⟩ := by
  cases atEnd with
  | false => exact ⟨some '\n', fun _ => rfl, run_lineFeed last cs kept⟩
  | true =>
    rw [lineEnd, if_pos rfl, run_either, run_lineFeed]
    cases cs with
    | nil => exact ⟨last, nofun, rfl⟩
    | cons c rest =>
      refine ⟨some '\n', nofun, ?_⟩
      rw [afterLineEnd?_cons true]
      exact List.append_nil _

/-- A fence that the text may not end ends in a line feed. -/
theorem run_fence (atEnd : Bool) (last : Option Char) (cs kept : List Char) :
    ∃ last', (atEnd = false → last' = some '\n') ∧ (fence atEnd).run ⟨last, cs, kept⟩
      = (afterFence? atEnd cs).toList.map fun rest => ⟨last', rest, kept⟩ := by
  have hblank (last : Option Char) (c : Char) (rest : List Char) (hc : isFenceBlank c) :
      (lineEnd atEnd).run ⟨last, c :: rest, kept⟩ = [] := by
    simp only [isFenceBlank, Bool.or_eq_true, beq_iff_eq] at hc
    rcases hc with rfl | rfl <;> cases atEnd <;> rfl
  obtain ⟨lastHyphen, hhyphens⟩ := run_text ['-', '-', '-'] last cs kept
  rw [fence, run_seq, hhyphens, afterFence?]
  cases dropPrefix? ['-', '-', '-'] cs with
  | none => exact ⟨some '\n', fun _ => rfl, rfl⟩
  | some rest =>
    obtain ⟨lastBlank, hblanks⟩ := run_greedy hblank lastHyphen rest
    obtain ⟨last', hlast, hend⟩ :=
      run_lineEnd atEnd lastBlank (rest.dropWhile isFenceBlank) kept
    refine ⟨last', hlast, ?_⟩
    simp only [Option.toList_some, List.map_cons, List.map_nil, List.flatMap_cons, List.flatMap_nil,
      List.append_nil, hblanks, hend, Option.bind_some]

theorem run_closing (last : Option Char) (cs kept : List Char) :
    ∃ last', (seq lineStart (fence true)).run ⟨last, cs, kept⟩
    = (if last.all (· == '\n') then afterFence? true cs else none).toList.map
        fun rest => ⟨last', rest, kept⟩ := by
  obtain ⟨last', -, hfence⟩ := run_fence true last cs kept
  refine ⟨last', ?_⟩
  rw [run_seq, run_lineStart]
  split
  next => simpa using hfence
  next => rfl

/-- What stands between the fences is tried from the shortest on. `before` is the part of it that has been
    passed. -/
theorem run_between (kept before rest : List Char) (last : Option Char) :
    (((reach (fun _ => true) kept last rest).flatMap fun there =>
        (seq lineStart (fence true)).run
          { there with kept := (before ++ rest).take ((before ++ rest).length - there.rest.length) }).head?.map
      fun there => (there.kept, there.rest))
    = (cutAtFence? (last.all (· == '\n')) rest).map fun (header, body) => (before ++ header, body) := by
  induction rest generalizing before last with
  | nil =>
    obtain ⟨last', hclosing⟩ := run_closing last [] before
    have hnone : (if last.all (· == '\n') then afterFence? true [] else none) = none := by
      split <;> rfl
    rw [hnone] at hclosing
    simp [cutAtFence?, -run_seq, hclosing]
  | cons c rest ih =>
    obtain ⟨last', hclosing⟩ := run_closing last (c :: rest) before
    have hnext := ih (before ++ [c]) (some c)
    rw [List.append_assoc, List.singleton_append] at hnext
    rw [reach_cons, if_pos rfl, List.flatMap_cons, cutAtFence?]
    have htake : (before ++ c :: rest).take ((before ++ c :: rest).length - (c :: rest).length) = before := by
      simp
    rw [htake, hclosing]
    cases if last.all (· == '\n') then afterFence? true (c :: rest) else none with
    | some after => simp
    | none =>
      rw [Option.toList_none, List.map_nil, List.nil_append, hnext]
      simp [Function.comp_def]

/-- The pass over a text finds the header that the pattern matches. -/
theorem header?_eq_firstMatch (cs : List Char) : header? cs = header.firstMatch? cs := by
  obtain ⟨last, hlast, hfence⟩ := run_fence false none cs []
  obtain rfl := hlast rfl
  unfold header? firstMatch? header
  rw [run_seq, run_textStart]
  simp only [Option.isNone_none, if_true, List.flatMap_cons, List.flatMap_nil, List.append_nil]
  rw [run_seq, hfence]
  cases afterFence? false cs with
  | none => rfl
  | some rest =>
    have hbetween := run_between [] [] rest (some '\n')
    simp only [List.nil_append, Option.map_id'] at hbetween
    change cutAtFence? true rest = _
    rw [Option.toList_some, List.map_singleton, List.flatMap_singleton, run_seq, run_group, List.flatMap_map]
    exact hbetween.symm

end Pattern

end Folio.Text
