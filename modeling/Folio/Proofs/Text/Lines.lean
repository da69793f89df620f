import Folio.Text.Blank

set_option autoImplicit false

/-! # Two ways to cut a text into lines

A text can be cut after every line feed, or after everything that ends a line. Either way there is exactly one
way to cut: the lines give the text back, each has its end and no other, and only the last one may lack
it (`feedLines_eq_iff`, `lines_eq_iff`). Lines are cut in turn at the first of a kind
(`cutAtFirst?_eq_some_iff`). -/

namespace Folio.Text

/-! ## After every line feed -/

/-- The lines of a text that line feeds end, each with its end. The last line may lack it. -/
def feedLines : List Char → List (List Char)
  | [] => []
  | c :: cs =>
    if c = '\n' then [c] :: feedLines cs
    else match feedLines cs with
      | [] => [[c]]
      | line :: rest => (c :: line) :: rest

/-- Lists of lines that line feeds end. -/
inductive AreFeedLines : List (List Char) → Prop
  | none : AreFeedLines []
  | last {body : List Char} (unbroken : '\n' ∉ body) (nonempty : body ≠ []) : AreFeedLines [body]
  | line {body : List Char} {rest : List (List Char)} (unbroken : '\n' ∉ body) (lines : AreFeedLines rest) :
      AreFeedLines ((body ++ ['\n']) :: rest)

theorem feedLines_append {body : List Char} (h : '\n' ∉ body) (cs : List Char) :
    feedLines (body ++ '\n' :: cs) = (body ++ ['\n']) :: feedLines cs := by
  induction body with
  | nil => simp [feedLines]
  | cons c body ih =>
    have hc : c ≠ '\n' := fun hc => h (hc ▸ List.mem_cons_self)
    rw [List.cons_append, feedLines, if_neg hc, ih fun hmem => h (List.mem_cons_of_mem _ hmem)]
    rfl

theorem feedLines_last {body : List Char} (h : '\n' ∉ body) (hne : body ≠ []) :
    feedLines body = [body] := by
  induction body with
  | nil => exact absurd rfl hne
  | cons c body ih =>
    have hc : c ≠ '\n' := fun hc => h (hc ▸ List.mem_cons_self)
    rw [feedLines, if_neg hc]
    cases body with
    | nil => rfl
    | cons d body => rw [ih (fun hmem => h (List.mem_cons_of_mem _ hmem)) (List.cons_ne_nil _ _)]

theorem feedLines_flatten (cs : List Char) : (feedLines cs).flatten = cs := by
  fun_induction feedLines cs <;> simp_all

theorem areFeedLines_feedLines (cs : List Char) : AreFeedLines (feedLines cs) := by
  induction cs with
  | nil => exact .none
  | cons c cs ih =>
    rw [feedLines]
    split
    next hc => exact hc ▸ .line List.not_mem_nil ih
    next hc =>
      -- the character goes in front of the first line, which has an end if it had one before
      have hopen {body : List Char} (h : '\n' ∉ body) : '\n' ∉ c :: body := by
        simpa [h] using fun heq => hc heq.symm
      cases hlines : feedLines cs with
      | nil => exact .last (hopen List.not_mem_nil) (List.cons_ne_nil _ _)
      | cons line rest =>
        rw [hlines] at ih
        cases ih with
        | last h hne => exact .last (hopen h) (List.cons_ne_nil _ _)
        | line h hrest => exact .line (hopen h) hrest

theorem AreFeedLines.feedLines_flatten {lines : List (List Char)} (h : AreFeedLines lines) :
    feedLines lines.flatten = lines := by
  induction h with
  | none => rfl
  | last hopen hne => simpa using feedLines_last hopen hne
  | @line body rest hopen hlines ih =>
    rw [List.flatten_cons, List.append_assoc, List.singleton_append, feedLines_append hopen, ih]

/-- A text is cut after its line feeds in one way only. -/
theorem feedLines_eq_iff {cs : List Char} {lines : List (List Char)} :
    feedLines cs = lines ↔ AreFeedLines lines ∧ lines.flatten = cs := by
  constructor
  · rintro rfl
    exact ⟨areFeedLines_feedLines cs, feedLines_flatten cs⟩
  · rintro ⟨h, rfl⟩
    exact h.feedLines_flatten

/-! ## After everything that ends a line -/

/-- What ends a line: one of the characters that do, or a carriage return with its line feed. -/
inductive IsLineEnd : List Char → Prop
  | char {c : Char} (ends : endsLine c = true) : IsLineEnd [c]
  | pair : IsLineEnd ['\r', '\n']

/-- Lists of lines. A carriage return alone is no end before a line feed. -/
inductive AreLines : List (List Char) → Prop
  | none : AreLines []
  | last {body : List Char} (unbroken : ∀ c ∈ body, endsLine c = false) (nonempty : body ≠ []) :
      AreLines [body]
  | line {body finish : List Char} {rest : List (List Char)} (unbroken : ∀ c ∈ body, endsLine c = false)
      (ends : IsLineEnd finish) (whole : finish = ['\r'] → rest.flatten.head? ≠ some '\n')
      (lines : AreLines rest) : AreLines ((body ++ finish) :: rest)

/-- A text has lines that give it back. -/
structure HasLines (cs : List Char) (ls : List (List Char)) : Prop where
  areLines : AreLines ls
  whole : ls.flatten = cs

theorem lines_cons_of_open {c : Char} (h : endsLine c = false) (cs : List Char) :
    lines (c :: cs) = match lines cs with
      | [] => [[c]]
      | line :: rest => (c :: line) :: rest := by
  rw [lines]
  · exact if_neg (by simp [h])
  · rintro rest rfl -
    cases h

theorem lines_append {body : List Char} (h : ∀ c ∈ body, endsLine c = false) {cs line : List Char}
    {rest : List (List Char)} (hlines : lines cs = line :: rest) :
    lines (body ++ cs) = (body ++ line) :: rest := by
  induction body with
  | nil => exact hlines
  | cons c body ih =>
    rw [List.cons_append, lines_cons_of_open (h c List.mem_cons_self),
      ih fun d hd => h d (List.mem_cons_of_mem _ hd)]
    rfl

theorem lines_last {body : List Char} (h : ∀ c ∈ body, endsLine c = false) (hne : body ≠ []) :
    lines body = [body] := by
  induction body with
  | nil => exact absurd rfl hne
  | cons c body ih =>
    rw [lines_cons_of_open (h c List.mem_cons_self)]
    cases body with
    | nil => rfl
    | cons d body => rw [ih (fun e he => h e (List.mem_cons_of_mem _ he)) (List.cons_ne_nil _ _)]

theorem IsLineEnd.lines_append {finish : List Char} (h : IsLineEnd finish) {cs : List Char}
    (hwhole : finish = ['\r'] → cs.head? ≠ some '\n') : lines (finish ++ cs) = finish :: lines cs := by
  cases h with
  | @char c hc =>
    rw [List.singleton_append, lines]
    · rw [if_pos hc]
    · rintro rest rfl rfl
      exact hwhole rfl rfl
  | pair => rfl

theorem areLines_lines (cs : List Char) : AreLines (lines cs) := by
  fun_induction lines cs with
  | case1 => exact .none
  | case2 cs ih =>
    exact @AreLines.line [] _ _ (by simp) .pair (by simp) ih
  | case3 c cs hpair hc ih =>
    refine @AreLines.line [] _ _ (by simp) (.char hc) ?_ ih
    intro hfinish hhead
    obtain ⟨rest, rfl⟩ := List.head?_eq_some_iff.1 (lines_flatten cs ▸ hhead)
    exact hpair rest (List.singleton_inj.1 hfinish) rfl
  | case4 c cs hpair hc hlines =>
    exact .last (by simpa using hc) (List.cons_ne_nil _ _)
  | case5 c cs hpair hc line rest hlines ih =>
    have hopen {body : List Char} (h : ∀ d ∈ body, endsLine d = false) :
        ∀ d ∈ c :: body, endsLine d = false :=
      List.forall_mem_cons.2 ⟨Bool.eq_false_iff.2 hc, h⟩
    rw [hlines] at ih
    cases ih with
    | last h hne => exact .last (hopen h) (List.cons_ne_nil _ _)
    | line h hend hwhole hrest => exact .line (hopen h) hend hwhole hrest

theorem AreLines.lines_flatten {ls : List (List Char)} (h : AreLines ls) : lines ls.flatten = ls := by
  induction h with
  | none => rfl
  | last hopen hne => simpa using lines_last hopen hne
  | @line body finish rest hopen hend hwhole hlines ih =>
    rw [List.flatten_cons, List.append_assoc]
    have hrest : lines (finish ++ rest.flatten) = finish :: rest := by rw [hend.lines_append hwhole, ih]
    exact lines_append hopen hrest

/-- A text is cut into its lines in one way only. -/
theorem lines_eq_iff {cs : List Char} {ls : List (List Char)} :
    lines cs = ls ↔ HasLines cs ls := by
  constructor
  · rintro rfl
    exact ⟨areLines_lines cs, lines_flatten cs⟩
  · rintro ⟨h, rfl⟩
    exact h.lines_flatten

/-! ## The first line of a kind -/

/-- Cut lines at the first of a kind: those before it and those after it. -/
def cutAtFirst? (p : List Char → Prop) [DecidablePred p] :
    List (List Char) → Option (List (List Char) × List (List Char))
  | [] => none
  | line :: later =>
    if p line then some ([], later)
    else (cutAtFirst? p later).map fun (before, after) => (line :: before, after)

variable {p : List Char → Prop} [DecidablePred p] {ls before after : List (List Char)}

theorem cutAtFirst?_eq_some_iff : cutAtFirst? p ls = some (before, after) ↔
    ∃ line, ls = before ++ line :: after ∧ p line ∧ ∀ earlier ∈ before, ¬ p earlier := by
  induction ls generalizing before with
  | nil => simp [cutAtFirst?]
  | cons line later ih =>
    rw [cutAtFirst?]
    split
    next hline =>
      constructor
      · intro h
        obtain ⟨rfl, rfl⟩ := Prod.mk.inj (Option.some.inj h)
        exact ⟨line, rfl, hline, by simp⟩
      · rintro ⟨first, hls, -, hbefore⟩
        cases before with
        | nil =>
          obtain ⟨-, rfl⟩ := List.cons.inj hls
          rfl
        | cons earlier before =>
          obtain ⟨rfl, -⟩ := List.cons.inj hls
          exact absurd hline (hbefore _ List.mem_cons_self)
    next hline =>
      simp only [Option.map_eq_some_iff, Prod.exists, Prod.mk.injEq]
      constructor
      · rintro ⟨before, after, hcut, rfl, rfl⟩
        obtain ⟨first, rfl, hfirst, hbefore⟩ := ih.1 hcut
        exact ⟨first, rfl, hfirst, List.forall_mem_cons.2 ⟨hline, hbefore⟩⟩
      · rintro ⟨first, hls, hfirst, hbefore⟩
        cases before with
        | nil =>
          obtain ⟨rfl, -⟩ := List.cons.inj hls
          exact absurd hfirst hline
        | cons earlier before =>
          obtain ⟨rfl, rfl⟩ := List.cons.inj hls
          have hrest := (List.forall_mem_cons.1 hbefore).2
          exact ⟨before, after, ih.2 ⟨first, rfl, hfirst, hrest⟩, rfl, rfl⟩

theorem cutAtFirst?_eq_none_iff : cutAtFirst? p ls = none ↔ ∀ line ∈ ls, ¬ p line := by
  induction ls with
  | nil => simp [cutAtFirst?]
  | cons line later ih =>
    rw [cutAtFirst?]
    split
    next hline => simp [hline]
    next hline => simp [hline, ih]

end Folio.Text
