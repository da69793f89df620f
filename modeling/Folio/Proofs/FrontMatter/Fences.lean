import Folio.FrontMatter
import Folio.Proofs.Text.Lines
import Mathlib.Data.List.TakeWhile

set_option autoImplicit false

/-! # The lines around a header

Cut after its line feeds, a text has a header if its first line is a fence and a later line is one too. The
first such line closes the header, and a single pass over the lines finds it (`header?_eq_passHeader`,
`header?_eq_some_iff`). -/

namespace Folio

open Text

/-! ## Fences -/

/-- Three hyphens, spaces and tabs, and the end of a line. With the flag the line may lack its end. -/
inductive IsFence (mayLackEnd : Bool) : List Char → Prop
  | feed {blanks : List Char} (isBlank : ∀ c ∈ blanks, c = ' ' ∨ c = '\t') :
      IsFence mayLackEnd (['-', '-', '-'] ++ blanks ++ ['\n'])
  | pair {blanks : List Char} (isBlank : ∀ c ∈ blanks, c = ' ' ∨ c = '\t') :
      IsFence mayLackEnd (['-', '-', '-'] ++ blanks ++ ['\r', '\n'])
  | last {blanks : List Char} (isBlank : ∀ c ∈ blanks, c = ' ' ∨ c = '\t') (lacks : mayLackEnd = true) :
      IsFence mayLackEnd (['-', '-', '-'] ++ blanks)

variable {atEnd : Bool} {cs line rest : List Char} {later : List (List Char)}

theorem isFenceBlank_iff {c : Char} : isFenceBlank c = true ↔ c = ' ' ∨ c = '\t' := by
  simp [isFenceBlank]

theorem afterFence?_blanks {blanks : List Char} (h : ∀ c ∈ blanks, c = ' ' ∨ c = '\t') (atEnd : Bool)
    (hrest : ∀ c, rest.head? = some c → isFenceBlank c = false) :
    afterFence? atEnd (['-', '-', '-'] ++ blanks ++ rest) = afterLineEnd? atEnd rest := by
  have hdrop : (blanks ++ rest).dropWhile isFenceBlank = rest := by
    rw [List.dropWhile_append_of_pos fun c hc => isFenceBlank_iff.2 (h c hc)]
    cases rest with
    | nil => rfl
    | cons c rest => rw [List.dropWhile_cons_of_neg (by simp [hrest c rfl])]
  rw [afterFence?, List.append_assoc, dropPrefix?_append, Option.bind_some, hdrop]

theorem feed_not_mem_fence {blanks : List Char} (hblanks : ∀ c ∈ blanks, c = ' ' ∨ c = '\t')
    (more : List Char) (hmore : '\n' ∉ more) : '\n' ∉ ['-', '-', '-'] ++ blanks ++ more := by
  simp only [List.mem_append, not_or]
  exact ⟨⟨by decide, fun hmem => by simpa using hblanks _ hmem⟩, hmore⟩

/-- What is left after a fence: what follows its line, or nothing if the line ends with the text. -/
theorem afterFence?_eq_some_iff : afterFence? atEnd cs = some rest ↔
    ∃ line, IsFence atEnd line ∧ cs = line ++ rest ∧ ('\n' ∈ line ∨ rest = []) := by
  constructor
  · intro h
    rw [afterFence?, Option.bind_eq_some_iff] at h
    obtain ⟨following, hprefix, h⟩ := h
    obtain rfl := dropPrefix?_eq_some hprefix
    have hblanks : ∀ c ∈ following.takeWhile isFenceBlank, c = ' ' ∨ c = '\t' := fun c hc =>
      isFenceBlank_iff.1 (List.mem_takeWhile_imp hc)
    have hcut := List.takeWhile_append_dropWhile (p := isFenceBlank) (l := following)
    generalize following.takeWhile isFenceBlank = blanks at hblanks hcut
    generalize following.dropWhile isFenceBlank = finish at h hcut
    subst hcut
    unfold afterLineEnd? at h
    split at h
    next =>
      obtain rfl := Option.some.inj h
      exact ⟨_, .feed hblanks, by simp, by simp⟩
    next =>
      obtain rfl := Option.some.inj h
      exact ⟨_, .pair hblanks, by simp, by simp⟩
    next =>
      split at h
      next hend =>
        obtain rfl := Option.some.inj h
        exact ⟨_, .last hblanks hend, by simp, by simp⟩
      next => cases h
    next => cases h
  · rintro ⟨line, hfence, rfl, hend⟩
    cases hfence with
    | feed hblanks =>
      rw [List.append_assoc _ _ rest, afterFence?_blanks hblanks atEnd (by simp [isFenceBlank])]
      rfl
    | pair hblanks =>
      rw [List.append_assoc _ _ rest, afterFence?_blanks hblanks atEnd (by simp [isFenceBlank])]
      rfl
    | @last blanks hblanks hlacks =>
      have hfeed := feed_not_mem_fence hblanks [] List.not_mem_nil
      rw [List.append_nil] at hfeed
      obtain rfl := hend.resolve_left hfeed
      rw [afterFence?_blanks hblanks atEnd (by simp), afterLineEnd?, if_pos hlacks]

instance (line : List Char) : Decidable (IsFence atEnd line) :=
  decidable_of_iff (afterFence? atEnd line = some []) (by simp [afterFence?_eq_some_iff])

/-- A fence is a line of the text it stands in. -/
theorem IsFence.feedLines_append (h : IsFence atEnd line) (hend : '\n' ∈ line ∨ rest = []) :
    feedLines (line ++ rest) = line :: feedLines rest := by
  cases h with
  | feed hblanks =>
    have hopen := feed_not_mem_fence hblanks [] List.not_mem_nil
    simpa using Text.feedLines_append hopen rest
  | pair hblanks =>
    have hopen := feed_not_mem_fence hblanks ['\r'] (by decide)
    simpa using Text.feedLines_append hopen rest
  | last hblanks hlacks =>
    have hopen := feed_not_mem_fence hblanks [] List.not_mem_nil
    rw [List.append_nil] at hopen
    obtain rfl := hend.resolve_left hopen
    rw [List.append_nil, feedLines_last hopen (by simp)]
    rfl

/-! ## A pass over the lines -/

/-- The lines of a header and those after it, if the first line opens a header. -/
def passHeader : List (List Char) → Option (List (List Char) × List (List Char))
  | [] => none
  | line :: later => if IsFence false line then cutAtFirst? (IsFence true) later else none

variable {lines block after : List (List Char)}

/-! ## The pass over a text -/

theorem afterFence?_flatten (h : AreFeedLines (line :: later)) :
    afterFence? atEnd (line ++ later.flatten) = if IsFence atEnd line then some later.flatten else none := by
  split
  next hfence =>
    refine afterFence?_eq_some_iff.2 ⟨line, hfence, rfl, ?_⟩
    cases h with
    | last => exact .inr rfl
    | line => exact .inl (by simp)
  next hfence =>
    refine Option.eq_none_iff_forall_ne_some.2 fun rest hrest => hfence ?_
    obtain ⟨first, hfirst, htext, hend⟩ := afterFence?_eq_some_iff.1 hrest
    have hlines := congrArg feedLines htext
    rw [hfirst.feedLines_append hend, ← List.flatten_cons, h.feedLines_flatten] at hlines
    exact (List.cons.inj hlines).1 ▸ hfirst

theorem cutAtFence?_true (cs : List Char) : cutAtFence? true cs
    = match afterFence? true cs with
      | some rest => some ([], rest)
      | none => cutAtFence? false cs := by
  cases cs with
  | nil => rfl
  | cons c cs => rfl

theorem cutAtFence?_cons (h : AreFeedLines (line :: later)) : cutAtFence? true (line ++ later.flatten)
    = if IsFence true line then some ([], later.flatten)
      else cutAtFence? false (line ++ later.flatten) := by
  rw [cutAtFence?_true, afterFence?_flatten h]
  by_cases hfence : IsFence true line
  · rw [if_pos hfence, if_pos hfence]
  · rw [if_neg hfence, if_neg hfence]

theorem cutAtFence?_inLine {body : List Char} (h : '\n' ∉ body) : cutAtFence? false body = none := by
  induction body with
  | nil => rfl
  | cons c body ih =>
    simp only [List.mem_cons, not_or] at h
    have hc : (c == '\n') = false := by simpa using Ne.symm h.1
    simp [cutAtFence?, hc, ih h.2]

theorem cutAtFence?_line {body : List Char} (h : '\n' ∉ body) (cs : List Char) :
    cutAtFence? false (body ++ '\n' :: cs)
      = (cutAtFence? true cs).map fun (header, rest) => (body ++ '\n' :: header, rest) := by
  induction body with
  | nil => simp [cutAtFence?]
  | cons c body ih =>
    simp only [List.mem_cons, not_or] at h
    have hc : (c == '\n') = false := by simpa using Ne.symm h.1
    simp [cutAtFence?, hc, ih h.2, Function.comp_def]

/-- The pass over a text passes over its lines. -/
theorem cutAtFence?_flatten (h : AreFeedLines lines) : cutAtFence? true lines.flatten
    = (cutAtFirst? (IsFence true) lines).map fun (block, after) => (block.flatten, after.flatten) := by
  induction h with
  | none => rfl
  | last hopen hne =>
    rw [List.flatten_cons, cutAtFence?_cons (.last hopen hne), cutAtFirst?]
    split
    next => rfl
    next => simp [cutAtFirst?, cutAtFence?_inLine hopen]
  | line hopen hlater ih =>
    rw [List.flatten_cons, cutAtFence?_cons (.line hopen hlater), cutAtFirst?]
    split
    next => rfl
    next => simp [cutAtFence?_line hopen, ih, Function.comp_def]

/-- The header of a text is found in one pass over its lines. -/
theorem header?_eq_passHeader (cs : List Char) : header? cs
    = (passHeader (feedLines cs)).map fun (block, after) => (block.flatten, after.flatten) := by
  obtain ⟨hlines, htext⟩ := feedLines_eq_iff.1 (Eq.refl (feedLines cs))
  generalize feedLines cs = lines at hlines htext
  subst htext
  cases lines with
  | nil => rfl
  | cons line later =>
    have hlater : AreFeedLines later := by
      cases hlines with
      | last => exact .none
      | line _ hlater => exact hlater
    rw [header?, List.flatten_cons, afterFence?_flatten hlines, passHeader]
    split
    next => exact cutAtFence?_flatten hlater
    next => rfl

/-! ## Texts with a header -/

/-- The lines of a text are a fence with its end, the lines of a block, the first fence after it, and other
    lines. -/
structure HasHeader (text : List Char) (block after : List (List Char)) : Prop where
  lines : ∃ opening closing, feedLines text = opening :: (block ++ closing :: after) ∧
    IsFence false opening ∧ IsFence true closing
  first : ∀ line ∈ block, ¬ IsFence true line

theorem hasHeader_iff {text : List Char} :
    HasHeader text block after ↔ passHeader (feedLines text) = some (block, after) := by
  constructor
  · rintro ⟨⟨opening, closing, hlines, hopening, hclosing⟩, hfirst⟩
    rw [hlines, passHeader, if_pos hopening]
    exact cutAtFirst?_eq_some_iff.2 ⟨closing, rfl, hclosing, hfirst⟩
  · intro h
    cases hlines : feedLines text with
    | nil =>
      rw [hlines] at h
      cases h
    | cons opening later =>
      rw [hlines, passHeader] at h
      split at h
      next hopening =>
        obtain ⟨closing, rfl, hclosing, hfirst⟩ := cutAtFirst?_eq_some_iff.1 h
        exact ⟨⟨opening, closing, hlines, hopening, hclosing⟩, hfirst⟩
      next => cases h

/-- The header of a text is the block between its fences, and its body what follows them. -/
theorem header?_eq_some_iff {text header body : List Char} : header? text = some (header, body) ↔
    ∃ block after, HasHeader text block after ∧ header = block.flatten ∧ body = after.flatten := by
  simp only [header?_eq_passHeader, hasHeader_iff, Option.map_eq_some_iff, Prod.exists, Prod.mk.injEq]
  exact ⟨fun ⟨block, after, hpass, hheader, hbody⟩ => ⟨block, after, hpass, hheader.symm, hbody.symm⟩,
    fun ⟨block, after, hpass, hheader, hbody⟩ => ⟨block, after, hpass, hheader.symm, hbody.symm⟩⟩

end Folio
