import Mathlib
import Folio.Proofs.Text.Quoted
import Folio.Yaml.Word

set_option autoImplicit false
set_option mvcgen.warning false

/-! # Numbers for no character

A number that is too large for a character is reported only where the text has it: as eight digits after a
backslash and a `U` (`HasEscape`). Readers go on inside the text (`Cursor.IsIn`), so this holds of what each of them
reports (`Read.StaysIn`). -/

namespace Folio.Yaml

open Std.Do

/-- A text has an escape with eight digits for a number. -/
def HasEscape (text : List Char) (number : Nat) : Prop :=
  ∃ digits, '\\' :: 'U' :: digits <:+: text ∧ digits.length = 8 ∧ digits.all Text.isHexDigit = true ∧
    Text.hexValue digits = number

/-- If a fault is a number for no character, the text has an escape for it. -/
@[grind =]
def Fault.IsFrom (text : List Char) (fault : Fault) : Prop :=
  ∀ number, fault.problem = .noCharacter number → HasEscape text number

/-- What is left from the cursor on is left of a text. -/
def Cursor.IsIn (text : List Char) (cursor : Cursor) : Prop :=
  cursor.rest <:+ text

variable {text : List Char}

namespace Cursor

variable {cursor : Cursor}

theorem IsIn.next (h : cursor.IsIn text) : cursor.next.IsIn text := by
  unfold Cursor.next
  split
  next => exact h
  next c rest hrest =>
    have hsuffix : rest <:+ cursor.rest := hrest ▸ List.suffix_cons c rest
    exact hsuffix.trans h

@[grind ←]
theorem IsIn.skip (h : cursor.IsIn text) (n : Nat) : (cursor.skip n).IsIn text := by
  induction n generalizing cursor with
  | zero => exact h
  | succ n ih => exact ih h.next

@[grind ←]
theorem IsIn.takeWhile (h : cursor.IsIn text) (p : Char → Bool) : (cursor.takeWhile p).2.IsIn text :=
  h.skip _

@[grind ←]
theorem IsIn.skipSpaces (h : cursor.IsIn text) : cursor.skipSpaces.IsIn text :=
  h.skip _

@[grind ←]
theorem IsIn.skipLine (h : cursor.IsIn text) : cursor.skipLine.IsIn text :=
  h.skip _

@[grind →]
theorem IsIn.lineBreak {c : Char} {after : Cursor} (hbreak : cursor.lineBreak? = some (c, after))
    (h : cursor.IsIn text) : after.IsIn text := by
  unfold Cursor.lineBreak? at hbreak
  split at hbreak
  next =>
    cases hbreak
    exact h.skip 2
  next =>
    split_ifs at hbreak <;> cases hbreak <;> exact h.next
  next => cases hbreak

theorem rest_skip (n : Nat) (cursor : Cursor) : (cursor.skip n).rest = cursor.rest.drop n := by
  induction n generalizing cursor with
  | zero => rfl
  | succ n ih =>
    rw [Cursor.skip, ih, Cursor.next]
    split
    next h => rw [h, List.drop_nil, List.drop_nil]
    next h => rw [h, List.drop_succ_cons]

theorem rest_of_peek {c : Char} (h : cursor.peek = some c) : cursor.rest = c :: (cursor.skip 1).rest := by
  rw [rest_skip]
  unfold Cursor.peek at h
  obtain ⟨hlt, rfl⟩ := List.getElem?_eq_some_iff.1 h
  exact (List.getElem_cons_drop hlt).symm

end Cursor

namespace Read

/-- A reader that starts in a text ends in it, and its fault is from the text. -/
abbrev StaysIn (text : List Char) {α : Type} (r : Read α) : Prop :=
  ⦃fun cursor => ⌜cursor.IsIn text⌝⦄ r
  ⦃post⟨fun _ cursor => ⌜cursor.IsIn text⌝, fun fault => ⌜fault.IsFrom text⌝⟩⦄

attribute [spec] peek mark skip takeWhile skipSpaces

-- The rule for `throw` of the library lifts it out of the state and leaves the monad below open.
@[spec 5000]
theorem throw_spec {σ α : Type} (fault : Fault) {Q : PostCond α (.arg σ (.except Fault .pure))} :
    ⦃fun _ => Q.2.1 fault⦄ (throw fault : StateT σ (Except Fault) α) ⦃Q⦄ :=
  fun _ h => h

@[spec]
theorem fail_stays {α : Type} (context : Context) (start : Mark) (problem : Problem)
    (h : ∀ number, problem = .noCharacter number → HasEscape text number) :
    ⦃fun _ => ⌜True⌝⦄ (fail context start problem : Read α)
    ⦃post⟨fun _ _ => ⌜False⌝, fun fault => ⌜fault.IsFrom text⌝⟩⦄ := by
  mvcgen [fail]

@[spec]
theorem expect_stays (context : Context) (start : Mark) (expected : String) (p : Option Char → Bool) :
    (expect context start expected p).StaysIn text := by
  mvcgen [expect] with grind

@[spec]
theorem lineBreak_stays : lineBreak?.StaysIn text := by
  mvcgen [lineBreak?] with grind

@[spec]
theorem restOfLine_stays (context : Context) (start : Mark) : (restOfLine context start).StaysIn text := by
  mvcgen [restOfLine] with grind

/-- Characters that satisfy a condition one by one, at all distances up to some, can be taken together. -/
theorem all_take_of_peek {p : Char → Bool} {cursor : Cursor} {n : Nat}
    (h : ∀ d ∈ List.range n, (cursor.peek d).any p = true) :
    (cursor.rest.take n).length = n ∧ (cursor.rest.take n).all p = true := by
  have hpeek (d : Nat) (hd : d < n) : ∃ c, cursor.rest[d]? = some c ∧ p c = true := by
    have hany := h d (List.mem_range.2 hd)
    unfold Cursor.peek at hany
    exact (Option.any_eq_true _ _).1 hany
  have hlength : n ≤ cursor.rest.length := by
    by_contra hlt
    obtain ⟨c, hc, -⟩ := hpeek cursor.rest.length (by omega)
    simp at hc
  refine ⟨List.length_take_of_le hlength, List.all_eq_true.2 fun c hc => ?_⟩
  obtain ⟨d, hd, rfl⟩ := List.getElem_of_mem hc
  obtain ⟨c, hc, hp⟩ := hpeek d (by rw [List.length_take] at hd; omega)
  rw [List.getElem?_eq_some_iff] at hc
  obtain ⟨_, rfl⟩ := hc
  rwa [List.getElem_take]

/-- The digits of a number stand where its reader starts. -/
@[spec]
theorem hexNumber_stays (context : Context) (start : Mark) (what : String) (length : Nat) (before : Cursor)
    (hin : before.IsIn text) :
    ⦃fun cursor => ⌜cursor = before⌝⦄ hexNumber context start what length
    ⦃post⟨fun number cursor => ⌜cursor.IsIn text ∧ ∃ digits, before.rest = digits ++ cursor.rest ∧
        digits.length = length ∧ digits.all Text.isHexDigit = true ∧ Text.hexValue digits = number⌝,
      fun fault => ⌜fault.IsFrom text⌝⟩⦄ := by
  mvcgen [hexNumber]
  invariants
  · post⟨fun (seen, _) cursor => ⌜cursor = before ∧ ∀ d ∈ seen.prefix, (before.peek d).any Text.isHexDigit = true⌝,
      fun fault => ⌜fault.IsFrom text⌝⟩
  with try grind
  next h _ _ =>
    obtain ⟨rfl, hdigits⟩ := h
    refine ⟨hin.skip length, _, ?_, (all_take_of_peek hdigits).1, (all_take_of_peek hdigits).2, rfl⟩
    exact (Cursor.rest_skip .. ▸ List.take_append_drop ..).symm

/-! ## Names and addresses -/

@[spec]
theorem name_stays (context : Context) (start : Mark) : (name context start).StaysIn text := by
  mvcgen [name] with grind

@[spec]
theorem anchorName_stays (context : Context) : (anchorName context).StaysIn text := by
  mvcgen [anchorName] with grind

@[spec]
theorem escapedBytes_stays (context : Context) (start : Mark) (fuel : Nat) :
    (escapedBytes context start fuel).StaysIn text := by
  induction fuel with
  | zero => mvcgen [escapedBytes]
  | succ fuel ih => mvcgen [escapedBytes, ih] with grind

@[spec]
theorem addressText_stays (context : Context) (start : Mark) (fuel : Nat) :
    (addressText context start fuel).StaysIn text := by
  induction fuel with
  | zero => mvcgen [addressText]
  | succ fuel ih => mvcgen [addressText, ih] with grind

@[spec]
theorem address_stays (context missing : Context) (start : Mark) : (address context missing start).StaysIn text := by
  mvcgen [address] with grind

@[spec]
theorem tagHandle_stays (context : Context) (start : Mark) : (tagHandle context start).StaysIn text := by
  mvcgen [tagHandle] with grind

@[spec]
theorem tag_stays : tag.StaysIn text := by
  mvcgen [tag] with grind

/-! ## Directives -/

@[spec]
theorem directiveNumber_stays (start : Mark) : (directiveNumber start).StaysIn text := by
  mvcgen [directiveNumber] with grind

@[spec]
theorem directive_stays : directive.StaysIn text := by
  mvcgen [directive] with grind

/-! ## Block scalars -/

@[spec]
theorem indentation_stays (start : Mark) : (indentation? start).StaysIn text := by
  mvcgen [indentation?] with grind

@[spec]
theorem blockScalarMarks_stays (start : Mark) : (blockScalarMarks start).StaysIn text := by
  mvcgen [blockScalarMarks] with grind

@[spec]
theorem skipToColumn_stays (column : Nat) : (skipToColumn column).StaysIn text := by
  mvcgen [skipToColumn] with grind

@[spec]
theorem emptyLines_stays (column fuel : Nat) : (emptyLines column fuel).StaysIn text := by
  induction fuel with
  | zero => mvcgen [emptyLines]
  | succ fuel ih => mvcgen [emptyLines, ih]

@[spec]
theorem leadingLines_stays (widest fuel : Nat) : (leadingLines widest fuel).StaysIn text := by
  induction fuel generalizing widest with
  | zero => mvcgen [leadingLines]
  | succ fuel ih => mvcgen [leadingLines, ih] with grind

@[spec]
theorem blockScalarLines_stays (folded : Bool) (chomping : Chomping) (column fuel : Nat) (breaks : List Char) :
    (blockScalarLines folded chomping column fuel breaks).StaysIn text := by
  induction fuel generalizing breaks with
  | zero => mvcgen [blockScalarLines]
  | succ fuel ih => mvcgen [blockScalarLines, ih] with grind

@[spec]
theorem blockScalar_stays (least : Nat) : (blockScalar least).StaysIn text := by
  mvcgen [blockScalar] with grind

/-! ## Quoted scalars -/

theorem escapeLength?_eq_some {c : Char} {n : Nat} (h : escapeLength? c = some n) :
    n ≤ 4 ∨ c = 'U' ∧ n = 8 := by
  unfold escapeLength? at h
  split at h
  all_goals cases h
  · exact .inl (by omega)
  · exact .inl (by omega)
  · exact .inr ⟨rfl, rfl⟩

@[spec]
theorem quotedBreaks_stays (start : Mark) (fuel : Nat) : (quotedBreaks start fuel).StaysIn text := by
  induction fuel with
  | zero => mvcgen [quotedBreaks]
  | succ fuel ih => mvcgen [quotedBreaks, ih] with grind

/-- After a backslash, a number for no character is one that the text has. -/
@[spec]
theorem escape_stays (start : Mark) (before : Cursor) (h : '\\' :: before.rest <:+ text) :
    ⦃fun cursor => ⌜cursor = before⌝⦄ escape start
    ⦃post⟨fun _ cursor => ⌜cursor.IsIn text⌝, fun fault => ⌜fault.IsFrom text⌝⟩⦄ := by
  have hin : before.IsIn text := (List.suffix_cons _ _).trans h
  mvcgen [escape] with try grind
  next hbefore length hlength _ _ number hnone =>
    have hlarge := Text.Point.ofNat?_eq_none hnone
    subst hbefore
    rintro after _ ⟨digits, hrest, hdigits, hhex, rfl⟩ _ ⟨⟩
    obtain ⟨c, hc, hc'⟩ := Option.bind_eq_some_iff.1 hlength
    rcases escapeLength?_eq_some hc' with hshort | ⟨rfl, rfl⟩
    · have hsmall : 16 ^ digits.length ≤ 16 ^ 4 := Nat.pow_le_pow_right (by omega) (by omega)
      have := Text.hexValue_lt digits
      omega
    · refine ⟨digits, .trans ⟨[], after.rest, ?_⟩ h.isInfix, hdigits, hhex, rfl⟩
      rw [Cursor.rest_of_peek hc, hrest]
      rfl

@[spec]
theorem quotedGap_stays (start : Mark) : (quotedGap start).StaysIn text := by
  mvcgen [quotedGap] with grind

@[spec]
theorem quotedText_stays (double : Bool) (start : Mark) (fuel : Nat) : (quotedText double start fuel).StaysIn text := by
  induction fuel with
  | zero => mvcgen [quotedText]
  | succ fuel ih =>
    mvcgen [quotedText, ih] with try grind
    next hin _ _ _ hbackslash _ =>
      rw [Bool.and_eq_true, beq_iff_eq] at hbackslash
      exact Cursor.rest_of_peek hbackslash.2 ▸ hin.takeWhile _

@[spec]
theorem quotedScalar_stays : quotedScalar.StaysIn text := by
  mvcgen [quotedScalar] with grind

/-! ## Plain scalars -/

@[spec]
theorem plainBreaks_stays (fuel : Nat) : (plainBreaks fuel).StaysIn text := by
  induction fuel with
  | zero => mvcgen [plainBreaks]
  | succ fuel ih => mvcgen [plainBreaks, ih] with grind

@[spec]
theorem plainGap_stays : plainGap.StaysIn text := by
  mvcgen [plainGap] with grind

@[spec]
theorem plainText_stays (inFlow : Bool) (least fuel : Nat) (gap : List Char) (atStart : Bool) :
    (plainText inFlow least fuel gap atStart).StaysIn text := by
  induction fuel generalizing gap atStart with
  | zero => mvcgen [plainText]
  | succ fuel ih => mvcgen [plainText, ih] with grind

@[spec]
theorem plainScalar_stays (inFlow : Bool) (least : Nat) : (plainScalar inFlow least).StaysIn text := by
  mvcgen [plainScalar]

end Read

end Folio.Yaml
