import Folio.Proofs.Catalogue.KeyFormats
import Folio.Proofs.Except

set_option autoImplicit false

/-! # Templates part by part

What is read of a template is the same whatever follows (`readPiece_split`), and fuel that is left over does not count
(`fillFrom_fuel`). So a template is filled in part by part (`fillFrom_append`), and a part that needs few values gives the
same text when there are more. -/

namespace Folio.Template

/-! ## What is read, and what follows -/

section

variable {c : Char} {cs rest : List Char}

theorem readName_split {name : List Char} {stop : Char} {inBrackets : Bool}
    (h : readName inBrackets cs = .ok (name, stop, rest)) :
    ∃ front, cs = front ++ rest ∧ ∀ more, readName inBrackets (front ++ more) = .ok (name, stop, more) := by
  induction cs generalizing inBrackets name with
  | nil => simp [readName] at h
  | cons c cs ih =>
    have hon : ∀ {inside : Bool} {name : List Char},
        (readName inside cs).map (fun read => (c :: read.1, read.2)) = .ok (name, stop, rest) →
        ∃ front, cs = front ++ rest ∧ ∀ more,
          (readName inside (front ++ more)).map (fun read => (c :: read.1, read.2))
            = .ok (name, stop, more) := by
      intro inside name hmap
      obtain ⟨⟨name', stop', rest'⟩, hread, heq⟩ := Except.map_eq_ok_iff.1 hmap
      obtain ⟨rfl, rfl, rfl⟩ : c :: name' = name ∧ stop' = stop ∧ rest' = rest := by simpa using heq
      obtain ⟨front, hcs, hfront⟩ := ih hread
      exact ⟨front, hcs, fun more => by rw [hfront more]; rfl⟩
    rw [readName] at h
    split_ifs at h with hinside hopen hbracket hstop
    · obtain ⟨front, rfl, hfront⟩ := hon h
      refine ⟨c :: front, rfl, fun more => ?_⟩
      rw [List.cons_append, readName, if_pos hinside]
      exact hfront more
    · obtain ⟨front, rfl, hfront⟩ := hon h
      refine ⟨c :: front, rfl, fun more => ?_⟩
      rw [List.cons_append, readName, if_neg hinside, if_neg hopen, if_pos hbracket]
      exact hfront more
    · obtain ⟨rfl, rfl, rfl⟩ : [] = name ∧ c = stop ∧ cs = rest := by simpa using h
      refine ⟨[c], rfl, fun more => ?_⟩
      rw [List.singleton_append, readName, if_neg hinside, if_neg hopen, if_neg hbracket, if_pos hstop]
    · obtain ⟨front, rfl, hfront⟩ := hon h
      refine ⟨c :: front, rfl, fun more => ?_⟩
      rw [List.cons_append, readName, if_neg hinside, if_neg hopen, if_neg hbracket, if_neg hstop]
      exact hfront more

theorem readLayout_split {layout : List Char} {depth : Nat} (h : readLayout depth cs = .ok (layout, rest)) :
    ∃ front, cs = front ++ rest ∧ layout.length ≤ front.length ∧
      ∀ more, readLayout depth (front ++ more) = .ok (layout, more) := by
  induction cs generalizing depth layout with
  | nil => simp [readLayout] at h
  | cons c cs ih =>
    rw [readLayout] at h
    split at h
    · next hclose =>
      obtain ⟨rfl, rfl⟩ : [] = layout ∧ cs = rest := by simpa using h
      refine ⟨[c], rfl, Nat.zero_le _, fun more => ?_⟩
      rw [List.singleton_append, readLayout, if_pos hclose]
    · next hclose =>
      obtain ⟨⟨layout', rest'⟩, hread, heq⟩ := Except.map_eq_ok_iff.1 h
      obtain ⟨rfl, rfl⟩ : c :: layout' = layout ∧ rest' = rest := by simpa using heq
      obtain ⟨front, rfl, hlength, hfront⟩ := ih hread
      refine ⟨c :: front, rfl, Nat.succ_le_succ hlength, fun more => ?_⟩
      rw [List.cons_append, readLayout, if_neg hclose]
      simp only [hfront more]
      rfl

/-- A layout ends a field after its name. -/
theorem withLayout_split {name : List Char} {conversion : Option Char} {f : FieldText}
    (h : (do
      let (layout, rest) ← readLayout 1 cs
      return (⟨name, conversion, layout⟩, rest)) = Except.ok (f, rest)) :
    ∃ front, cs = front ++ rest ∧ f.layout.length ≤ front.length ∧ ∀ more, (do
      let (layout, rest) ← readLayout 1 (front ++ more)
      return (⟨name, conversion, layout⟩, rest)) = Except.ok (f, more) := by
  obtain ⟨⟨layout, rest'⟩, hlayout, h⟩ := Except.bind_eq_ok_iff.1 h
  obtain ⟨rfl, rfl⟩ : ⟨name, conversion, layout⟩ = f ∧ rest' = rest := by simpa [pure, Except.pure] using h
  obtain ⟨front, rfl, hlength, hfront⟩ := readLayout_split hlayout
  refine ⟨front, rfl, hlength, fun more => ?_⟩
  rw [hfront more]
  rfl

/-- A field after its name, which some character ends. -/
def fieldAfter (name : List Char) (stop : Char) (rest : List Char) :
    Except TemplateError (FieldText × List Char) := do
  if stop = '\x7d' then return (⟨name, none, []⟩, rest)
  if stop = ':' then
    let (layout, rest) ← readLayout 1 rest
    return (⟨name, none, layout⟩, rest)
  match rest with
  | [] => throw (.form "end of string while looking for conversion specifier")
  | [_] => throw (.form "unmatched '\x7b' in format spec")
  | conversion :: '\x7d' :: rest => return (⟨name, some conversion, []⟩, rest)
  | conversion :: ':' :: rest =>
    let (layout, rest) ← readLayout 1 rest
    return (⟨name, some conversion, layout⟩, rest)
  | _ => throw (.form "expected ':' after conversion specifier")

theorem fieldAfter_split {name : List Char} {stop : Char} {f : FieldText}
    (h : fieldAfter name stop cs = .ok (f, rest)) :
    ∃ front, cs = front ++ rest ∧ f.layout.length ≤ front.length ∧
      ∀ more, fieldAfter name stop (front ++ more) = .ok (f, more) := by
  unfold fieldAfter at h
  split at h
  · next hclose =>
    obtain ⟨rfl, rfl⟩ : ⟨name, none, []⟩ = f ∧ cs = rest := by simpa [pure, Except.pure] using h
    refine ⟨[], rfl, Nat.le_refl _, fun more => ?_⟩
    unfold fieldAfter
    rw [if_pos hclose]
    rfl
  · next hclose =>
    split at h
    · next hcolon =>
      obtain ⟨front, rfl, hlength, hfront⟩ := withLayout_split h
      refine ⟨front, rfl, hlength, fun more => ?_⟩
      unfold fieldAfter
      rw [if_neg hclose, if_pos hcolon]
      exact hfront more
    · next hcolon =>
      split at h
      · cases h
      · cases h
      · next conversion behind =>
        obtain ⟨rfl, rfl⟩ : ⟨name, some conversion, []⟩ = f ∧ behind = rest := by simpa [pure, Except.pure] using h
        refine ⟨[conversion, '\x7d'], rfl, Nat.zero_le _, fun more => ?_⟩
        unfold fieldAfter
        rw [if_neg hclose, if_neg hcolon]
        rfl
      · next conversion behind =>
        obtain ⟨front, rfl, hlength, hfront⟩ := withLayout_split h
        refine ⟨conversion :: ':' :: front, rfl, Nat.le_add_right_of_le (Nat.le_add_right_of_le hlength),
          fun more => ?_⟩
        unfold fieldAfter
        rw [if_neg hclose, if_neg hcolon]
        exact hfront more
      · cases h

theorem readField_split {f : FieldText} (h : readField cs = .ok (f, rest)) :
    ∃ front, cs = front ++ rest ∧ f.layout.length ≤ front.length ∧
      ∀ more, readField (front ++ more) = .ok (f, more) := by
  have hread : ∀ cs, readField cs = readName false cs >>= fun read => fieldAfter read.1 read.2.1 read.2.2 :=
    fun _ => rfl
  rw [hread] at h
  obtain ⟨⟨name, stop, behind⟩, hname, hafter⟩ := Except.bind_eq_ok_iff.1 h
  obtain ⟨front, rfl, hfront⟩ := readName_split hname
  obtain ⟨front', rfl, hlength, hfront'⟩ := fieldAfter_split hafter
  refine ⟨front ++ front', (List.append_assoc ..).symm, ?_, fun more => ?_⟩
  · rw [List.length_append]
    exact Nat.le_add_left_of_le hlength
  · rw [hread, List.append_assoc, hfront]
    exact hfront' more

/-- The first piece of a template is the same whatever follows what has been read. -/
theorem readPiece_split {piece : Piece} (h : readPiece c cs = .ok (piece, rest)) :
    ∃ front, cs = front ++ rest ∧ (∀ f, piece = .field f → f.layout.length ≤ front.length) ∧
      ∀ more, readPiece c (front ++ more) = .ok (piece, more) := by
  unfold readPiece at h
  split at h
  · next hopen =>
    cases cs with
    | nil => cases h
    | cons d cs =>
      dsimp only at h
      split at h
      · next htwice =>
        obtain ⟨rfl, rfl⟩ : .char c = piece ∧ cs = rest := by simpa using h
        refine ⟨[d], rfl, nofun, fun more => ?_⟩
        simp [readPiece, hopen, htwice]
      · next honce =>
        obtain ⟨⟨f, rest'⟩, hfield, heq⟩ := Except.map_eq_ok_iff.1 h
        obtain ⟨rfl, rfl⟩ : .field f = piece ∧ rest' = rest := by simpa using heq
        obtain ⟨front, hfront, hlength, hread⟩ := readField_split hfield
        refine ⟨front, hfront, fun _ hf => Piece.field.inj hf ▸ hlength, fun more => ?_⟩
        -- a field has a character at least
        cases front with
        | nil => simpa [readField, readName, bind, Except.bind] using hread []
        | cons e front =>
          obtain rfl : d = e := (List.cons.inj hfront).1
          have hmore := hread more
          rw [List.cons_append] at hmore
          simp [readPiece, hopen, honce, hmore, Except.map]
  · next hopen =>
    split at h
    · next hclose =>
      cases cs with
      | nil => cases h
      | cons d cs =>
        dsimp only at h
        split at h
        · next htwice =>
          obtain ⟨rfl, rfl⟩ : .char c = piece ∧ cs = rest := by simpa using h
          refine ⟨[d], rfl, nofun, fun more => ?_⟩
          simp [readPiece, hclose, htwice]
        · cases h
    · next hclose =>
      obtain ⟨rfl, rfl⟩ : .char c = piece ∧ cs = rest := by simpa using h
      exact ⟨[], rfl, nofun, fun more => readPiece_char hopen hclose more⟩

end

/-! ## Filling in part by part -/

section

variable {values values' : List (String × String)} {c : Char} {cs rest more text : List Char} {f : FieldText}
  {depth fuel fuel' : Nat}

/-- The layout of a field, whose own fields are filled in. -/
def filledLayout (values : List (String × String)) (depth fuel : Nat) (f : FieldText) :
    Except TemplateError (List Char) :=
  if f.layout.contains '\x7b' then fillFrom values depth fuel f.layout else .ok f.layout

theorem fillFrom_nil : fillFrom values (depth + 1) fuel [] = .ok [] := by
  cases fuel <;> rfl

theorem fillFrom_of_char {d : Char} (h : readPiece c cs = .ok (.char d, rest)) :
    fillFrom values (depth + 1) (fuel + 1) (c :: cs)
      = (fillFrom values (depth + 1) fuel rest).map (d :: ·) := by
  rw [fillFrom, h]
  simp only [bind, Except.bind]
  cases fillFrom values (depth + 1) fuel rest <;> rfl

theorem fillFrom_of_field (h : readPiece c cs = .ok (.field f, rest)) :
    fillFrom values (depth + 1) (fuel + 1) (c :: cs) = (do
      let value ← valueOf values f.name
      let shown ← convert f.conversion value
      let layout ← filledLayout values depth fuel f
      let laidOut ← layOut layout shown
      (fillFrom values (depth + 1) fuel rest).map (laidOut ++ ·)) := by
  rw [fillFrom, h, filledLayout]
  simp only [bind, Except.bind]
  cases valueOf values f.name with
  | error e => rfl
  | ok value =>
    dsimp only
    cases convert f.conversion value with
    | error e => rfl
    | ok shown =>
      dsimp only
      by_cases hnested : f.layout.contains '\x7b' = true
      · simp only [if_pos hnested]
        cases fillFrom values depth fuel f.layout with
        | error e => rfl
        | ok layout => cases fillFrom values (depth + 1) fuel rest <;> rfl
      · simp only [if_neg hnested]
        cases fillFrom values (depth + 1) fuel rest <;> rfl

/-- What is filled in is the same with any fuel that is enough. -/
theorem fillFrom_fuel (h : cs.length < fuel) (h' : cs.length < fuel') :
    fillFrom values depth fuel cs = fillFrom values depth fuel' cs := by
  -- by the fuel: the layout of a field and what follows a piece are both shorter than the text
  induction fuel generalizing cs depth fuel' with
  | zero => cases h
  | succ fuel ih =>
    obtain ⟨fuel', rfl⟩ := Nat.exists_eq_add_one_of_ne_zero (Nat.ne_zero_of_lt h')
    cases depth with
    | zero => rfl
    | succ depth =>
      cases cs with
      | nil => rfl
      | cons c cs =>
        cases hpiece : readPiece c cs with
        | error e => rw [fillFrom, fillFrom, hpiece]; rfl
        | ok read =>
          obtain ⟨piece, rest⟩ := read
          obtain ⟨front, rfl, hlayout, -⟩ := readPiece_split hpiece
          simp only [List.length_cons, List.length_append] at h h'
          have hrest : fillFrom values (depth + 1) fuel rest = fillFrom values (depth + 1) fuel' rest :=
            ih (by omega) (by omega)
          cases piece with
          | char d => rw [fillFrom_of_char hpiece, fillFrom_of_char hpiece, hrest]
          | field f =>
            have hlength := hlayout f rfl
            have hnested : fillFrom values depth fuel f.layout = fillFrom values depth fuel' f.layout :=
              ih (by omega) (by omega)
            have hfilled : filledLayout values depth fuel f = filledLayout values depth fuel' f := by
              rw [filledLayout, filledLayout, hnested]
            rw [fillFrom_of_field hpiece, fillFrom_of_field hpiece, hrest, hfilled]

/-- A name that is known is known among more values. -/
theorem valueOf_mono (hmore : ∀ name value, values.lookup name = some value → values'.lookup name = some value)
    {name value : List Char} (h : valueOf values name = .ok value) : valueOf values' name = .ok value := by
  unfold valueOf at h ⊢
  dsimp only at h ⊢
  split at h
  · cases h
  · next hfirst =>
    rw [if_neg hfirst]
    split at h
    · cases h
    · split at h
      · cases h
      · next found hfound =>
        rw [hmore _ _ hfound]
        exact h

/-- A layout that is filled in is filled in wherever its template is. -/
theorem filledLayout_mono {layout : List Char}
    (hnested : fillFrom values depth fuel f.layout = .ok layout → fillFrom values' depth fuel' f.layout = .ok layout)
    (h : filledLayout values depth fuel f = .ok layout) : filledLayout values' depth fuel' f = .ok layout := by
  unfold filledLayout at h ⊢
  split at h
  · next hopen =>
    rw [if_pos hopen]
    exact hnested h
  · next hplain => rwa [if_neg hplain]

/-- Nothing is filled in at no depth. -/
theorem exists_depth_of_fillFrom (hfuel : 0 < fuel) (h : fillFrom values depth fuel cs = .ok text) :
    ∃ depth', depth = depth' + 1 := by
  obtain ⟨fuel, rfl⟩ := Nat.exists_eq_add_one_of_ne_zero (Nat.ne_zero_of_lt hfuel)
  cases depth with
  | zero => cases h
  | succ depth => exact ⟨depth, rfl⟩

/-- A template is filled in part by part, and what it gives it gives with more values, too. -/
theorem fillFrom_append (hmore : ∀ name value, values.lookup name = some value → values'.lookup name = some value)
    (h : fillFrom values depth fuel cs = .ok text) (hfuel : cs.length < fuel) (hfuel' : (cs ++ more).length < fuel') :
    fillFrom values' depth fuel' (cs ++ more) = (fillFrom values' depth fuel' more).map (text ++ ·) := by
  -- by the fuel: a piece is read as it was, and a layout is a whole text with nothing behind it
  induction fuel generalizing cs depth fuel' more text with
  | zero => cases hfuel
  | succ fuel ih =>
    obtain ⟨fuel', rfl⟩ := Nat.exists_eq_add_one_of_ne_zero (Nat.ne_zero_of_lt hfuel')
    cases depth with
    | zero => cases h
    | succ depth =>
      cases cs with
      | nil =>
        obtain rfl : [] = text := Except.ok.inj (fillFrom_nil.symm.trans h)
        cases hrest : fillFrom values' (depth + 1) (fuel' + 1) more <;> simp [hrest, Except.map]
      | cons c cs =>
        have hread : ∃ read, readPiece c cs = .ok read := by
          rw [fillFrom] at h
          obtain ⟨read, hpiece, -⟩ := Except.bind_eq_ok_iff.1 h
          exact ⟨read, hpiece⟩
        obtain ⟨⟨piece, rest⟩, hpiece⟩ := hread
        obtain ⟨front, rfl, hlayout, hfront⟩ := readPiece_split hpiece
        have hpiece' := hfront (rest ++ more)
        simp only [List.length_cons, List.length_append] at hfuel hfuel'
        have hlast : fillFrom values' (depth + 1) (fuel' + 1) more = fillFrom values' (depth + 1) fuel' more :=
          fillFrom_fuel (by omega) (by omega)
        have hlater : (rest ++ more).length < fuel' := by
          rw [List.length_append]
          omega
        rw [List.cons_append, List.append_assoc, hlast]
        cases piece with
        | char d =>
          rw [fillFrom_of_char hpiece] at h
          obtain ⟨behind, hbehind, rfl⟩ := Except.map_eq_ok_iff.1 h
          rw [fillFrom_of_char hpiece', ih hbehind (by omega) hlater]
          cases fillFrom values' (depth + 1) fuel' more <;> rfl
        | field f =>
          have hlength := hlayout f rfl
          rw [fillFrom_of_field hpiece] at h
          obtain ⟨value, hvalue, h⟩ := Except.bind_eq_ok_iff.1 h
          obtain ⟨shown, hshown, h⟩ := Except.bind_eq_ok_iff.1 h
          obtain ⟨layout, hfilled, h⟩ := Except.bind_eq_ok_iff.1 h
          obtain ⟨laidOut, hlaidOut, h⟩ := Except.bind_eq_ok_iff.1 h
          obtain ⟨behind, hbehind, rfl⟩ := Except.map_eq_ok_iff.1 h
          have hfilled' : filledLayout values' depth fuel' f = .ok layout := by
            refine filledLayout_mono (fun hnested => ?_) hfilled
            have hwhole := @ih f.layout [] layout depth fuel' hnested (by omega) (by rw [List.append_nil]; omega)
            obtain ⟨depth, rfl⟩ := exists_depth_of_fillFrom (by omega) hnested
            rw [← List.append_nil f.layout, hwhole, fillFrom_nil, Except.map, List.append_nil]
          rw [fillFrom_of_field hpiece', ih hbehind (by omega) hlater]
          simp only [bind, Except.bind, valueOf_mono hmore hvalue, hshown, hfilled', hlaidOut]
          cases fillFrom values' (depth + 1) fuel' more <;> simp [Except.map]

/-- A template is filled in part by part, and what a part gives it gives with more values, too. -/
theorem fill_append {front back : String} {text text' : String}
    (hmore : ∀ name value, values.lookup name = some value → values'.lookup name = some value)
    (h : fill front values = .ok text) (h' : fill back values' = .ok text') :
    fill (front ++ back) values' = .ok (text ++ text') := by
  unfold fill at h h' ⊢
  obtain ⟨shown, hshown, rfl⟩ := Except.map_eq_ok_iff.1 h
  obtain ⟨shown', hshown', rfl⟩ := Except.map_eq_ok_iff.1 h'
  have hlength : (front ++ back).length = front.toList.length + back.toList.length := by
    simp only [String.length_append, String.length_toList]
  have hback : fillFrom values' 2 ((front ++ back).length + 1) back.toList = .ok shown' := by
    rw [← hshown']
    exact fillFrom_fuel (by omega) (by rw [String.length_toList]; omega)
  have hwhole : fillFrom values' 2 ((front ++ back).length + 1) (front.toList ++ back.toList)
      = (fillFrom values' 2 ((front ++ back).length + 1) back.toList).map (shown ++ ·) :=
    fillFrom_append hmore hshown (by rw [String.length_toList]; omega) (by rw [List.length_append]; omega)
  rw [String.toList_append, hwhole, hback]
  simp only [Except.map, String.ofList_append]

end

end Folio.Template
