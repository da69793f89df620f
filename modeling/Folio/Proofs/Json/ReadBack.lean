import Folio.Proofs.Json.Names
import Folio.Proofs.Json.Numbers
import Folio.Proofs.Json.Strings

set_option autoImplicit false

/-! # Plain data read back

What is written in a style that keeps every number is read back, whatever follows it that cannot belong
to a number (`readValue_chars`). The text of a list or an object is taken apart the way it is put
together: between its brackets stand parts with commas and blanks (`bracket_eq`), and each part is read
before the rest. A whole text gives the data that it was written from if names are different and no integer
is huge: a file if no text in it has halves (`readChars_chars`), and what stays in memory in any case
(`readPoints_withHalves`). -/

namespace Folio.Json

/-- A style whose text keeps every number: it has the words for those that are not finite, and writes
    zero without an exponent. -/
structure Style.KeepsNumbers (style : Style) : Prop where
  nan : style.floats.nanText = "NaN"
  infinity : style.floats.infinityText = "Infinity"
  zero : style.floats.plainFrom ≤ 0 ∧ 0 < style.floats.plainBelow
  all : style.finiteOnly = false

/-- A style whose text is read back: what it escapes as pairs is joined. -/
structure Style.IsReadBy (style : Style) (joins : Bool) : Prop extends style.KeepsNumbers where
  ascii : style.asciiOnly = true → joins = true

theorem isReadBy_oneLine (joins : Bool) : oneLine.IsReadBy joins := ⟨⟨rfl, rfl, by decide, rfl⟩, nofun⟩

theorem isReadBy_asciiLines : asciiLines.IsReadBy true := ⟨⟨rfl, rfl, by decide, rfl⟩, fun _ => rfl⟩

/-! ## Blanks -/

/-- Whether a character may stand between tokens. -/
def isSpace (c : Char) : Bool :=
  c == ' ' || c == '\t' || c == '\n' || c == '\r'

/-- Blanks that may stand between tokens. -/
def IsSpace (cs : List Char) : Prop :=
  ∀ c ∈ cs, isSpace c = true

theorem isSpace_nil : IsSpace [] := by simp [IsSpace]

theorem isSpace_singleton : IsSpace [' '] := by simp [IsSpace, isSpace]

theorem skipSpace_eq_dropWhile (cs : List Char) : skipSpace cs = cs.dropWhile isSpace := rfl

theorem isSpace_newLine (level : Nat) : IsSpace (newLine level) := by
  intro c hc
  rcases List.mem_cons.1 hc with rfl | hc
  · rfl
  · obtain rfl := List.eq_of_mem_replicate hc
    rfl

/-- A text that starts with the first character of some data. -/
def StartsData (cs : List Char) : Prop :=
  ∃ c ds, cs = c :: ds ∧ isSpace c = false ∧ c ≠ ']' ∧ c ≠ '\x7d' ∧ c ≠ '\uFEFF'

theorem skipSpace_append {space : List Char} (hspace : IsSpace space) (rest : List Char) :
    skipSpace (space ++ rest) = skipSpace rest := by
  induction space with
  | nil => rfl
  | cons c cs ih =>
    rw [List.cons_append, skipSpace_eq_dropWhile, List.dropWhile_cons_of_pos (hspace c (by simp))]
    exact ih fun d hd => hspace d (List.mem_cons_of_mem _ hd)

/-- A character that is no blank is where reading goes on. -/
theorem skipSpace_append_cons {space : List Char} (hspace : IsSpace space) {c : Char}
    (hc : isSpace c = false) (rest : List Char) : skipSpace (space ++ c :: rest) = c :: rest := by
  rw [skipSpace_append hspace, skipSpace_eq_dropWhile,
    List.dropWhile_cons_of_neg (by simp [hc])]

theorem StartsData.skipSpace_eq {cs : List Char} (h : StartsData cs) : skipSpace cs = cs := by
  obtain ⟨c, ds, rfl, hc, -⟩ := h
  exact skipSpace_append_cons isSpace_nil hc ds

theorem StartsData.append {cs : List Char} (h : StartsData cs) (rest : List Char) :
    StartsData (cs ++ rest) := by
  obtain ⟨c, ds, rfl, hc⟩ := h
  exact ⟨c, ds ++ rest, rfl, hc⟩

theorem StartsData.head?_ne_bracket {cs : List Char} (h : StartsData cs) : cs.head? ≠ some ']' := by
  obtain ⟨c, ds, rfl, -, hc, -⟩ := h
  simpa using hc

theorem StartsData.head?_ne_brace {cs : List Char} (h : StartsData cs) : cs.head? ≠ some '\x7d' := by
  obtain ⟨c, ds, rfl, -, -, hc, -⟩ := h
  simpa using hc

theorem skipSpace_comma (rest : List Char) : skipSpace (',' :: rest) = ',' :: rest :=
  skipSpace_append_cons isSpace_nil (by decide) rest

/-- Blanks end a number, and so does what may follow them. -/
theorem stops_space {space rest : List Char} (hspace : IsSpace space) (hrest : Stops rest) :
    Stops (space ++ rest) := by
  cases space with
  | nil => exact hrest
  | cons c cs =>
    have hc := hspace c (by simp)
    simp only [isSpace, Bool.or_eq_true, beq_iff_eq] at hc
    rcases hc with ((rfl | rfl) | rfl) | rfl <;>
      exact stops_cons _ (by decide) (by decide) (by decide) (by decide)

/-! ## Words, numbers and strings -/

theorem startsData_number {cs : List Char} (h : StartsNumber cs) : StartsData cs := by
  obtain ⟨negative, c, ds, rfl, hc⟩ := h
  cases negative with
  | true => exact ⟨'-', c :: ds, rfl, by decide, by decide, by decide, by decide⟩
  | false =>
    have hspace := ne_of_isAsciiDigit (d := ' ') hc (by decide)
    have htab := ne_of_isAsciiDigit (d := '\t') hc (by decide)
    have hline := ne_of_isAsciiDigit (d := '\n') hc (by decide)
    have hreturn := ne_of_isAsciiDigit (d := '\r') hc (by decide)
    exact ⟨c, ds, rfl, by simp [isSpace, hspace, htab, hline, hreturn],
      ne_of_isAsciiDigit hc (by decide), ne_of_isAsciiDigit hc (by decide),
      ne_of_isAsciiDigit hc (by decide)⟩

/-- The text of a number that is finite, and what is read from it. -/
theorem floatChars_finite {style : Style} (hstyle : style.KeepsNumbers) (negative : Bool)
    {mantissa : Nat} {exponent : Int} (h : Binary64.IsSpelling mantissa exponent) :
    StartsNumber (floatChars style (.finite negative mantissa exponent h)) ∧
      ∀ rest, Stops rest → readNumber (floatChars style (.finite negative mantissa exponent h) ++ rest)
        = .ok (.float (.finite negative mantissa exponent h), rest) := by
  obtain ⟨n, hwell, htext, hvalue⟩ := Binary64.numeral_toText style.floats hstyle.zero negative h
  have hchars : floatChars style (.finite negative mantissa exponent h)
      = (if negative then ['-'] else []) ++ n.chars := by
    rw [← htext, floatChars, hstyle.all]
    rfl
  refine ⟨?_, fun rest hrest => ?_⟩
  · have hstart := startsNumber_whole negative hwell.whole (pointed n.fraction ++ (n.exponent ++ []))
    rwa [← chars_append, List.append_nil, ← hchars] at hstart
  · rw [hchars, List.append_assoc, readNumber_numeral negative hwell hrest, hvalue]

/-- The first character of data's text. -/
theorem startsData_chars {style : Style} (hstyle : style.KeepsNumbers) (level : Nat) (j : Json) :
    StartsData (chars style level j) := by
  cases j with
  | null => exact ⟨'n', _, rfl, by decide, by decide, by decide, by decide⟩
  | bool b =>
    cases b
    · exact ⟨'f', _, rfl, by decide, by decide, by decide, by decide⟩
    · exact ⟨'t', _, rfl, by decide, by decide, by decide, by decide⟩
  | int n =>
    have h := startsNumber_whole (decide (n < 0)) (Binary64.Numeral.isWhole_toDigits n.natAbs) []
    rw [List.append_nil, ← toList_toString] at h
    exact startsData_number (by rwa [chars])
  | float x =>
    rw [chars]
    cases x with
    | finite negative mantissa exponent h =>
      exact startsData_number (floatChars_finite hstyle negative h).1
    | nan =>
      rw [floatChars, hstyle.all, Bool.false_and, if_neg Bool.false_ne_true, Binary64.toText,
        hstyle.nan]
      exact ⟨'N', _, rfl, by decide, by decide, by decide, by decide⟩
    | infinite negative =>
      rw [floatChars, hstyle.all, Bool.false_and, if_neg Bool.false_ne_true, Binary64.toText,
        hstyle.infinity]
      cases negative
      · exact ⟨'I', _, rfl, by decide, by decide, by decide, by decide⟩
      · exact ⟨'-', _, rfl, by decide, by decide, by decide, by decide⟩
  | string _ | broken _ => exact ⟨'"', _, rfl, by decide, by decide, by decide, by decide⟩
  | array items =>
    rw [chars, bracket]
    split_ifs <;> exact ⟨'[', _, rfl, by decide, by decide, by decide, by decide⟩
  | object members =>
    rw [chars, bracket]
    split_ifs <;> exact ⟨'\x7b', _, rfl, by decide, by decide, by decide, by decide⟩

/-! ## Parts between brackets -/

/-- Between brackets stand parts with commas; blanks may stand around them. -/
theorem bracket_eq (style : Style) (level : Nat) (first last : Char) (parts : List (List Char)) :
    ∃ lead gap trail, IsSpace lead ∧ IsSpace gap ∧ IsSpace trail ∧
      bracket style level first last parts
        = first :: (lead ++ (List.intercalate (',' :: gap) parts ++ (trail ++ [last]))) := by
  unfold bracket
  split
  next h =>
    rw [List.isEmpty_iff] at h
    subst h
    exact ⟨[], [], [], isSpace_nil, isSpace_nil, isSpace_nil, rfl⟩
  next =>
    split
    next =>
      exact ⟨newLine (level + 1), newLine (level + 1), newLine level, isSpace_newLine _,
        isSpace_newLine _, isSpace_newLine _, by simp⟩
    next =>
      exact ⟨[], [' '], [], isSpace_nil, isSpace_singleton, isSpace_nil, by simp⟩

theorem intercalate_cons (sep a : List Char) {parts : List (List Char)} (h : parts ≠ []) :
    List.intercalate sep (a :: parts) = a ++ (sep ++ List.intercalate sep parts) := by
  obtain ⟨b, rest, rfl⟩ := List.exists_cons_of_ne_nil h
  simp [List.intercalate]

theorem intercalate_singleton (sep a : List Char) : List.intercalate sep [a] = a := by
  simp [List.intercalate]

theorem itemChars_ne_nil (style : Style) (level : Nat) (item : Json) (items : List Json) :
    itemChars style level (item :: items) ≠ [] := by
  simp [itemChars]

theorem memberChars_ne_nil (style : Style) (level : Nat) (member : String × Json)
    (members : List (String × Json)) : memberChars style level (member :: members) ≠ [] := by
  simp [memberChars]

/-- Items start as their first does. -/
theorem startsData_items {style : Style} (hstyle : style.KeepsNumbers) (level : Nat) (item : Json)
    (items : List Json) (sep rest : List Char) :
    StartsData (List.intercalate sep (itemChars style level (item :: items)) ++ rest) := by
  have hitem := startsData_chars hstyle level item
  cases items with
  | nil =>
    rw [itemChars, itemChars, intercalate_singleton]
    exact hitem.append rest
  | cons item' items =>
    rw [itemChars, intercalate_cons _ _ (itemChars_ne_nil _ _ _ _), List.append_assoc]
    exact hitem.append _

/-- Members start with the quote of a name. -/
theorem startsData_members (style : Style) (level : Nat) (member : String × Json)
    (members : List (String × Json)) (sep rest : List Char) :
    StartsData (List.intercalate sep (memberChars style level (member :: members)) ++ rest) := by
  obtain ⟨name, j⟩ := member
  have hquote (more : List Char) : StartsData (stringChars style.asciiOnly name.toList ++ more) :=
    ⟨'"', _, rfl, by decide, by decide, by decide, by decide⟩
  cases members with
  | nil =>
    rw [memberChars, memberChars, intercalate_singleton, List.append_assoc]
    exact hquote _
  | cons member members =>
    rw [memberChars, intercalate_cons _ _ (memberChars_ne_nil _ _ _ _), List.append_assoc,
      List.append_assoc]
    exact hquote _

/-! ## Data -/

variable {style : Style} {joins : Bool}

mutual

/-- Data is read from the front of a text. -/
theorem readValue_chars (hstyle : style.IsReadBy joins) (j : Json) (hnames : hasDistinctNames j = true)
    (hhuge : hasHugeInteger j = false) (hwhole : joins = true → firstBroken? j = none) (level fuel : Nat) {rest : List Char} (hrest : Stops rest)
    (hfuel : 2 * (chars style level j).length ≤ fuel) :
    readValue joins fuel (chars style level j ++ rest) = .ok (j, rest) := by
  obtain ⟨fuel, rfl⟩ : ∃ n, fuel = n + 1 := by
    obtain ⟨c, ds, hcs, -⟩ := startsData_chars hstyle.toKeepsNumbers level j
    rw [hcs, List.length_cons] at hfuel
    exact ⟨fuel - 1, by omega⟩
  cases j with
  | null => rw [chars]; rfl
  | bool b =>
    rw [chars]
    cases b <;> rfl
  | int n =>
    have hstart := startsNumber_whole (decide (n < 0)) (Binary64.Numeral.isWhole_toDigits n.natAbs)
      rest
    rw [← List.append_assoc, ← toList_toString] at hstart
    rw [chars, readValue_number hstart, readNumber_int hhuge hrest]
  | float x =>
    rw [chars]
    cases x with
    | finite negative mantissa exponent h =>
      obtain ⟨hstart, hread⟩ := floatChars_finite hstyle.toKeepsNumbers negative h
      rw [readValue_number (hstart.append rest), hread rest hrest]
    | nan =>
      rw [floatChars, hstyle.all, Bool.false_and, if_neg Bool.false_ne_true, Binary64.toText,
        hstyle.nan]
      rfl
    | infinite negative =>
      rw [floatChars, hstyle.all, Bool.false_and, if_neg Bool.false_ne_true, Binary64.toText,
        hstyle.infinity]
      cases negative <;> rfl
  | string s =>
    have hread := readQuoted_flatMap hstyle.ascii (fun _ => Text.any_isHalf_points s.toList) rest
    rw [chars, stringChars_eq, brokenChars, List.cons_append, List.cons_append, List.append_assoc, List.singleton_append,
      readValue, hread]
    simp only [Except.map, ofPoints, Text.ofPoints_points, String.ofList_toList]
  | broken t =>
    have hjoins : joins = true → t.points.any Text.Point.isHalf = false := fun hjoins => by cases hwhole hjoins
    have hread := readQuoted_flatMap hstyle.ascii hjoins rest
    rw [chars, brokenChars, List.cons_append, List.cons_append, List.append_assoc, List.singleton_append, readValue, hread]
    simp only [Except.map, ofPoints, Text.ofPoints_broken]
  | array items =>
    rw [chars] at hfuel ⊢
    obtain ⟨lead, gap, trail, hlead, hgap, htrail, htext⟩ :=
      bracket_eq style level '[' ']' (itemChars style (level + 1) items)
    cases items with
    | nil => rfl
    | cons item items =>
      rw [htext] at hfuel ⊢
      simp only [List.cons_append, List.append_assoc, List.nil_append, List.length_cons,
        List.length_append] at hfuel ⊢
      have hstart := startsData_items hstyle.toKeepsNumbers (level + 1) item items (',' :: gap)
        (trail ++ ']' :: rest)
      have hread := readItems_chars hstyle (item :: items) (List.cons_ne_nil _ _) hnames hhuge hwhole
        (level + 1) fuel hgap htrail rest (by omega)
      rw [readValue, skipSpace_append hlead, hstart.skipSpace_eq, if_neg hstart.head?_ne_bracket,
        hread]
      rfl
  | object members =>
    rw [chars] at hfuel ⊢
    rw [hasDistinctNames_object] at hnames
    obtain ⟨lead, gap, trail, hlead, hgap, htrail, htext⟩ :=
      bracket_eq style level '\x7b' '\x7d' (memberChars style (level + 1) members)
    cases members with
    | nil => rfl
    | cons member members =>
      rw [htext] at hfuel ⊢
      simp only [List.cons_append, List.append_assoc, List.nil_append, List.length_cons,
        List.length_append] at hfuel ⊢
      have hstart := startsData_members style (level + 1) member members (',' :: gap)
        (trail ++ '\x7d' :: rest)
      have hread := readMembers_chars hstyle (member :: members) (List.cons_ne_nil _ _) hnames.2 hhuge hwhole
        (level + 1) fuel hgap htrail rest (by omega)
      rw [readValue, skipSpace_append hlead, hstart.skipSpace_eq, if_neg hstart.head?_ne_brace, hread]
      simp only [Except.map, membersOf_of_nodup hnames.1]

/-- The items of a list are read up to its closing bracket. -/
theorem readItems_chars (hstyle : style.IsReadBy joins) (items : List Json) (hne : items ≠ [])
    (hnames : itemsHaveDistinctNames items = true) (hhuge : anyHugeInteger items = false)
    (hwhole : joins = true → firstBrokenItem? items = none) (level fuel : Nat) {gap trail : List Char} (hgap : IsSpace gap) (htrail : IsSpace trail)
    (rest : List Char)
    (hfuel : 2 * (List.intercalate (',' :: gap) (itemChars style level items)).length < fuel) :
    readItems joins fuel (List.intercalate (',' :: gap) (itemChars style level items) ++
      (trail ++ ']' :: rest)) = .ok (items, rest) := by
  obtain ⟨fuel, rfl⟩ : ∃ n, fuel = n + 1 := ⟨fuel - 1, by omega⟩
  cases items with
  | nil => exact absurd rfl hne
  | cons j items =>
    rw [itemsHaveDistinctNames, Bool.and_eq_true] at hnames
    rw [anyHugeInteger, Bool.or_eq_false_iff] at hhuge
    simp only [firstBrokenItem?, Option.or_eq_none_iff] at hwhole
    have hfirst := fun hjoins => (hwhole hjoins).1
    have hothers := fun hjoins => (hwhole hjoins).2
    cases items with
    | nil =>
      simp only [itemChars, intercalate_singleton] at hfuel ⊢
      have hstops : Stops (trail ++ ']' :: rest) :=
        stops_space htrail (stops_cons _ (by decide) (by decide) (by decide) (by decide))
      rw [readItems, readValue_chars hstyle j hnames.1 hhuge.1 hfirst level fuel hstops (by omega)]
      simp only [skipSpace_append_cons htrail (show isSpace ']' = false by decide)]
    | cons item items =>
      have hmore := readItems_chars hstyle (item :: items) (List.cons_ne_nil _ _) hnames.2 hhuge.2 hothers
        level fuel hgap htrail rest
      have hstart := startsData_items hstyle.toKeepsNumbers level item items (',' :: gap) (trail ++ ']' :: rest)
      rw [itemChars, intercalate_cons _ _ (itemChars_ne_nil _ _ _ _)] at hfuel ⊢
      simp only [List.append_assoc, List.cons_append, List.length_append, List.length_cons] at hfuel ⊢
      rw [readItems, readValue_chars hstyle j hnames.1 hhuge.1 hfirst level fuel
        (stops_cons _ (by decide) (by decide) (by decide) (by decide)) (by omega)]
      simp only [skipSpace_comma, skipSpace_append hgap, hstart.skipSpace_eq, hmore (by omega)]
      rfl

/-- The members of an object are read up to its closing brace. -/
theorem readMembers_chars (hstyle : style.IsReadBy joins) (members : List (String × Json))
    (hne : members ≠ []) (hnames : membersHaveDistinctNames members = true)
    (hhuge : anyHugeMember members = false) (hwhole : joins = true → firstBrokenMember? members = none) (level fuel : Nat) {gap trail : List Char}
    (hgap : IsSpace gap) (htrail : IsSpace trail) (rest : List Char)
    (hfuel : 2 * (List.intercalate (',' :: gap) (memberChars style level members)).length < fuel) :
    readMembers joins fuel (List.intercalate (',' :: gap) (memberChars style level members) ++
      (trail ++ '\x7d' :: rest)) = .ok (members, rest) := by
  obtain ⟨fuel, rfl⟩ : ∃ n, fuel = n + 1 := ⟨fuel - 1, by omega⟩
  cases members with
  | nil => exact absurd rfl hne
  | cons member members =>
    obtain ⟨name, j⟩ := member
    rw [membersHaveDistinctNames, Bool.and_eq_true] at hnames
    rw [anyHugeMember, Bool.or_eq_false_iff] at hhuge
    simp only [firstBrokenMember?, Option.or_eq_none_iff] at hwhole
    have hfirst := fun hjoins => (hwhole hjoins).1
    have hothers := fun hjoins => (hwhole hjoins).2
    -- the name is read up to its colon, and then the value
    have hname (more : List Char) : readName joins ((Text.points name.toList).flatMap (stringPoint style.asciiOnly) ++
        '"' :: ':' :: ' ' :: (chars style level j ++ more))
          = .ok (name, ':' :: ' ' :: (chars style level j ++ more)) := by
      rw [readName, readQuoted_flatMap hstyle.ascii (fun _ => Text.any_isHalf_points _)]
      simp only [Text.ofPoints_points, String.ofList_toList]
    have hcolon (more : List Char) : skipSpace (':' :: more) = ':' :: more :=
      skipSpace_append_cons isSpace_nil (by decide) more
    have hvalue (more : List Char) : skipSpace (' ' :: (chars style level j ++ more))
        = chars style level j ++ more := by
      have h := skipSpace_append isSpace_singleton (chars style level j ++ more)
      rwa [((startsData_chars hstyle.toKeepsNumbers level j).append more).skipSpace_eq] at h
    cases members with
    | nil =>
      rw [memberChars, memberChars, intercalate_singleton, stringChars_eq, brokenChars] at hfuel ⊢
      simp only [List.cons_append, List.append_assoc, List.nil_append, List.length_cons,
        List.length_append] at hfuel ⊢
      have hstops : Stops (trail ++ '\x7d' :: rest) :=
        stops_space htrail (stops_cons _ (by decide) (by decide) (by decide) (by decide))
      have hread := readValue_chars hstyle j hnames.1 hhuge.1 hfirst level fuel hstops (by omega)
      simp only [readMembers, hname, hcolon, hvalue, hread,
        skipSpace_append_cons htrail (show isSpace '\x7d' = false by decide)]
    | cons member members =>
      have hmore := readMembers_chars hstyle (member :: members) (List.cons_ne_nil _ _) hnames.2
        hhuge.2 hothers level fuel hgap htrail rest
      have hstart := startsData_members style level member members (',' :: gap)
        (trail ++ '\x7d' :: rest)
      rw [memberChars, intercalate_cons _ _ (memberChars_ne_nil _ _ _ _), stringChars_eq, brokenChars] at hfuel ⊢
      simp only [List.cons_append, List.append_assoc, List.nil_append, List.length_cons,
        List.length_append] at hfuel ⊢
      have hread (more : List Char) := readValue_chars hstyle j hnames.1 hhuge.1 hfirst level fuel
        (stops_cons (c := ',') more (by decide) (by decide) (by decide) (by decide)) (by omega)
      simp only [readMembers, hname, hcolon, hvalue, hread, skipSpace_comma, skipSpace_append hgap,
        hstart.skipSpace_eq, hmore (by omega)]
      rfl

end

/-- Plain data is read back from its text by a reader of texts in its style. -/
theorem readData_chars (hstyle : style.IsReadBy joins) {j : Json} (hnames : hasDistinctNames j = true)
    (hhuge : hasHugeInteger j = false) (hwhole : joins = true → firstBroken? j = none) :
    readData joins (chars style 0 j) = .ok j := by
  have hstart := startsData_chars hstyle.toKeepsNumbers 0 j
  have hmark : (chars style 0 j).head? ≠ some '\uFEFF' := by
    obtain ⟨c, ds, hcs, -, -, -, hc⟩ := hstart
    rw [hcs]
    simpa using hc
  have hread := readValue_chars hstyle j hnames hhuge hwhole 0 (2 * (chars style 0 j).length + 2) stops_nil
    (by omega)
  rw [List.append_nil] at hread
  rw [readData, if_neg hmark, hstart.skipSpace_eq, hread]
  rfl

/-- Plain data without halves is read back from a file. -/
theorem readChars_chars (hstyle : style.IsReadBy true) {j : Json} (hnames : hasDistinctNames j = true)
    (hhuge : hasHugeInteger j = false) (hwhole : firstBroken? j = none) : readChars (chars style 0 j) = .ok j :=
  readData_chars hstyle hnames hhuge fun _ => hwhole

/-! ## Texts in memory -/

/-- The escape of a half is what stands for it. -/
theorem eq_of_halfEscape? {cs : List Char} {h : Text.Half} (hcs : halfEscape? cs = some h) :
    '\\' :: cs = escapeUnit (Text.halfNumber h) ++ cs.drop 5 := by
  unfold halfEscape? at hcs
  split at hcs
  · next ds =>
    obtain ⟨-, hdigits⟩ := Option.filter_eq_some_iff.1 hcs
    rw [escapeUnit, eq_of_beq hdigits]
    simp
  · cases hcs

theorem withEscapes_halvesFrom (n : Nat) (cs : List Char) : withEscapes (halvesFrom n cs) = cs.drop n := by
  fun_induction halvesFrom n cs with
  | case1 n => simp [withEscapes]
  | case2 n c cs ih => exact ih
  | case3 cs h hescape ih =>
    rw [List.drop_zero, eq_of_halfEscape? hescape, ← ih]
    rfl
  | case4 d cs hescape ih =>
    rw [List.drop_zero] at ih
    exact congrArg (['\\', d] ++ ·) ih
  | case5 => rfl
  | case6 c cs hother ih =>
    rw [List.drop_zero] at ih
    exact congrArg (c :: ·) ih

/-- Halves in place of their escapes are escaped as they were. -/
theorem withEscapes_withHalves (cs : List Char) : withEscapes (withHalves cs) = cs :=
  withEscapes_halvesFrom 0 cs

/-- Plain data is read back from its text in memory, with its halves. -/
theorem readPoints_withHalves {j : Json} (hnames : hasDistinctNames j = true) (hhuge : hasHugeInteger j = false) :
    readPoints (withHalves (chars oneLine 0 j)) = .ok j := by
  rw [readPoints, withEscapes_withHalves]
  exact readData_chars (isReadBy_oneLine false) hnames hhuge nofun

end Folio.Json
