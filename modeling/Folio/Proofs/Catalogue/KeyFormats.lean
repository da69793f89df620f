import Folio.Catalogue
import Folio.Proofs.Path.Names
import Folio.Settings

set_option autoImplicit false

/-! # Keys of the default formats

A template of characters and plain fields is filled in piece by piece (`fillFrom_cons`, `fillFrom_pieces`).
So the first of the default formats makes the key under which a build lists a page, and the slug is read
back from that key (`keyFor_default`, `slugFor_default`). What keys start with may be any text in which
the slug's place can be marked. -/

namespace Folio

/-! ## Templates -/

namespace Template

/-- A name is looked up as it stands: no character of it ends it or steps into a value, and it is no
    number. -/
structure IsPlain (name : List Char) : Prop where
  nonempty : name ≠ []
  chars : ∀ c ∈ name, c ∉ ['\x7b', '\x7d', '[', ':', '!', '.']
  notNumber : number? name = none

theorem readName_plain {name : List Char} (h : ∀ c ∈ name, c ∉ ['\x7b', '\x7d', '[', ':', '!', '.'])
    (rest : List Char) : readName false (name ++ '\x7d' :: rest) = .ok (name, '\x7d', rest) := by
  induction name with
  | nil => rfl
  | cons c name ih =>
    have hc := h c List.mem_cons_self
    simp only [List.mem_cons, List.not_mem_nil, or_false, not_or] at hc
    obtain ⟨hopen, hclose, hbracket, hcolon, hmark, -⟩ := hc
    have hrest := ih fun d hd => h d (List.mem_cons_of_mem _ hd)
    rw [List.cons_append, readName]
    simp only [Bool.false_eq_true, if_false, if_neg hopen, if_neg hbracket, hclose, hcolon, hmark, or_self,
      hrest]
    rfl

variable {values : List (String × String)} {name : List Char} {value : String}

theorem IsPlain.readField (h : IsPlain name) (rest : List Char) :
    readField (name ++ '\x7d' :: rest) = .ok (⟨name, none, []⟩, rest) := by
  unfold Template.readField
  rw [readName_plain h.chars]
  rfl

theorem IsPlain.valueOf (h : IsPlain name) (hvalue : values.lookup (String.ofList name) = some value) :
    valueOf values name = .ok value.toList := by
  have hwhole : name.takeWhile (fun c => c != '.' && c != '[') = name := by
    have hall : ∀ c ∈ name, (c != '.' && c != '[') = true := by
      intro c hc
      have hkept := h.chars c hc
      simp only [List.mem_cons, List.not_mem_nil, or_false, not_or] at hkept
      simp [hkept]
    simpa using @List.takeWhile_append_of_pos _ _ name [] hall
  unfold Template.valueOf
  simp only [hwhole, List.isEmpty_eq_false_iff.2 h.nonempty, Bool.false_eq_true, if_false, h.notNumber,
    hvalue, List.drop_length]
  rfl

theorem readPiece_char {c : Char} (hopen : c ≠ '\x7b') (hclose : c ≠ '\x7d') (cs : List Char) :
    readPiece c cs = .ok (.char c, cs) := by
  unfold readPiece
  rw [if_neg hopen, if_neg hclose]

theorem IsPlain.readPiece (h : IsPlain name) (rest : List Char) :
    readPiece '\x7b' (name ++ '\x7d' :: rest) = .ok (.field ⟨name, none, []⟩, rest) := by
  have hfield := h.readField rest
  obtain ⟨c, cs, rfl⟩ := List.exists_cons_of_ne_nil h.nonempty
  have hc := h.chars c List.mem_cons_self
  simp only [List.mem_cons, not_or] at hc
  rw [List.cons_append] at hfield ⊢
  unfold Template.readPiece
  rw [if_pos rfl]
  simp only [if_neg hc.1, hfield]
  rfl

/-- A text is laid out without a layout as it is. -/
theorem layOut_nil (value : List Char) : layOut [] value = .ok value := by
  have hpad : pad ' ' .left 0 value = value := by simp [pad]
  exact congrArg Except.ok hpad

/-! ### Pieces -/

/-- How a piece is written in a template. -/
def Piece.spell : Piece → List Char
  | .char c => [c]
  | .field f => '\x7b' :: (f.name ++ ['\x7d'])

/-- What a piece gives wherever it stands. -/
inductive Piece.Gives (values : List (String × String)) : Piece → List Char → Prop
  | char {c : Char} (opens : c ≠ '\x7b') (closes : c ≠ '\x7d') : Gives values (.char c) [c]
  | field {name : List Char} {value : String} (plain : IsPlain name)
      (named : values.lookup (String.ofList name) = some value) :
      Gives values (.field ⟨name, none, []⟩) value.toList

theorem fillFrom_cons {piece : Piece} {text : List Char} (h : piece.Gives values text) (depth fuel : Nat)
    (cs : List Char) : fillFrom values (depth + 1) (fuel + 1) (piece.spell ++ cs)
      = (fillFrom values (depth + 1) fuel cs).map (text ++ ·) := by
  cases h with
  | @char c opens closes =>
    change fillFrom values (depth + 1) (fuel + 1) (c :: cs) = _
    rw [fillFrom, readPiece_char opens closes]
    rfl
  | @field name value plain named =>
    have hcs : Piece.spell (.field ⟨name, none, []⟩) ++ cs = '\x7b' :: (name ++ '\x7d' :: cs) := by
      simp [Piece.spell]
    have hlaidOut := layOut_nil value.toList
    rw [hcs, fillFrom, plain.readPiece]
    simp only [bind, Except.bind, convert, plain.valueOf named, List.contains_nil, Bool.false_eq_true,
      if_false, pure, Except.pure, hlaidOut]
    rfl

/-- A template is filled in piece by piece. -/
theorem fillFrom_pieces {pieces : List (Piece × List Char)} (h : ∀ p ∈ pieces, p.1.Gives values p.2)
    (depth : Nat) {fuel : Nat} (hfuel : pieces.length < fuel) :
    fillFrom values (depth + 1) fuel (pieces.flatMap fun p => p.1.spell)
      = .ok (pieces.flatMap Prod.snd) := by
  induction pieces generalizing fuel with
  | nil =>
    obtain ⟨fuel, rfl⟩ := Nat.exists_eq_add_one_of_ne_zero (Nat.ne_of_gt hfuel)
    rfl
  | cons p pieces ih =>
    obtain ⟨fuel, rfl⟩ := Nat.exists_eq_add_one_of_ne_zero (Nat.ne_of_gt (Nat.zero_lt_of_lt hfuel))
    have hrest := ih (fun q hq => h q (List.mem_cons_of_mem _ hq)) (Nat.lt_of_succ_lt_succ hfuel)
    rw [List.flatMap_cons, List.flatMap_cons, fillFrom_cons (h p List.mem_cons_self), hrest]
    rfl

theorem spell_length_pos (piece : Piece) : 0 < piece.spell.length := by
  cases piece <;> simp [Piece.spell]

theorem fill_pieces {template : String} {pieces : List (Piece × List Char)}
    (h : ∀ p ∈ pieces, p.1.Gives values p.2)
    (htemplate : template.toList = pieces.flatMap fun p => p.1.spell) :
    fill template values = .ok (String.ofList (pieces.flatMap Prod.snd)) := by
  have hlength : pieces.length ≤ template.length := by
    rw [← String.length_toList, htemplate, List.length_flatMap]
    clear h htemplate
    induction pieces with
    | nil => simp
    | cons p pieces ih =>
      have := spell_length_pos p.1
      simp only [List.length_cons, List.map_cons, List.sum_cons]
      omega
  rw [fill, htemplate, fillFrom_pieces h 1 (by omega)]
  rfl

/-- The pieces of a text without braces. -/
def textPieces (text : String) : List (Template.Piece × List Char) :=
  text.toList.map fun c => (.char c, [c])

theorem gives_textPieces {values : List (String × String)} {text : String}
    (h : ∀ c ∈ text.toList, c ≠ '\x7b' ∧ c ≠ '\x7d') :
    ∀ p ∈ textPieces text, p.1.Gives values p.2 := by
  intro p hp
  obtain ⟨c, hc, rfl⟩ := List.mem_map.1 hp
  exact .char (h c hc).1 (h c hc).2

end Template

/-! ## Keys -/

namespace Catalogue

open Template (textPieces gives_textPieces)

theorem isPlain_alias : Template.IsPlain "alias".toList := ⟨by decide, by simp, by decide⟩

theorem isPlain_slug : Template.IsPlain "slug".toList := ⟨by decide, by simp, by decide⟩

theorem keyFrom_first (c : Catalogue) (slug : String) :
    c.keyFrom "\x7balias\x7d/\x7bslug\x7d.md" slug = .ok (c.keyStart ++ "/" ++ slug ++ ".md") := by
  rw [keyFrom, @Template.fill_pieces _ _ ((.field ⟨"alias".toList, none, []⟩, c.keyStart.toList) ::
    textPieces "/" ++ (.field ⟨"slug".toList, none, []⟩, slug.toList) :: textPieces ".md") ?_ (by rfl)]
  · refine congrArg Except.ok (String.toList_inj.1 ?_)
    simp [textPieces]
  · intro p hp
    simp only [List.cons_append, List.mem_cons, List.mem_append] at hp
    rcases hp with rfl | hp | rfl | hp
    · exact .field isPlain_alias rfl
    · exact gives_textPieces (by simp) p hp
    · exact .field isPlain_slug rfl
    · exact gives_textPieces (by simp) p hp

theorem keyFrom_second (c : Catalogue) (slug : String) :
    c.keyFrom "/content/\x7bslug\x7d.md" slug = .ok ("/content/" ++ slug ++ ".md") := by
  rw [keyFrom, @Template.fill_pieces _ _ (textPieces "/content/" ++
    (.field ⟨"slug".toList, none, []⟩, slug.toList) :: textPieces ".md") ?_ (by rfl)]
  · refine congrArg Except.ok (String.toList_inj.1 ?_)
    simp [textPieces]
  · intro p hp
    simp only [List.mem_cons, List.mem_append] at hp
    rcases hp with hp | rfl | hp
    · exact gives_textPieces (by simp) p hp
    · exact .field isPlain_slug rfl
    · exact gives_textPieces (by simp) p hp

/-- The end of a catalogue's keys has no slashes, as that of a build's keys has none. -/
theorem keyFor_eq (keyStart slug : String) (formats keys : List String) :
    Folio.keyFor keyStart slug = (make keyStart formats keys).keyStart ++ "/" ++ slug ++ ".md" := rfl

/-- The keys of the default formats. -/
theorem candidates_default (keyStart slug : String) (keys : List String) :
    (make keyStart defaultKeyFormats keys).candidates slug
      = .ok [Folio.keyFor keyStart slug, "/content/" ++ slug ++ ".md"] := by
  unfold candidates
  simp only [make, defaultKeyFormats, List.mapM_cons, List.mapM_nil, keyFrom_first, keyFrom_second]
  rfl

/-- A page that is listed under the key of a build is found there. -/
theorem keyFor_default {keyStart slug : String} {keys : List String}
    (h : Folio.keyFor keyStart slug ∈ keys) : (make keyStart defaultKeyFormats keys).keyFor slug
      = .ok (some (Folio.keyFor keyStart slug)) := by
  have hfound : [Folio.keyFor keyStart slug, "/content/" ++ slug ++ ".md"].find? keys.contains
      = some (Folio.keyFor keyStart slug) :=
    List.find?_cons_of_pos (List.contains_iff_mem.2 h)
  unfold keyFor
  rw [candidates_default]
  exact congrArg Except.ok hfound

/-! ## Slugs -/

theorem around_mark {before : List Char} (h : mark ∉ before) (after : List Char) :
    around (before ++ mark :: after) = (before, after) := by
  have hbefore : (before ++ mark :: after).takeWhile (· != mark) = before :=
    Text.takeWhile_append_of_all (Text.bne_of_not_mem h) (by simp)
  rw [around, hbefore]
  simp

theorem between?_append (before after : List Char) {cs : List Char} (h : cs ≠ []) :
    between? before after (before ++ (cs ++ after)) = some cs := by
  have hback : cs.reverse.isEmpty = false := by simpa using h
  unfold between?
  simp only [Text.dropPrefix?_append, List.reverse_append, Option.bind_eq_bind, Option.bind_some, hback,
    Bool.false_eq_true, if_false, List.reverse_reverse]
  rfl

theorem slugBy_cons {c : Catalogue} {format filled : String} {before after key slug : List Char}
    (hformat : c.keyFrom format (String.ofList [mark]) = .ok filled)
    (haround : around filled.toList = (before, after)) (hbetween : between? before after key = some slug)
    (rest : List String) : c.slugBy key (format :: rest) = .ok slug := by
  rw [slugBy, hformat]
  simp only [bind, Except.bind, haround, hbetween]
  rfl

/-- The slug of a page is read back from the key under which a build lists the page, if the slug's place can
    be marked. -/
theorem slugFor_default {keyStart slug : String} (hkeyStart : '\x00' ∉ keyStart.toList)
    (hslug : slug ≠ "") (keys : List String) :
    (make keyStart defaultKeyFormats keys).slugFor (Folio.keyFor keyStart slug) = .ok slug := by
  have hmark : mark ∉ (make keyStart defaultKeyFormats keys).keyStart.toList ++ ['/'] := by
    have hstart : ∀ c ∈ (make keyStart defaultKeyFormats keys).keyStart.toList, c ∈ keyStart.toList := by
      intro c hc
      simp only [make, String.toList_ofList, List.mem_reverse] at hc
      exact List.mem_reverse.1 ((List.dropWhile_suffix _).subset hc)
    intro hmem
    rcases List.mem_append.1 hmem with hmem | hmem
    · exact hkeyStart (hstart _ hmem)
    · exact absurd (List.mem_singleton.1 hmem) (by decide)
  have htext : ((make keyStart defaultKeyFormats keys).keyStart ++ "/" ++ String.ofList [mark]
      ++ ".md").toList = ((make keyStart defaultKeyFormats keys).keyStart.toList ++ ['/'])
        ++ mark :: ".md".toList := by
    simp
  have hkey : (Folio.keyFor keyStart slug).toList
      = ((make keyStart defaultKeyFormats keys).keyStart.toList ++ ['/'])
        ++ (slug.toList ++ ".md".toList) := by
    rw [keyFor_eq keyStart slug defaultKeyFormats keys]
    simp
  have haround : around ((make keyStart defaultKeyFormats keys).keyStart ++ "/" ++ String.ofList [mark]
      ++ ".md").toList = ((make keyStart defaultKeyFormats keys).keyStart.toList ++ ['/'],
        ".md".toList) := by
    rw [htext]
    exact around_mark hmark _
  have hbetween := between?_append ((make keyStart defaultKeyFormats keys).keyStart.toList ++ ['/'])
    ".md".toList (Path.toList_ne_nil hslug)
  rw [← hkey] at hbetween
  have hformats : (make keyStart defaultKeyFormats keys).formats
      = "\x7balias\x7d/\x7bslug\x7d.md" :: ["/content/\x7bslug\x7d.md"] := rfl
  rw [slugFor, hformats, slugBy_cons (keyFrom_first _ _) haround hbetween, Except.map,
    String.ofList_toList]

theorem mapM_slugFor {c : Catalogue} {f : String → String} {names : List String}
    (h : ∀ slug ∈ names, c.slugFor (f slug) = .ok slug) : (names.map f).mapM c.slugFor = .ok names := by
  induction names with
  | nil => rfl
  | cons slug names ih =>
    rw [List.map_cons, List.mapM_cons, h slug List.mem_cons_self,
      ih fun s hs => h s (List.mem_cons_of_mem _ hs)]
    rfl

/-- The slugs of a catalogue of pages, in the order of their keys. -/
theorem slugs_default {keyStart : String} (hkeyStart : '\x00' ∉ keyStart.toList) {names : List String}
    (hnames : ∀ slug ∈ names, slug ≠ "") :
    (make keyStart defaultKeyFormats (names.map (Folio.keyFor keyStart))).slugs = .ok names := by
  have hkeys : (make keyStart defaultKeyFormats (names.map (Folio.keyFor keyStart))).keys
      = names.map (Folio.keyFor keyStart) := rfl
  rw [slugs, hkeys]
  exact mapM_slugFor fun slug hslug => slugFor_default hkeyStart (hnames slug hslug) _

end Catalogue

end Folio
