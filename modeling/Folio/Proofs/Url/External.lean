import Folio.Url.Split
import Mathlib.Data.List.TakeWhile

set_option autoImplicit false

/-! # Links to other hosts

A URL is taken apart at its delimiters: the scheme is what stands in front of the first colon, if it has the form of one
(`splitScheme_cases`), and the host what stands in the authority behind the last `@` and before the first colon after that
(`host_eq`). A URL is put together from parts that may themselves hold what delimits others: an `@` or a colon in the name
of the user, a whole URL in the query (`Assembly`). Taken apart it gives its scheme and its host again, also when blanks
stand around it (`exists_split_of_followsHost`). So whether it leads off the site is decided by these two alone, and a
reference without an authority never does (`host_decides_external`). -/

namespace Folio.Url

open Text

/-! ## Characters -/

/-- Printable characters of ASCII, with the space. -/
def isPlain (c : Char) : Bool :=
  ' ' ≤ c && c ≤ '~'

theorem isPlain_iff {c : Char} : isPlain c = true ↔ 0x20 ≤ c.toNat ∧ c.toNat ≤ 0x7E := by
  rw [isPlain, Bool.and_eq_true, decide_eq_true_eq, decide_eq_true_eq]
  exact Iff.rfl

theorem hidesDelimiter_of_isPlain {c : Char} (h : isPlain c = true) : hidesDelimiter c = false := by
  have hc := isPlain_iff.1 h
  simp only [hidesDelimiter, List.contains_eq_mem, decide_eq_false_iff_not, List.mem_cons, List.not_mem_nil, or_false]
  omega

/-- Characters that end an authority. -/
def endsAuthority (c : Char) : Bool :=
  c == '/' || c == '?' || c == '#'

/-! ## Cutting at a character -/

section

variable {sep : Char} {cs before after : List Char}

theorem cutOnce_append (h : sep ∉ before) (after : List Char) :
    cutOnce sep (before ++ sep :: after) = (before, some after) := by
  rw [cutOnce, cutBefore?_append_of_not_mem h]
  rfl

theorem cutOnce_of_not_mem (h : sep ∉ cs) : cutOnce sep cs = (cs, none) := by
  have hnone : cutBefore? (· == sep) cs = none := by
    rw [cutBefore?_eq_none_iff]
    intro c hc
    simpa using bne_of_not_mem h c hc
  rw [cutOnce, hnone]

theorem afterLast_append (h : sep ∉ after) (before : List Char) : afterLast sep (before ++ sep :: after) = after := by
  have hkept := bne_of_not_mem (mt List.mem_reverse.1 h)
  rw [afterLast, List.reverse_append, List.reverse_cons, List.append_assoc, takeWhile_append_of_all hkept (by simp),
    List.reverse_reverse]

theorem afterLast_of_not_mem (h : sep ∉ cs) : afterLast sep cs = cs := by
  have hkept := bne_of_not_mem (mt List.mem_reverse.1 h)
  rw [afterLast, List.takeWhile_eq_self_iff.2 hkept, List.reverse_reverse]

end

/-! ## The scheme -/

/-- Names of schemes: a letter, and after it letters, digits and three signs. -/
def isScheme (cs : List Char) : Bool :=
  cs.head?.any isAsciiLetter && cs.all isSchemeChar

theorem isSchemeChar_of_mem {scheme : List Char} (h : isScheme scheme = true) : ∀ c ∈ scheme, isSchemeChar c = true :=
  List.all_eq_true.1 (Bool.and_eq_true_iff.1 h).2

theorem colon_not_mem_of_isScheme {scheme : List Char} (h : isScheme scheme = true) : ':' ∉ scheme := by
  intro hmem
  exact absurd (isSchemeChar_of_mem h ':' hmem) (by decide)

theorem exists_cons_of_isScheme {scheme : List Char} (h : isScheme scheme = true) :
    ∃ c more, scheme = c :: more ∧ isAsciiLetter c = true := by
  cases scheme with
  | nil => cases h
  | cons c more => exact ⟨c, more, rfl, (Bool.and_eq_true_iff.1 h).1⟩

theorem splitScheme_append {scheme : List Char} (h : isScheme scheme = true) (rest : List Char) :
    splitScheme (scheme ++ ':' :: rest) = (asciiLower scheme, rest) := by
  have hcut := cutOnce_append (colon_not_mem_of_isScheme h) rest
  obtain ⟨c, more, rfl, -⟩ := exists_cons_of_isScheme h
  rw [splitScheme, hcut]
  exact if_pos h

/-- The scheme is cut off if what stands before the first colon is one. Otherwise all stays. -/
theorem splitScheme_cases (cs : List Char) :
    (∃ scheme rest, isScheme scheme = true ∧ cs = scheme ++ ':' :: rest) ∨ splitScheme cs = ([], cs) := by
  unfold splitScheme cutOnce
  cases hcut : cutBefore? (· == ':') cs with
  | none => exact .inr rfl
  | some cut =>
    obtain ⟨before, rest⟩ := cut
    cases before with
    | nil => exact .inr rfl
    | cons c more =>
      by_cases hscheme : isScheme (c :: more) = true
      · obtain ⟨d, after, rfl, hd⟩ := exists_of_cutBefore?_eq_some hcut
        obtain rfl := beq_iff_eq.1 hd
        exact .inl ⟨c :: more, after, hscheme, cutBefore?_append hcut⟩
      · exact .inr (if_neg hscheme)

theorem splitScheme_cons {c : Char} (h : isAsciiLetter c = false) (cs : List Char) :
    splitScheme (c :: cs) = ([], c :: cs) := by
  obtain ⟨scheme, rest, hscheme, heq⟩ | hnone := splitScheme_cases (c :: cs)
  · obtain ⟨d, more, rfl, hd⟩ := exists_cons_of_isScheme hscheme
    rw [List.cons_append, List.cons.injEq] at heq
    rw [heq.1, hd] at h
    cases h
  · exact hnone

/-! ## The authority -/

theorem splitAuthority_slashes (cs : List Char) :
    (splitAuthority ('/' :: '/' :: cs)).1 = cs.takeWhile fun c => !endsAuthority c :=
  rfl

theorem splitAuthority_of_no_slashes {cs : List Char} (h : ¬['/', '/'] <+: cs) : splitAuthority cs = ([], cs) := by
  unfold splitAuthority
  split
  next rest => exact absurd ⟨rest, rfl⟩ h
  next => rfl

/-- An authority of plain characters without brackets is in order. -/
theorem checkAuthority_of_plain {authority : List Char} (hplain : ∀ c ∈ authority, isPlain c = true)
    (hopen : '[' ∉ authority) (hclose : ']' ∉ authority) : checkAuthority authority = .ok () := by
  have hhidden : authority.any hidesDelimiter = false :=
    List.any_eq_false.2 fun c hc => by simp [hidesDelimiter_of_isPlain (hplain c hc)]
  simp [checkAuthority, hopen, hclose, hhidden, pure, Except.pure]

/-- The host is what stands behind the user and before the port. -/
theorem host_eq {parts : Parts} {user host port : List Char} (h : parts.authority = user ++ host ++ port)
    (huser : user = [] ∨ ∃ name, user = name ++ ['@']) (hport : ∀ c ∈ port.head?, c = ':')
    (hat : '@' ∉ host ++ port) (hopen : '[' ∉ host ++ port) (hcolon : ':' ∉ host) : parts.host = host := by
  have hlast : afterLast '@' parts.authority = host ++ port := by
    rw [h, List.append_assoc]
    obtain rfl | ⟨name, rfl⟩ := huser
    · exact afterLast_of_not_mem hat
    · rw [List.append_assoc]
      exact afterLast_append hat name
  have hcut : (cutOnce ':' (host ++ port)).1 = host := by
    cases port with
    | nil => rw [List.append_nil, cutOnce_of_not_mem hcolon]
    | cons c number => rw [hport c rfl, cutOnce_append hcolon]
  rw [Parts.host, hlast, cutOnce_of_not_mem hopen]
  exact hcut

/-! ## The whole -/

/-- A text of plain characters that does not start with a space is cut at its delimiters, as it is. -/
theorem exists_split {cs scheme rest : List Char} (hplain : ∀ c ∈ cs, isPlain c = true) (hfirst : cs.head? ≠ some ' ')
    (hscheme : splitScheme cs = (scheme, rest)) (hcheck : checkAuthority (splitAuthority rest).1 = .ok ()) :
    ∃ parts, split cs = .ok parts ∧ parts.scheme = scheme ∧ parts.authority = (splitAuthority rest).1 := by
  have hdrop : (cs.dropWhile fun c => c.toNat ≤ 0x20) = cs := by
    cases cs with
    | nil => rfl
    | cons c more =>
      have hc := isPlain_iff.1 (hplain c List.mem_cons_self)
      have hspace : c.toNat ≠ 0x20 := fun heq => hfirst (congrArg some (Char.toNat_inj.1 heq))
      exact List.dropWhile_cons_of_neg (by simp; omega)
  have hfilter : (cs.filter fun c => !(c == '\t' || c == '\r' || c == '\n')) = cs := by
    rw [List.filter_eq_self]
    intro c hc
    have hne {d : Char} (hd : isPlain d = false) : c ≠ d := by
      rintro rfl
      simp [hplain c hc] at hd
    simp [hne (d := '\t') rfl, hne (d := '\r') rfl, hne (d := '\n') rfl]
  unfold split
  simp only [hdrop, hfilter, hscheme, hcheck, bind, Except.bind]
  exact ⟨_, rfl, rfl, rfl⟩

/-! ## URLs put together -/

/-- Texts of plain characters without certain signs. -/
def IsPlainWithout (signs cs : List Char) : Prop :=
  ∀ c ∈ cs, isPlain c = true ∧ c ∉ signs

instance (signs cs : List Char) : Decidable (IsPlainWithout signs cs) :=
  List.decidableBAll (fun c => isPlain c = true ∧ c ∉ signs) cs

section

variable {signs cs : List Char} {c : Char}

theorem IsPlainWithout.not_mem (h : IsPlainWithout signs cs) (hc : c ∈ signs) : c ∉ cs :=
  fun hmem => (h c hmem).2 hc

theorem IsPlainWithout.not_endsAuthority (h : IsPlainWithout signs cs) (hslash : '/' ∈ signs) (hquestion : '?' ∈ signs)
    (hnumber : '#' ∈ signs) : ∀ c ∈ cs, (!endsAuthority c) = true := by
  intro c hc
  have hne {d : Char} (hd : d ∈ signs) : c ≠ d := by
    rintro rfl
    exact h.not_mem hd hc
  simp [endsAuthority, hne hslash, hne hquestion, hne hnumber]

end

/-- Characters of the names of hosts. -/
def isHostChar (c : Char) : Bool :=
  isAsciiAlphanumeric c || c == '.' || c == '-'

/-- The parts of a URL that names a host. -/
structure Assembly where
  /-- Without the colon. A URL without it goes by the scheme of its page. -/
  scheme : Option (List Char)
  /-- Without the `@`. -/
  user : Option (List Char)
  host : List Char
  /-- Without the colon. It need not be a number. -/
  port : Option (List Char)
  /-- With the slash at its front, unless it is empty. -/
  path : List Char
  /-- Without the question mark. -/
  query : Option (List Char)
  /-- Without the number sign. -/
  fragment : Option (List Char)
  schemeForm : ∀ s ∈ scheme, isScheme s = true := by decide
  userForm : ∀ u ∈ user, IsPlainWithout ['/', '?', '#', '[', ']'] u := by decide
  hostNonempty : host ≠ [] := by decide
  hostForm : host.all isHostChar = true := by decide
  portForm : ∀ p ∈ port, IsPlainWithout ['/', '?', '#', '[', ']', '@'] p := by decide
  pathStart : path = [] ∨ path.head? = some '/' := by decide
  pathForm : IsPlainWithout ['?', '#'] path := by decide
  queryForm : ∀ q ∈ query, IsPlainWithout ['#'] q := by decide
  fragmentForm : ∀ f ∈ fragment, IsPlainWithout [] f := by decide

namespace Assembly

/-- The name of the user, with its `@`. -/
def userText (a : Assembly) : List Char :=
  a.user.elim [] (· ++ ['@'])

/-- A URL up to its host. -/
def front (a : Assembly) : List Char :=
  a.scheme.elim [] (· ++ [':']) ++ ['/', '/'] ++ a.userText ++ a.host

/-- The port, with its colon. -/
def portText (a : Assembly) : List Char :=
  a.port.elim [] (':' :: ·)

/-- What follows the host and the port. -/
def tail (a : Assembly) : List Char :=
  a.path ++ a.query.elim [] ('?' :: ·) ++ a.fragment.elim [] ('#' :: ·)

/-- What follows the host. -/
def back (a : Assembly) : List Char :=
  a.portText ++ a.tail

/-- The URL as it is written. -/
def text (a : Assembly) : List Char :=
  a.front ++ a.back

/-- A text holds the URL, and blanks around it. -/
def StandsIn (a : Assembly) (href : String) : Prop :=
  ∃ before after, (∀ c ∈ before, isBlank c = true) ∧ (∀ c ∈ after, isBlank c = true) ∧
    href.toList = before ++ a.text ++ after

/-- The URL goes over the web, or by the scheme of its page. -/
def IsWeb (a : Assembly) : Prop :=
  ∀ s ∈ a.scheme, asciiLower s = "http".toList ∨ asciiLower s = "https".toList

instance (a : Assembly) : Decidable a.IsWeb :=
  inferInstanceAs (Decidable (∀ s ∈ a.scheme, asciiLower s = "http".toList ∨ asciiLower s = "https".toList))

end Assembly

/-! ## Characters of hosts and schemes -/

section

variable {c : Char}

theorem toNat_of_isAsciiAlphanumeric (h : isAsciiAlphanumeric c = true) :
    (48 ≤ c.toNat ∧ c.toNat ≤ 57) ∨ (65 ≤ c.toNat ∧ c.toNat ≤ 90) ∨ (97 ≤ c.toNat ∧ c.toNat ≤ 122) := by
  simp only [isAsciiAlphanumeric, isAsciiLetter, isAsciiDigit, Bool.or_eq_true, Bool.and_eq_true, decide_eq_true_eq] at h
  rcases h with (h | h) | h
  · exact .inr (.inr h)
  · exact .inr (.inl h)
  · exact .inl h

theorem toNat_of_isHostChar (h : isHostChar c = true) :
    c.toNat = 45 ∨ c.toNat = 46 ∨ (48 ≤ c.toNat ∧ c.toNat ≤ 57) ∨ (65 ≤ c.toNat ∧ c.toNat ≤ 90) ∨
      (97 ≤ c.toNat ∧ c.toNat ≤ 122) := by
  simp only [isHostChar, Bool.or_eq_true, beq_iff_eq] at h
  obtain (h | rfl) | rfl := h
  · exact .inr (.inr (toNat_of_isAsciiAlphanumeric h))
  · exact .inr (.inl rfl)
  · exact .inl rfl

theorem isPlain_of_isHostChar (h : isHostChar c = true) : isPlain c = true := by
  have hc := toNat_of_isHostChar h
  exact isPlain_iff.2 (by omega)

theorem isPlain_of_isSchemeChar (h : isSchemeChar c = true) : isPlain c = true := by
  simp only [isSchemeChar, Bool.or_eq_true, beq_iff_eq] at h
  obtain ((h | rfl) | rfl) | rfl := h
  · have hc := toNat_of_isAsciiAlphanumeric h
    exact isPlain_iff.2 (by omega)
  all_goals rfl

theorem isBlank_of_isHostChar (h : isHostChar c = true) : isBlank c = false := by
  have hc := toNat_of_isHostChar h
  simp only [isBlank, Bool.or_eq_false_iff, Bool.and_eq_false_iff, decide_eq_false_iff_not, beq_eq_false_iff_ne]
  omega

theorem ne_of_isHostChar (h : isHostChar c = true) {d : Char} (hd : isHostChar d = false) : c ≠ d := by
  rintro rfl
  simp [hd] at h

end

/-! ## Parts that may be missing -/

section

variable {part : Option (List Char)} {sign c : Char}

theorem mem_elim_cons : c ∈ part.elim [] (sign :: ·) ↔ ∃ cs ∈ part, c = sign ∨ c ∈ cs := by
  cases part <;> simp

theorem mem_elim_concat : c ∈ part.elim [] (· ++ [sign]) ↔ ∃ cs ∈ part, c ∈ cs ∨ c = sign := by
  cases part <;> simp

end

/-! ## What follows a host -/

/-- A port with its colon, or nothing. -/
structure IsPort (port : List Char) : Prop where
  start : ∀ c ∈ port.head?, c = ':'
  form : IsPlainWithout ['[', ']', '@'] port

/-- Texts that may follow a host: its port, and what ends an authority. -/
structure FollowsHost (cs : List Char) : Prop where
  start : ∀ c ∈ cs.head?, c = ':' ∨ endsAuthority c = true
  plain : ∀ c ∈ cs, isPlain c = true
  port : ∀ c ∈ cs.takeWhile fun c => !endsAuthority c, c ∉ ['[', ']', '@']

/-- A URL that is cut off behind its host still has what may follow a host. -/
theorem FollowsHost.of_start {cs cs' : List Char} (h : FollowsHost cs) (hstart : cs' <+: cs) : FollowsHost cs' := by
  obtain ⟨rest, rfl⟩ := hstart
  constructor
  · intro c hc
    cases cs' with
    | nil => cases hc
    | cons d more => exact h.start c hc
  · intro c hc
    exact h.plain c (List.mem_append_left rest hc)
  · intro c hc
    refine h.port c ?_
    rw [List.takeWhile_append]
    split
    next => exact List.mem_append_left _ ((List.takeWhile_prefix _).subset hc)
    next => exact hc

/-- Up to the end of the authority it is a port. -/
theorem FollowsHost.isPort {cs : List Char} (h : FollowsHost cs) : IsPort (cs.takeWhile fun c => !endsAuthority c) where
  start := by
    cases cs with
    | nil => simp
    | cons c more =>
      obtain rfl | hc := h.start c rfl
      · exact fun d hd => (Option.some.inj hd).symm
      · rw [List.takeWhile_cons_of_neg (by simp [hc])]
        nofun
  form c hc := ⟨h.plain c ((List.takeWhile_prefix _).subset hc), h.port c hc⟩

namespace Assembly

variable (a : Assembly)

theorem isHostChar_of_mem {c : Char} (h : c ∈ a.host) : isHostChar c = true :=
  List.all_eq_true.1 a.hostForm c h

theorem endsAuthority_head_tail : ∀ c ∈ a.tail.head?, endsAuthority c = true := by
  intro c hc
  unfold tail at hc
  cases hpath : a.path with
  | cons d path =>
    obtain rfl : d = '/' := by simpa [hpath] using a.pathStart
    obtain rfl : '/' = c := by simpa [hpath] using hc
    rfl
  | nil =>
    cases hquery : a.query with
    | some query =>
      obtain rfl : '?' = c := by simpa [hpath, hquery] using hc
      rfl
    | none =>
      cases hfragment : a.fragment with
      | some fragment =>
        obtain rfl : '#' = c := by simpa [hpath, hquery, hfragment] using hc
        rfl
      | none => simp [hpath, hquery, hfragment] at hc

theorem isPlain_of_mem_tail {c : Char} (h : c ∈ a.tail) : isPlain c = true := by
  simp only [tail, List.mem_append, mem_elim_cons] at h
  obtain (hpath | ⟨query, hquery, rfl | hc⟩) | ⟨fragment, hfragment, rfl | hc⟩ := h
  · exact (a.pathForm c hpath).1
  · rfl
  · exact (a.queryForm query hquery c hc).1
  · rfl
  · exact (a.fragmentForm fragment hfragment c hc).1

theorem isPlainWithout_portText : IsPlainWithout ['/', '?', '#', '[', ']', '@'] a.portText := by
  intro c hc
  obtain ⟨port, hport, rfl | hc⟩ := mem_elim_cons.1 hc
  · decide
  · exact a.portForm port hport c hc

theorem takeWhile_back : a.back.takeWhile (fun c => !endsAuthority c) = a.portText := by
  refine takeWhile_append_of_all (a.isPlainWithout_portText.not_endsAuthority (by decide) (by decide) (by decide)) ?_
  intro c hc
  simp [a.endsAuthority_head_tail c hc]

theorem followsHost_back : FollowsHost a.back where
  start := by
    unfold back portText
    intro c hc
    cases heq : a.port with
    | none =>
      rw [heq] at hc
      exact .inr (a.endsAuthority_head_tail c hc)
    | some port =>
      rw [heq] at hc
      exact .inl (Option.some.inj hc).symm
  plain := by
    intro c hc
    obtain hport | htail := List.mem_append.1 hc
    · exact (a.isPlainWithout_portText c hport).1
    · exact a.isPlain_of_mem_tail htail
  port := by
    rw [takeWhile_back]
    intro c hc hsign
    refine (a.isPlainWithout_portText c hc).2 ?_
    simp only [List.mem_cons, List.not_mem_nil, or_false] at hsign ⊢
    simp [hsign]

/-! ## What stands in front of it -/

theorem exists_head?_front : ∃ c, a.front.head? = some c ∧ isBlank c = false ∧ c ≠ ' ' := by
  unfold front
  cases heq : a.scheme with
  | none => exact ⟨'/', rfl, rfl, by decide⟩
  | some scheme =>
    obtain ⟨c, more, rfl, hc⟩ := exists_cons_of_isScheme (a.schemeForm scheme heq)
    have hhost : isHostChar c = true := by simp [isHostChar, isAsciiAlphanumeric, hc]
    exact ⟨c, rfl, isBlank_of_isHostChar hhost, ne_of_isHostChar hhost (by decide)⟩

theorem exists_getLast?_front : ∃ c, a.front.getLast? = some c ∧ isBlank c = false := by
  have hlast := List.getLast?_eq_some_getLast a.hostNonempty
  refine ⟨a.host.getLast a.hostNonempty, ?_, isBlank_of_isHostChar (a.isHostChar_of_mem (List.getLast_mem _))⟩
  rw [front, List.getLast?_append, hlast]
  rfl

theorem isPlainWithout_userText : IsPlainWithout ['/', '?', '#', '[', ']'] a.userText := by
  intro c hc
  obtain ⟨user, huser, hc | rfl⟩ := mem_elim_concat.1 hc
  · exact a.userForm user huser c hc
  · decide

theorem isPlain_of_mem_front {c : Char} (h : c ∈ a.front) : isPlain c = true := by
  simp only [front, List.mem_append, mem_elim_concat] at h
  obtain ((⟨scheme, hscheme, hc | rfl⟩ | hslash) | huser) | hhost := h
  · exact isPlain_of_isSchemeChar (isSchemeChar_of_mem (a.schemeForm scheme hscheme) c hc)
  · rfl
  · obtain rfl : c = '/' := by simpa using hslash
    rfl
  · exact (a.isPlainWithout_userText c huser).1
  · exact isPlain_of_isHostChar (a.isHostChar_of_mem hhost)

theorem splitScheme_front (rest : List Char) :
    splitScheme (a.front ++ rest) = (a.scheme.elim [] asciiLower, '/' :: '/' :: (a.userText ++ a.host ++ rest)) := by
  unfold front
  cases heq : a.scheme with
  | none => exact splitScheme_cons (by decide) _
  | some scheme =>
    have hsplit := splitScheme_append (a.schemeForm scheme heq) ('/' :: '/' :: (a.userText ++ a.host ++ rest))
    simpa using hsplit

/-- The authority is taken up to what ends it, whatever the name of the user is. -/
theorem authority_eq (rest : List Char) : (splitAuthority ('/' :: '/' :: (a.userText ++ a.host ++ rest))).1
    = a.userText ++ a.host ++ rest.takeWhile fun c => !endsAuthority c := by
  rw [splitAuthority_slashes, List.takeWhile_append_of_pos]
  intro c hc
  obtain huser | hc := List.mem_append.1 hc
  · exact a.isPlainWithout_userText.not_endsAuthority (by decide) (by decide) (by decide) c huser
  · have hne {d : Char} (hd : isHostChar d = false) : c ≠ d := ne_of_isHostChar (a.isHostChar_of_mem hc) hd
    simp [endsAuthority, hne (d := '/') rfl, hne (d := '?') rfl, hne (d := '#') rfl]

/-! ## Taking it apart -/

section

variable {port : List Char}

theorem not_mem_host {c : Char} (h : isHostChar c = false) : c ∉ a.host := by
  intro hmem
  exact ne_of_isHostChar (a.isHostChar_of_mem hmem) h rfl

/-- What a host has no sign of, a host with its port has only in the port. -/
theorem not_mem_host_append {c : Char} (hhost : isHostChar c = false) (hport : c ∉ port) : c ∉ a.host ++ port := by
  rw [List.mem_append, not_or]
  exact ⟨a.not_mem_host hhost, hport⟩

theorem checkAuthority_text (h : IsPort port) : checkAuthority (a.userText ++ a.host ++ port) = .ok () := by
  rw [List.append_assoc]
  refine checkAuthority_of_plain ?_ ?_ ?_
  · intro c hc
    obtain huser | hc := List.mem_append.1 hc
    · exact (a.isPlainWithout_userText c huser).1
    · obtain hhost | hport := List.mem_append.1 hc
      · exact isPlain_of_isHostChar (a.isHostChar_of_mem hhost)
      · exact (h.form c hport).1
  · rw [List.mem_append, not_or]
    exact ⟨a.isPlainWithout_userText.not_mem (by decide), a.not_mem_host_append rfl (h.form.not_mem (by decide))⟩
  · rw [List.mem_append, not_or]
    exact ⟨a.isPlainWithout_userText.not_mem (by decide), a.not_mem_host_append rfl (h.form.not_mem (by decide))⟩

theorem host_of_authority {parts : Parts} (h : IsPort port) (hauthority : parts.authority = a.userText ++ a.host ++ port) :
    parts.host = a.host := by
  have huser : a.userText = [] ∨ ∃ name, a.userText = name ++ ['@'] := by
    unfold userText
    cases a.user with
    | none => exact .inl rfl
    | some user => exact .inr ⟨user, rfl⟩
  have hat : '@' ∉ a.host ++ port := a.not_mem_host_append rfl (h.form.not_mem (by decide))
  have hopen : '[' ∉ a.host ++ port := a.not_mem_host_append rfl (h.form.not_mem (by decide))
  exact host_eq hauthority huser h.start hat hopen (a.not_mem_host rfl)

end

/-- The scheme and the host are found again, whatever follows the host. -/
theorem exists_split_of_followsHost {rest : List Char} (h : FollowsHost rest) :
    ∃ parts, split (a.front ++ rest) = .ok parts ∧ parts.scheme = a.scheme.elim [] asciiLower ∧
      parts.authority ≠ [] ∧ parts.host = a.host := by
  have hauthority := a.authority_eq rest
  have hcheck := hauthority ▸ a.checkAuthority_text h.isPort
  have hfirst : (a.front ++ rest).head? ≠ some ' ' := by
    obtain ⟨c, hc, -, hspace⟩ := a.exists_head?_front
    rw [List.head?_append, hc]
    simpa using hspace
  have hplain : ∀ c ∈ a.front ++ rest, isPlain c = true := by
    intro c hc
    obtain hfront | hrest := List.mem_append.1 hc
    · exact a.isPlain_of_mem_front hfront
    · exact h.plain c hrest
  obtain ⟨parts, hsplit, hscheme, hparts⟩ := exists_split hplain hfirst (a.splitScheme_front rest) hcheck
  rw [hauthority] at hparts
  exact ⟨parts, hsplit, hscheme, by simp [hparts, a.hostNonempty], a.host_of_authority h.isPort hparts⟩

end Assembly

/-! ## Where links lead -/

section

variable {href : String} {parts : Parts}

/-- A URL without an authority leads nowhere else. -/
theorem isExternal_of_no_authority (hsplit : split (trimBlanks href.toList) = .ok parts) (hnone : parts.authority = [])
    (internalHosts : List String) : isExternal href internalHosts = .ok false := by
  simp [isExternal, hsplit, hnone, bind, Except.bind, pure, Except.pure]

/-- A URL with an authority leads off the site if it goes over the web to another host than the internal ones. -/
theorem isExternal_of_authority (hsplit : split (trimBlanks href.toList) = .ok parts) (hsome : parts.authority ≠ [])
    (internalHosts : List String) : isExternal href internalHosts =
      .ok (decide ((parts.scheme = [] ∨ parts.scheme = "http".toList ∨ parts.scheme = "https".toList) ∧
        ∀ name ∈ internalHosts, lower name ≠ lower (String.ofList parts.host))) := by
  have hlisted : (!(internalHosts.map lower).contains (lower (String.ofList parts.host))) = true ↔
      ∀ name ∈ internalHosts, lower name ≠ lower (String.ofList parts.host) := by
    simp
  have hother : (!parts.scheme.isEmpty && parts.scheme != "http".toList && parts.scheme != "https".toList) = true ↔
      ¬(parts.scheme = [] ∨ parts.scheme = "http".toList ∨ parts.scheme = "https".toList) := by
    simp only [not_or, Bool.and_eq_true, Bool.not_eq_true', List.isEmpty_eq_false_iff, bne_iff_ne, and_assoc, ne_eq]
  rw [isExternal, hsplit]
  simp only [bind, Except.bind, pure, Except.pure]
  rw [if_neg (by simpa using hsome)]
  split
  next hscheme => rw [decide_eq_false fun h => hother.1 hscheme h.1]
  next hscheme =>
    have hweb := not_not.1 (mt hother.2 hscheme)
    refine congrArg Except.ok (Bool.eq_iff_iff.2 ?_)
    rw [hlisted, decide_eq_true_iff, and_iff_right hweb]

end

theorem Assembly.isWeb_iff (a : Assembly) : a.IsWeb ↔ a.scheme.elim [] asciiLower = [] ∨
    a.scheme.elim [] asciiLower = "http".toList ∨ a.scheme.elim [] asciiLower = "https".toList := by
  unfold Assembly.IsWeb
  cases heq : a.scheme with
  | none => simp
  | some scheme =>
    obtain ⟨c, more, rfl, -⟩ := exists_cons_of_isScheme (a.schemeForm scheme heq)
    simp [asciiLower]

/-- Blanks around a URL, and at the end of what follows its host, do not keep it from being taken apart. -/
theorem Assembly.StandsIn.exists_split {a : Assembly} {href : String} (h : a.StandsIn href) :
    ∃ parts, split (trimBlanks href.toList) = .ok parts ∧ parts.scheme = a.scheme.elim [] asciiLower ∧
      parts.authority ≠ [] ∧ parts.host = a.host := by
  obtain ⟨before, after, hbefore, hafter, htext⟩ := h
  obtain ⟨c, hfirst, hc, -⟩ := a.exists_head?_front
  obtain ⟨d, hlast, hd⟩ := a.exists_getLast?_front
  have htrim : trimBlanks href.toList = a.front ++ (a.back.reverse.dropWhile isBlank).reverse := by
    rw [htext, trimBlanks_surround hbefore hafter]
    exact trim_append hfirst hc hlast hd a.back
  rw [htrim]
  exact a.exists_split_of_followsHost (a.followsHost_back.of_start (starts_with_trimEnd isBlank a.back))

theorem isExternal_of_standsIn {a : Assembly} {href : String} (h : a.StandsIn href) (internalHosts : List String) :
    isExternal href internalHosts =
      .ok (decide (a.IsWeb ∧ ∀ name ∈ internalHosts, lower name ≠ lower (String.ofList a.host))) := by
  obtain ⟨parts, hsplit, hscheme, hauthority, hhost⟩ := h.exists_split
  simp only [isExternal_of_authority hsplit hauthority, hscheme, hhost, a.isWeb_iff]

/-! ## References without an authority -/

/-- Two slashes stand at the front, or behind a scheme at the front. -/
def NamesAuthority (cs : List Char) : Prop :=
  ['/', '/'] <+: cs ∨ ∃ scheme, isScheme scheme = true ∧ scheme ++ [':', '/', '/'] <+: cs

theorem namesAuthority_iff {cs : List Char} : NamesAuthority cs ↔ ['/', '/'] <+: (splitScheme cs).2 := by
  constructor
  · rintro (⟨rest, rfl⟩ | ⟨scheme, hscheme, rest, rfl⟩)
    · rw [List.cons_append, splitScheme_cons (by decide)]
      exact List.prefix_append _ rest
    · rw [List.append_assoc, List.cons_append, splitScheme_append hscheme]
      exact List.prefix_append _ rest
  · intro hstart
    obtain ⟨scheme, rest, hscheme, rfl⟩ | hnone := splitScheme_cases cs
    · rw [splitScheme_append hscheme] at hstart
      exact .inr ⟨scheme, hscheme, (List.prefix_append_right_inj scheme).2 (List.cons_prefix_cons.2 ⟨rfl, hstart⟩)⟩
    · rw [hnone] at hstart
      exact .inl hstart

instance (cs : List Char) : Decidable (NamesAuthority cs) :=
  decidable_of_iff _ namesAuthority_iff.symm

theorem isExternal_of_not_namesAuthority {href : String} (hplain : ∀ c ∈ trimBlanks href.toList, isPlain c = true)
    (h : ¬NamesAuthority (trimBlanks href.toList)) (internalHosts : List String) :
    isExternal href internalHosts = .ok false := by
  have hfirst : (trimBlanks href.toList).head? ≠ some ' ' := fun hspace =>
    absurd (isBlank_head?_trimBlanks hspace) (by decide)
  have hnone := splitAuthority_of_no_slashes (mt namesAuthority_iff.2 h)
  have hcheck : checkAuthority (splitAuthority (splitScheme (trimBlanks href.toList)).2).1 = .ok () := by
    rw [hnone]
    rfl
  obtain ⟨parts, hsplit, -, hparts⟩ := exists_split hplain hfirst rfl hcheck
  exact isExternal_of_no_authority hsplit (hparts.trans (congrArg Prod.fst hnone)) internalHosts

/-- **Whether a URL leads off the site is decided by its scheme and its host, whatever its other parts hold.** It does
    exactly if it goes over the web, or by the scheme of its page, to a host that is none of the internal ones in any letter
    case. So hosts that differ in case only get the same answer, and so do lists with the same names in another order, more
    often, or in another case. A reference that names no authority never leads off the site. -/
theorem host_decides_external :
    (∀ (a : Assembly) (href : String) (internalHosts : List String), a.StandsIn href →
      isExternal href internalHosts =
        .ok (decide (a.IsWeb ∧ ∀ name ∈ internalHosts, lower name ≠ lower (String.ofList a.host)))) ∧
    (∀ (a a' : Assembly) (href href' : String) (internalHosts internalHosts' : List String),
      a.StandsIn href → a'.StandsIn href' → (a.IsWeb ↔ a'.IsWeb) →
      lower (String.ofList a.host) = lower (String.ofList a'.host) →
      (∀ name, name ∈ internalHosts.map lower ↔ name ∈ internalHosts'.map lower) →
      isExternal href internalHosts = isExternal href' internalHosts') ∧
    (∀ (href : String) (internalHosts : List String), (∀ c ∈ trimBlanks href.toList, isPlain c = true) →
      ¬NamesAuthority (trimBlanks href.toList) → isExternal href internalHosts = .ok false) := by
  refine ⟨?_, ?_, ?_⟩
  · intro a href internalHosts h
    exact isExternal_of_standsIn h internalHosts
  · intro a a' href href' internalHosts internalHosts' h h' hweb hhost hlists
    have hlisted : (∀ name ∈ internalHosts, lower name ≠ lower (String.ofList a.host)) ↔
        ∀ name ∈ internalHosts', lower name ≠ lower (String.ofList a'.host) := by
      have hmem := not_congr (hlists (lower (String.ofList a'.host)))
      simpa [hhost] using hmem
    rw [isExternal_of_standsIn h, isExternal_of_standsIn h', decide_eq_decide.2 (and_congr hweb hlisted)]
  · intro href internalHosts hplain h
    exact isExternal_of_not_namesAuthority hplain h internalHosts

/-- A URL that names another host than its own in all its parts. -/
def decoy : Assembly where
  scheme := some "HTTPS".toList
  user := some "home.org".toList
  host := "Evil.org".toList
  port := some "443".toList
  path := "/home.org".toList
  query := some "//home.org".toList
  fragment := some "@home.org".toList

/-- A URL of the same host, without any other part. -/
def bare : Assembly where
  scheme := none
  user := none
  host := "evil.ORG".toList
  port := none
  path := []
  query := none
  fragment := none

/-- The URL that names other hosts leads to its own, and a link to mail that mentions it leads to none. -/
theorem decoy_is_external :
    decoy.StandsIn " \tHTTPS://home.org@Evil.org:443/home.org?//home.org#@home.org\n" ∧ bare.StandsIn "//evil.ORG" ∧
    isExternal " \tHTTPS://home.org@Evil.org:443/home.org?//home.org#@home.org\n" ["home.org"] = .ok true ∧
    isExternal " \tHTTPS://home.org@Evil.org:443/home.org?//home.org#@home.org\n" ["Home.org", "EVIL.org", "home.org"]
      = isExternal "//evil.ORG" ["Evil.Org", "home.org"] ∧
    isExternal "mailto:me@home.org//evil.org" [] = .ok false := by
  obtain ⟨hdecided, hsame, hnone⟩ := host_decides_external
  have hdecoy : decoy.StandsIn " \tHTTPS://home.org@Evil.org:443/home.org?//home.org#@home.org\n" :=
    ⟨[' ', '\t'], ['\n'], List.all_eq_true.1 rfl, List.all_eq_true.1 rfl, by decide⟩
  have hbare : bare.StandsIn "//evil.ORG" := ⟨[], [], nofun, nofun, by decide⟩
  have hlists : ["Home.org", "EVIL.org", "home.org"].map lower = ["home.org", "evil.org", "home.org"] ∧
      ["Evil.Org", "home.org"].map lower = ["evil.org", "home.org"] := by decide +kernel
  refine ⟨hdecoy, hbare, ?_, ?_, hnone _ _ (List.all_eq_true.1 rfl) (by decide +kernel)⟩
  · exact (hdecided decoy _ _ hdecoy).trans (congrArg Except.ok (decide_eq_true (by decide +kernel)))
  · refine hsame decoy bare _ _ _ _ hdecoy hbare (by decide +kernel) (by decide +kernel) fun name => ?_
    rw [hlists.1, hlists.2]
    simp only [List.mem_cons, List.not_mem_nil, or_false]
    exact ⟨fun h => (or_left_comm.1 h).imp_right (·.elim id id), fun h => or_left_comm.1 (h.imp_right .inl)⟩

end Folio.Url
