import Folio.Proofs.Catalogue.Inversion
import Folio.Proofs.Provider.History
import Folio.Settings
import Folio.Watch

set_option autoImplicit false

/-! # What a provider drops for changed paths

Changed paths are worked through in order (`invalidationsFor_cons`): what is no source is skipped, a source below the root
drops its page, and a source elsewhere drops everything and ends the work. So sources below the root drop their pages and
nothing else (`invalidationsFor_append`), and nothing is left of a page whose source is among the paths, whatever the order and
the spelling of the paths (`notices_are_exact`). -/

namespace Folio

/-! ## Places below a root -/

namespace Path

variable {home : Place} {root p : Path} {names : Place}

/-- A path leads, by some names, to a place below a root. No path with the character zero does. -/
structure LeadsBelow (p : Path) (home : Place) (root : Path) (names : Place) : Prop where
  rootNoNul : root.hasNul = false
  noNul : p.hasNul = false
  place_eq : p.place home = root.place home ++ names

theorem relative?_eq_some_iff : p.relative? home root = some names ↔ p.LeadsBelow home root names := by
  unfold relative?
  constructor
  · intro h
    split at h
    · cases h
    · next hnul =>
      rw [Bool.or_eq_true, not_or, Bool.not_eq_true, Bool.not_eq_true] at hnul
      exact ⟨hnul.1, hnul.2, below?_eq_some.1 h⟩
  · rintro ⟨hroot, hp, hplace⟩
    rw [hroot, hp, hplace, below?_append]
    rfl

/-- The slug of a source below the root is spelled by the names that lead to it from there. -/
theorem LeadsBelow.pathSlug (h : p.LeadsBelow home root names) :
    pathSlug home p (some root) = dropEnding (text ⟨false, names⟩) := by
  rw [Folio.pathSlug, Option.bind_some, relative?_eq_some_iff.2 h]

/-- A path names a source that is not below the root. -/
def Strays (p : Path) (home : Place) (root : Path) : Prop :=
  p.isSource = true ∧ ∀ names, ¬ p.LeadsBelow home root names

end Path

/-! ## What is dropped -/

section

variable {home : Place} {root p : Path} {before paths : List Path}

/-- What one path does: it is skipped, or drops everything and ends the work, or drops a page and leaves the rest to do. -/
theorem invalidationsFor_cons (p : Path) (rest : List Path) :
    (p.isSource = false ∧ invalidationsFor home root (p :: rest) = invalidationsFor home root rest) ∨
    (p.Strays home root ∧ invalidationsFor home root (p :: rest) = { everything := true }) ∨
    (p.isSource = true ∧ (∃ names, p.LeadsBelow home root names) ∧
      invalidationsFor home root (p :: rest) =
        ⟨pathSlug home p (some root) :: (invalidationsFor home root rest).slugs,
          (invalidationsFor home root rest).everything⟩) := by
  rw [invalidationsFor]
  cases hsource : p.isSource with
  | false => exact .inl ⟨rfl, rfl⟩
  | true =>
    cases hrelative : p.relative? home root with
    | none =>
      refine .inr (.inl ⟨⟨hsource, fun names hleads => ?_⟩, rfl⟩)
      rw [Path.relative?_eq_some_iff.2 hleads] at hrelative
      cases hrelative
    | some names => exact .inr (.inr ⟨rfl, ⟨names, Path.relative?_eq_some_iff.1 hrelative⟩, rfl⟩)

/-- The slugs of the sources among some paths, in order. -/
def slugsOf (home : Place) (root : Path) (paths : List Path) : List String :=
  (paths.filter Path.isSource).map fun p => pathSlug home p (some root)

/-- Sources below the root drop their pages, and the rest is worked through after them. -/
theorem invalidationsFor_append (h : ∀ p ∈ before, ¬ p.Strays home root) (rest : List Path) :
    invalidationsFor home root (before ++ rest) =
      ⟨slugsOf home root before ++ (invalidationsFor home root rest).slugs,
        (invalidationsFor home root rest).everything⟩ := by
  induction before with
  | nil => rfl
  | cons p before ih =>
    have hrest := ih fun q hq => h q (List.mem_cons_of_mem _ hq)
    rcases invalidationsFor_cons p (before ++ rest) with ⟨hsource, heq⟩ | ⟨hstrays, -⟩ | ⟨hsource, -, heq⟩
    · rw [List.cons_append, heq, hrest, slugsOf, slugsOf, List.filter_cons_of_neg (by simp [hsource])]
    · exact absurd hstrays (h p List.mem_cons_self)
    · rw [List.cons_append, heq, hrest, slugsOf, slugsOf, List.filter_cons_of_pos hsource]
      rfl

/-- If no source strays, their pages are dropped and no more. -/
theorem invalidationsFor_below (h : ∀ p ∈ paths, ¬ p.Strays home root) :
    invalidationsFor home root paths = ⟨slugsOf home root paths, false⟩ := by
  have hall := invalidationsFor_append h []
  rwa [List.append_nil, invalidationsFor, List.append_nil] at hall

/-- A source that strays drops everything, after the pages of the sources before it. -/
theorem invalidationsFor_strays (h : ∀ p ∈ before, ¬ p.Strays home root) (hstrays : p.Strays home root)
    (after : List Path) : invalidationsFor home root (before ++ p :: after) = ⟨slugsOf home root before, true⟩ := by
  rw [invalidationsFor_append h]
  rcases invalidationsFor_cons p after with ⟨hskipped, -⟩ | ⟨-, heq⟩ | ⟨-, ⟨names, hbelow⟩, -⟩
  · exact absurd (hskipped.symm.trans hstrays.1) Bool.false_ne_true
  · rw [heq, List.append_nil]
  · exact absurd hbelow (hstrays.2 names)

end

/-! ## What is left -/

namespace Provider

variable {ε : Type}

/-- A provider without the pages of some slugs. -/
def withoutAll (slugs : List String) (p : Provider ε) : Provider ε :=
  { p with
    cache := p.cache.filter fun e => !slugs.contains e.1
    inflight := p.inflight.filter fun e => !slugs.contains e.1 }

theorem invalidate_withoutAll (p : Provider ε) (slug : String) (slugs : List String) :
    withoutAll slugs (p.invalidate (some slug)) = withoutAll (slug :: slugs) p := by
  have hkept : ∀ other : String, (!slugs.contains other && other != slug) = !(slug :: slugs).contains other := by
    intro other
    rw [List.contains_cons, Bool.not_or, Bool.and_comm]
    rfl
  simp only [withoutAll, invalidate, without, List.filter_filter, hkept]

theorem foldl_invalidate (p : Provider ε) (slugs : List String) :
    (slugs.map some).foldl invalidate p = withoutAll slugs p := by
  induction slugs generalizing p with
  | nil => simp [withoutAll]
  | cons slug slugs ih => rw [List.map_cons, List.foldl_cons, ih, invalidate_withoutAll]

/-- Dropping everything leaves nothing in the tables, whatever was dropped before. -/
theorem applyInvalidations_eq (p : Provider ε) (slugs : List String) (everything : Bool) :
    p.applyInvalidations ⟨slugs, everything⟩ =
      if everything then { p with cache := [], inflight := [] } else withoutAll slugs p := by
  rw [applyInvalidations, Invalidations.calls, List.foldl_append, foldl_invalidate]
  cases everything <;> rfl

/-- A page is neither in the cache nor in flight. -/
def Lacks (p : Provider ε) (slug : String) : Prop :=
  slug ∉ p.cache.map Prod.fst ∧ slug ∉ p.inflight.map Prod.fst

theorem lacks_withoutAll {slug : String} {slugs : List String} (h : slug ∈ slugs) (p : Provider ε) :
    (withoutAll slugs p).Lacks slug := by
  have hnone : ∀ {α : Type} (table : List (String × α)),
      slug ∉ (table.filter fun e => !slugs.contains e.1).map Prod.fst := by
    intro α table hmem
    obtain ⟨e, he, rfl⟩ := List.mem_map.1 hmem
    have hkept := (List.mem_filter.1 he).2
    rw [List.contains_iff_mem.2 h] at hkept
    cases hkept
  exact ⟨hnone p.cache, hnone p.inflight⟩

/-- If no source strays, a provider loses the pages of the sources and nothing else. -/
theorem notify_below {home : Place} {root : Path} {paths : List Path} (h : ∀ path ∈ paths, ¬ path.Strays home root)
    (p : Provider ε) : p.notify home root paths = withoutAll (slugsOf home root paths) p := by
  rw [notify, invalidationsFor_below h, applyInvalidations_eq]
  rfl

/-- A source that strays takes everything from a provider. -/
theorem notify_strays {home : Place} {root : Path} {paths : List Path} (h : ∃ path ∈ paths, path.Strays home root)
    (p : Provider ε) : p.notify home root paths = { p with cache := [], inflight := [] } := by
  obtain ⟨before, path, after, rfl, hstrays, hfirst⟩ := exists_first h
  rw [notify, invalidationsFor_strays hfirst hstrays, applyInvalidations_eq]
  rfl

/-- What a provider in any state holds after it is told of changed paths, in any spelling, under a root.

    * Nothing is left of a page whose source is among the paths: it is neither in the cache nor in flight.
    * If all sources among them are below the root, their slugs are reported in order, and nothing changes but that the entries
      for these slugs are gone from both tables.
    * If a source among them is elsewhere, both tables are empty, nothing else changes, and the slugs of the sources before the
      first such are reported. -/
theorem notices_are_exact (p : Provider ε) (home : Place) (root : Path) (paths : List Path) :
    let dropped := invalidationsFor home root paths
    let q := p.notify home root paths
    (∀ path ∈ paths, path.isSource = true → ∀ names, path.LeadsBelow home root names →
      q.Lacks (Path.dropEnding (Path.text ⟨false, names⟩))) ∧
    ((∀ path ∈ paths, path.isSource = true → ∃ names, path.LeadsBelow home root names) →
      dropped.slugs = slugsOf home root paths ∧ q = withoutAll (slugsOf home root paths) p) ∧
    ((∃ path ∈ paths, path.Strays home root) →
      q = { p with cache := [], inflight := [] } ∧
      ∃ before path after, paths = before ++ path :: after ∧ path.Strays home root ∧
        (∀ earlier ∈ before, ¬ earlier.Strays home root) ∧ dropped.slugs = slugsOf home root before) := by
  intro dropped q
  refine ⟨fun path hpath hsource names hleads => ?_, fun hbelow => ?_, fun hstrays => ⟨notify_strays hstrays p, ?_⟩⟩
  · by_cases hstrays : ∃ path ∈ paths, path.Strays home root
    · rw [show q = _ from notify_strays hstrays p]
      exact ⟨List.not_mem_nil, List.not_mem_nil⟩
    · rw [show q = _ from notify_below (fun path hpath h => hstrays ⟨path, hpath, h⟩) p, ← hleads.pathSlug]
      exact lacks_withoutAll (List.mem_map_of_mem (List.mem_filter.2 ⟨hpath, hsource⟩)) p
  · have hnone : ∀ path ∈ paths, ¬ path.Strays home root := fun path hpath hstrays =>
      have ⟨names, hleads⟩ := hbelow path hpath hstrays.1
      hstrays.2 names hleads
    exact ⟨congrArg Invalidations.slugs (invalidationsFor_below hnone), notify_below hnone p⟩
  · obtain ⟨before, path, after, hpaths, hpath, hfirst⟩ := exists_first hstrays
    have hdropped : dropped = ⟨slugsOf home root before, true⟩ := by
      rw [show dropped = invalidationsFor home root paths from rfl, hpaths]
      exact invalidationsFor_strays hfirst hpath after
    exact ⟨before, path, after, hpaths, hpath, hfirst, congrArg Invalidations.slugs hdropped⟩

/-- A provider with two pages in the cache and two in flight. -/
def busyProvider : Provider String where
  catalogue := .make "@content" defaultKeyFormats []
  cache := [("a", compiled "a"), ("c", compiled "c")]
  inflight := [("x/b", 0), ("d", 1)]

/-- Sources below the root in several spellings, with a file that is none, drop their own pages; one that is elsewhere, between
    them, drops everything. -/
theorem busyProvider_is_told :
    let home : Place := ["site"]
    let root := Path.ofText "content"
    let below := ["content/a.md", "content/./x/y/../b.md", "content/notes.txt", "/site/content/a.md"].map Path.ofText
    let mixed := below ++ Path.ofText "content/../c.md" :: below
    (∀ path ∈ below, path.isSource = true → ∃ names, path.LeadsBelow home root names) ∧
    (invalidationsFor home root below).slugs = ["a", "x/b", "a"] ∧
    (busyProvider.notify home root below).cache.map Prod.fst = ["c"] ∧
    (busyProvider.notify home root below).inflight = [("d", 1)] ∧
    (∃ path ∈ mixed, path.Strays home root) ∧
    (busyProvider.notify home root mixed).cache = [] ∧ (busyProvider.notify home root mixed).inflight = [] := by
  intro home root below mixed
  have hbelow : ∀ path ∈ below, path.isSource = true → ∃ names, path.LeadsBelow home root names := by
    intro path hpath _
    have hall : ∀ path ∈ below, (path.relative? home root).isSome = true := by decide
    obtain ⟨names, hnames⟩ := Option.isSome_iff_exists.1 (hall path hpath)
    exact ⟨names, Path.relative?_eq_some_iff.1 hnames⟩
  have hstrays : ∃ path ∈ mixed, path.Strays home root := by
    refine ⟨Path.ofText "content/../c.md", by simp [mixed], by decide, fun names hleads => ?_⟩
    have hnone : (Path.ofText "content/../c.md").relative? home root = none := by decide
    rw [Path.relative?_eq_some_iff.2 hleads] at hnone
    cases hnone
  obtain ⟨-, hexact, -⟩ := notices_are_exact busyProvider home root below
  obtain ⟨-, -, hempty⟩ := notices_are_exact busyProvider home root mixed
  obtain ⟨hslugs, hleft⟩ := hexact hbelow
  have hsources : slugsOf home root below = ["a", "x/b", "a"] := by decide
  rw [hsources] at hslugs hleft
  refine ⟨hbelow, hslugs, ?_, ?_, hstrays, ?_, ?_⟩
  · rw [hleft]
    decide
  · rw [hleft]
    decide
  · rw [(hempty hstrays).1]
  · rw [(hempty hstrays).1]

end Provider

end Folio
