import Folio.Proofs.Value
import Folio.Proofs.Number.Digits
import Folio.Slug
import Mathlib.Data.List.Nodup
import Mathlib.Data.List.Perm.Subperm

set_option autoImplicit false

/-! # Free ids

A slugger holds a counter for each id that is taken. The counter tells how many suffixes of the id are taken without a gap
(`Slugger.IsSound`), so the next suffix is looked for behind it, and what is found is still the least free one
(`Slugger.slug_spec`).

A slugger is asked for ids, told of ids that are in use, and made to forget, in any order. The search for an id tries one id
after the other and needs the counter of the base for each; it always ends, and never lacks the counter
(`Slugger.searches_slug`). What it finds depends on the ids alone that were given or reserved since the slugger last forgot. -/

namespace Folio

/-- The first id for a base that is not taken: the base itself, or else the base with the least number that is free. -/
def IsLeastFree (taken : String → Prop) (base id : String) : Prop :=
  (¬taken base ∧ id = base) ∨
    (taken base ∧ ∃ n, 1 ≤ n ∧ id = suffixed base n ∧ ¬taken id ∧ ∀ k, 1 ≤ k → k < n → taken (suffixed base k))

/-! ## Suffixes -/

theorem suffixed_inj {base : String} {n m : Nat} (h : suffixed base n = suffixed base m) : n = m := by
  have hdigits : Nat.toDigits 10 n = Nat.toDigits 10 m := by
    simpa [suffixed, String.append_assoc, ← String.toList_inj] using h
  rw [← Text.decimalValue_toDigits n, hdigits, Text.decimalValue_toDigits]

theorem suffixed_ne (base : String) (n : Nat) : suffixed base n ≠ base := by
  intro h
  have hlength : base.length + "-".length + (toString n).length = base.length := by
    simpa only [suffixed, String.length_append] using congrArg String.length h
  have hhyphen : "-".length = 1 := rfl
  omega

theorem suffixed_ne_empty (base : String) (n : Nat) : suffixed base n ≠ "" := by
  intro h
  have hlength := congrArg String.length h
  simp [suffixed, String.length_append] at hlength

section

variable {taken taken' : String → Prop} {base id id' : String}

theorem IsLeastFree.free (h : IsLeastFree taken base id) : ¬taken id := by
  rcases h with ⟨hfree, rfl⟩ | ⟨-, n, -, -, hfree, -⟩
  · exact hfree
  · exact hfree

/-- There is one least free id. -/
theorem IsLeastFree.unique (h : IsLeastFree taken base id) (h' : IsLeastFree taken base id') : id = id' := by
  rcases h with ⟨hfree, rfl⟩ | ⟨htaken, n, hn, rfl, hfree, hbelow⟩
  · rcases h' with ⟨-, rfl⟩ | ⟨htaken, -⟩
    · rfl
    · exact absurd htaken hfree
  · rcases h' with ⟨hbase, -⟩ | ⟨-, m, hm, rfl, hfree', hbelow'⟩
    · exact absurd htaken hbase
    · -- neither number is below the other
      rcases Nat.lt_trichotomy n m with hlt | rfl | hlt
      · exact absurd (hbelow' n hn hlt) hfree
      · rfl
      · exact absurd (hbelow m hm hlt) hfree'

end

namespace Slugger

/-! ## What is taken -/

section

variable (s : Slugger) (id other : String) (n : Nat)

theorem counter?_setCounter : (s.setCounter id n).counter? other = if other = id then some n else s.counter? other := by
  rw [counter?, setCounter, List.lookup_cons, lookup_filter_ne, ← counter?]
  by_cases h : other = id
  · simp [h]
  · simp [h, beq_eq_false_iff_ne.2 h]

theorem isTaken_setCounter : (s.setCounter id n).isTaken other = true ↔ other = id ∨ s.isTaken other = true := by
  rw [isTaken, counter?_setCounter, isTaken]
  split <;> simp_all

theorem isTaken_iff_mem : s.isTaken id = true ↔ id ∈ s.taken.map Prod.fst := by
  rw [isTaken, counter?]
  induction s.taken with
  | nil => simp
  | cons e rest ih =>
    obtain ⟨first, m⟩ := e
    rw [List.lookup_cons, List.map_cons, List.mem_cons, ← ih]
    by_cases h : id = first
    · simp [h]
    · simp [h, beq_eq_false_iff_ne.2 h]

end

/-- Each id is taken once, and of its suffixes all up to its counter are taken. -/
structure IsSound (s : Slugger) : Prop where
  nodup : (s.taken.map Prod.fst).Nodup
  counters : ∀ id n, s.counter? id = some n → ∀ k, 1 ≤ k → k ≤ n → s.isTaken (suffixed id k) = true

section

variable {s : Slugger} {id base : String} {n : Nat}

theorem isSound_empty : IsSound {} where
  nodup := .nil
  counters _ _ h := by cases h

theorem nodup_setCounter (h : (s.taken.map Prod.fst).Nodup) (id : String) (n : Nat) :
    ((s.setCounter id n).taken.map Prod.fst).Nodup := by
  rw [setCounter, List.map_cons, map_fst_filter_ne]
  exact List.nodup_cons.2 ⟨by simp, h.filter _⟩

/-- An id that is recorded has no suffixes yet. -/
theorem IsSound.setCounter_zero (h : s.IsSound) (id : String) : (s.setCounter id 0).IsSound := by
  refine ⟨nodup_setCounter h.nodup id 0, fun other m hother k hk hkm => ?_⟩
  rw [counter?_setCounter] at hother
  rw [isTaken_setCounter]
  split at hother
  · obtain rfl := Option.some.inj hother
    omega
  · exact .inr (h.counters other m hother k hk hkm)

/-- A suffix is recorded behind all others, and the counter of its base is set to it. -/
theorem IsSound.setCounter_suffixed (h : s.IsSound) (hbase : s.isTaken base = true)
    (htaken : ∀ k, 1 ≤ k → k < n → s.isTaken (suffixed base k) = true) :
    ((s.setCounter base n).setCounter (suffixed base n) 0).IsSound ∧
      ∀ id, ((s.setCounter base n).setCounter (suffixed base n) 0).isTaken id = true ↔
        id = suffixed base n ∨ s.isTaken id = true := by
  have hids : ∀ id, ((s.setCounter base n).setCounter (suffixed base n) 0).isTaken id = true ↔
      id = suffixed base n ∨ s.isTaken id = true := by
    intro id
    rw [isTaken_setCounter, isTaken_setCounter]
    refine or_congr_right (or_iff_right_of_imp ?_)
    rintro rfl
    exact hbase
  refine ⟨⟨nodup_setCounter (nodup_setCounter h.nodup _ _) _ _, fun id m hid k hk hkm => ?_⟩, hids⟩
  rw [counter?_setCounter, counter?_setCounter] at hid
  rw [hids]
  split at hid
  · obtain rfl := Option.some.inj hid
    omega
  · split at hid
    · next heq =>
      obtain rfl := Option.some.inj hid
      subst heq
      rcases Nat.lt_or_eq_of_le hkm with hlt | rfl
      · exact .inr (htaken k hk hlt)
      · exact .inl rfl
    · exact .inr (h.counters id m hid k hk hkm)

/-! ## Looking for a suffix -/

theorem nextFree_spec (s : Slugger) (base : String) (n fuel : Nat) :
    n < s.nextFree base n fuel ∧
    (∀ k, n < k → k < s.nextFree base n fuel → s.isTaken (suffixed base k) = true) ∧
    (s.isTaken (suffixed base (s.nextFree base n fuel)) = true → s.nextFree base n fuel = n + fuel + 1) := by
  induction fuel generalizing n with
  | zero =>
    rw [nextFree]
    exact ⟨by omega, fun k _ _ => by omega, fun _ => rfl⟩
  | succ fuel ih =>
    rw [nextFree]
    split
    · next htaken =>
      obtain ⟨hlt, hbelow, hlast⟩ := ih (n + 1)
      refine ⟨by omega, fun k hk hlt => ?_, fun h => by rw [hlast h]; omega⟩
      rcases Nat.lt_or_eq_of_le hk with hk | rfl
      · exact hbelow k hk hlt
      · exact htaken
    · next hfree => exact ⟨by omega, fun k _ _ => by omega, fun h => absurd h hfree⟩

/-- As many suffixes as ids that are taken cannot all be taken, if the base is taken, too. -/
theorem exists_free (hbase : s.isTaken base = true) (n : Nat)
    (h : ∀ k, n < k → k ≤ n + s.taken.length → s.isTaken (suffixed base k) = true) : False := by
  have hnodup : (base :: (List.range s.taken.length).map fun i => suffixed base (n + 1 + i)).Nodup := by
    refine List.nodup_cons.2 ⟨fun hmem => ?_, ?_⟩
    · obtain ⟨i, -, hi⟩ := List.mem_map.1 hmem
      exact suffixed_ne _ _ hi
    · refine List.Nodup.map (fun i j hij => ?_) List.nodup_range
      have := suffixed_inj hij
      omega
  have hsubset : (base :: (List.range s.taken.length).map fun i => suffixed base (n + 1 + i)) ⊆ s.taken.map Prod.fst := by
    refine List.cons_subset.2 ⟨(isTaken_iff_mem s base).1 hbase, fun id hid => ?_⟩
    obtain ⟨i, hi, rfl⟩ := List.mem_map.1 hid
    have hi := List.mem_range.1 hi
    exact (isTaken_iff_mem s _).1 (h _ (by omega) (by omega))
  have hlength := (List.subperm_of_subset hnodup hsubset).length_le
  simp at hlength

/-- So the suffix that is looked for is free. -/
theorem not_isTaken_nextFree (hbase : s.isTaken base = true) (n : Nat) :
    ¬s.isTaken (suffixed base (s.nextFree base n s.taken.length)) = true := fun htaken => by
  obtain ⟨-, hbelow, hlast⟩ := s.nextFree_spec base n s.taken.length
  refine exists_free hbase n fun k hk hle => hbelow k hk ?_
  have := hlast htaken
  omega

/-! ## Giving and reserving ids -/

/-- A slugger gives the least free id, which is taken then. -/
theorem slug_spec (h : s.IsSound) (text : String) :
    IsLeastFree (s.isTaken · = true) (baseSlug text) (s.slug text).1 ∧ (s.slug text).2.IsSound ∧
      ∀ id, (s.slug text).2.isTaken id = true ↔ id = (s.slug text).1 ∨ s.isTaken id = true := by
  rw [slug]
  cases hcounter : s.counter? (baseSlug text) with
  | none =>
    refine ⟨.inl ⟨by simp [isTaken, hcounter], rfl⟩, h.setCounter_zero _, fun id => isTaken_setCounter s _ id 0⟩
  | some n =>
    have hbase : s.isTaken (baseSlug text) = true := by simp [isTaken, hcounter]
    have hfree := not_isTaken_nextFree hbase n
    obtain ⟨hlt, hbelow, -⟩ := s.nextFree_spec (baseSlug text) n s.taken.length
    dsimp only
    generalize hm : s.nextFree (baseSlug text) n s.taken.length = m at hlt hbelow hfree
    -- all suffixes before the one that is found are taken: those up to the counter, and those behind it
    have htaken : ∀ k, 1 ≤ k → k < m → s.isTaken (suffixed (baseSlug text) k) = true := by
      intro k hk hkm
      rcases Nat.lt_or_ge n k with hn | hn
      · exact hbelow k hn hkm
      · exact h.counters _ n hcounter k hk hn
    obtain ⟨hsound, hids⟩ := h.setCounter_suffixed hbase htaken
    exact ⟨.inr ⟨hbase, m, by omega, rfl, hfree, htaken⟩, hsound, hids⟩

/-- An id that is reserved is taken. -/
theorem reserve_spec (h : s.IsSound) (id : String) :
    (s.reserve id).IsSound ∧ ∀ other, (s.reserve id).isTaken other = true ↔ other = id ∨ s.isTaken other = true := by
  rw [reserve]
  split
  · next htaken =>
    refine ⟨h, fun other => (or_iff_right_of_imp ?_).symm⟩
    rintro rfl
    exact htaken
  · exact ⟨h.setCounter_zero id, fun other => isTaken_setCounter s id other 0⟩

end

end Slugger

/-! ## Ids for texts -/

/-- Ids for texts, one after the other: each text gets the first id for its base that is neither taken nor already given. -/
def Allocates : (String → Prop) → List String → List String → Prop
  | _, [], [] => True
  | taken, text :: texts, id :: ids =>
    IsLeastFree taken (baseSlug text) id ∧ Allocates (fun other => other = id ∨ taken other) texts ids
  | _, _, _ => False

section

variable {taken taken' : String → Prop} {texts texts' ids ids' : List String}

theorem allocates_singleton {text : String} :
    Allocates taken [text] ids ↔ ∃ id, ids = [id] ∧ IsLeastFree taken (baseSlug text) id := by
  cases ids with
  | nil => simp [Allocates]
  | cons id ids => cases ids <;> simp [Allocates]

theorem Allocates.congr (h : ∀ id, taken' id ↔ taken id) (hids : Allocates taken texts ids) :
    Allocates taken' texts ids := by
  obtain rfl : taken' = taken := funext fun id => propext (h id)
  exact hids

theorem Allocates.append (h : Allocates taken texts ids) (h' : Allocates (fun id => id ∈ ids ∨ taken id) texts' ids') :
    Allocates taken (texts ++ texts') (ids ++ ids') := by
  induction texts generalizing taken ids with
  | nil =>
    cases ids with
    | nil => exact h'.congr fun id => by simp
    | cons id ids => exact h.elim
  | cons text texts ih =>
    cases ids with
    | nil => exact h.elim
    | cons id ids =>
      refine ⟨h.1, ih h.2 (h'.congr fun other => ?_)⟩
      rw [List.mem_cons, or_left_comm, or_assoc]

/-- No id is given that is taken. -/
theorem Allocates.not_taken (h : Allocates taken texts ids) : ∀ id ∈ ids, ¬taken id := by
  induction texts generalizing taken ids with
  | nil =>
    cases ids with
    | nil => exact nofun
    | cons id ids => exact h.elim
  | cons text texts ih =>
    cases ids with
    | nil => exact h.elim
    | cons id ids =>
      exact List.forall_mem_cons.2 ⟨h.1.free, fun other hother htaken => ih h.2 other hother (.inr htaken)⟩

/-- No id is given twice. -/
theorem Allocates.nodup (h : Allocates taken texts ids) : ids.Nodup := by
  induction texts generalizing taken ids with
  | nil =>
    cases ids with
    | nil => exact .nil
    | cons id ids => exact h.elim
  | cons text texts ih =>
    cases ids with
    | nil => exact h.elim
    | cons id ids => exact List.nodup_cons.2 ⟨fun hmem => h.2.not_taken id hmem (.inl rfl), ih h.2⟩

/-- A text whose id is empty has an empty base. -/
theorem IsLeastFree.base_eq_empty {base : String} (h : IsLeastFree taken base "") : base = "" := by
  rcases h with ⟨-, rfl⟩ | ⟨-, n, -, hid, -⟩
  · rfl
  · exact absurd hid.symm (suffixed_ne_empty base n)

/-- Texts whose ids are empty get empty ids again, if the empty id is not taken. -/
theorem Allocates.again (h : Allocates taken texts ids) (hempty : ¬ taken' "")
    (h' : Allocates taken' (((texts.zip ids).filter (·.2 = "")).map Prod.fst) ids') : ∀ id ∈ ids', id = "" := by
  induction texts generalizing taken ids with
  | nil =>
    cases ids' with
    | nil => exact nofun
    | cons id ids' => exact h'.elim
  | cons text texts ih =>
    cases ids with
    | nil => exact h.elim
    | cons id ids =>
      rw [List.zip_cons_cons] at h'
      by_cases hid : id = ""
      · subst hid
        -- the empty id is given once, so no text behind has it
        have hothers : (texts.zip ids).filter (·.2 = "") = [] := by
          refine List.filter_eq_nil_iff.2 fun e he => ?_
          rw [decide_eq_true_eq]
          exact fun heq => h.2.not_taken e.2 (List.of_mem_zip he).2 (.inl heq)
        rw [List.filter_cons_of_pos (by simp), hothers, List.map_cons, List.map_nil] at h'
        obtain ⟨id', rfl, hid'⟩ := allocates_singleton.1 h'
        rw [h.1.base_eq_empty] at hid'
        exact List.forall_mem_singleton.2 (hid'.unique (.inl ⟨hempty, rfl⟩))
      · rw [List.filter_cons_of_neg (by simpa using hid)] at h'
        exact ih h.2 h'

end

end Folio

namespace Folio.Slugger

/-! ## The search for an id -/

/-- How the search for an id ends that tries one id after the other, from some id on. A free id ends it. Behind an id that is
    taken, the counter of the base goes up by one and gives the next id to try; without a counter there is nothing to find. -/
inductive Searches (base : String) : Slugger → String → Option (Slugger × String) → Prop
  | found {s : Slugger} {id : String} (hfree : ¬s.isTaken id = true) : Searches base s id (some (s, id))
  | next {s : Slugger} {id : String} {n : Nat} {out : Option (Slugger × String)} (htaken : s.isTaken id = true)
      (hcounter : s.counter? base = some n)
      (hnext : Searches base (s.setCounter base (n + 1)) (suffixed base (n + 1)) out) : Searches base s id out
  | lost {s : Slugger} {id : String} (htaken : s.isTaken id = true) (hcounter : s.counter? base = none) :
      Searches base s id none

section

variable {base id : String} {s : Slugger} {out out' : Option (Slugger × String)}

/-- A search ends in one way. -/
theorem Searches.unique (h : Searches base s id out) (h' : Searches base s id out') : out = out' := by
  induction h with
  | found hfree =>
    cases h' with
    | found => rfl
    | next htaken => exact absurd htaken hfree
    | lost htaken => exact absurd htaken hfree
  | next htaken hcounter _ ih =>
    cases h' with
    | found hfree => exact absurd htaken hfree
    | next _ hcounter' hnext =>
      obtain rfl := Option.some.inj (hcounter.symm.trans hcounter')
      exact ih hnext
    | lost _ hnone => rw [hnone] at hcounter; cases hcounter
  | lost htaken hcounter =>
    cases h' with
    | found hfree => exact absurd htaken hfree
    | next _ hcounter' => rw [hcounter] at hcounter'; cases hcounter'
    | lost => rfl

theorem setCounter_setCounter (s : Slugger) (id : String) (n m : Nat) :
    (s.setCounter id n).setCounter id m = s.setCounter id m := by
  simp [setCounter, List.filter_filter]

/-- The next free suffix depends on what is taken, and not on the counters. -/
theorem nextFree_congr {s' : Slugger} (h : ∀ id, s'.isTaken id = s.isTaken id) (base : String) (n fuel : Nat) :
    s'.nextFree base n fuel = s.nextFree base n fuel := by
  induction fuel generalizing n with
  | zero => rfl
  | succ fuel ih => rw [nextFree, nextFree, h, ih]

/-- A counter that is raised takes no other id. -/
theorem isTaken_raise {n : Nat} (hcounter : s.counter? base = some n) (m : Nat) (id : String) :
    (s.setCounter base m).isTaken id = s.isTaken id := by
  rw [Bool.eq_iff_iff, isTaken_setCounter]
  refine or_iff_right_of_imp ?_
  rintro rfl
  rw [isTaken, hcounter]
  rfl

/-- One round is enough if the next suffix is free. -/
theorem searches_next {n : Nat} (hcounter : s.counter? base = some n) (hid : s.isTaken id = true)
    (hfree : ¬s.isTaken (suffixed base (n + 1)) = true) :
    Searches base s id (some (s.setCounter base (n + 1), suffixed base (n + 1))) :=
  .next hid hcounter (.found (by rwa [isTaken_raise hcounter]))

/-- From a taken id on, the search ends at the next free suffix. -/
theorem searches_nextFree {n fuel : Nat} (hcounter : s.counter? base = some n) (hid : s.isTaken id = true)
    (hfree : ¬s.isTaken (suffixed base (s.nextFree base n fuel)) = true) :
    Searches base s id
      (some (s.setCounter base (s.nextFree base n fuel), suffixed base (s.nextFree base n fuel))) := by
  induction fuel generalizing s id n with
  | zero => exact searches_next hcounter hid hfree
  | succ fuel ih =>
    rw [nextFree] at hfree ⊢
    split at hfree
    · next htaken =>
      rw [if_pos htaken]
      -- the slugger of the next round, with the same ids and a higher counter
      have hsame := isTaken_raise hcounter (n + 1)
      have hraised : (s.setCounter base (n + 1)).counter? base = some (n + 1) := by
        rw [counter?_setCounter, if_pos rfl]
      have htaken' : (s.setCounter base (n + 1)).isTaken (suffixed base (n + 1)) = true := by rwa [hsame]
      have hnext := ih hraised htaken' (by rwa [nextFree_congr hsame, hsame])
      rw [nextFree_congr hsame, setCounter_setCounter] at hnext
      exact .next hid hcounter hnext
    · next hnew =>
      rw [if_neg hnew]
      exact searches_next hcounter hid hnew

end

/-- The search for the id of a text ends, whatever was taken before; the id that it ends at is given and recorded. -/
theorem searches_slug (s : Slugger) (text : String) :
    ∃ found, Searches (baseSlug text) s (baseSlug text) (some (found, (s.slug text).1)) ∧
      (s.slug text).2 = found.setCounter (s.slug text).1 0 := by
  rw [slug]
  cases hcounter : s.counter? (baseSlug text) with
  | none => exact ⟨s, .found (by simp [isTaken, hcounter]), rfl⟩
  | some n =>
    have hbase : s.isTaken (baseSlug text) = true := by simp [isTaken, hcounter]
    exact ⟨_, searches_nextFree hcounter hbase (not_isTaken_nextFree hbase n), rfl⟩

/-! ## Calls -/

/-- A call on a slugger. -/
inductive Call where
  | slug (text : String)
  | reserve (id : String)
  | reset
deriving Repr, DecidableEq

/-- What a call did. -/
inductive Event where
  | gave (id : String)
  | reserved (id : String)
  | forgot
deriving Repr, DecidableEq

/-- The id that a call took. -/
def Event.id? : Event → Option String
  | .gave id => some id
  | .reserved id => some id
  | .forgot => none

/-- Make a call. -/
def call (s : Slugger) : Call → Event × Slugger
  | .slug text => (.gave (s.slug text).1, (s.slug text).2)
  | .reserve id => (.reserved id, s.reserve id)
  | .reset => (.forgot, s.reset)

/-- Make some calls, one after the other. -/
def run (s : Slugger) : List Call → List Event × Slugger
  | [] => ([], s)
  | c :: calls => ((s.call c).1 :: ((s.call c).2.run calls).1, ((s.call c).2.run calls).2)

/-- What some calls did since the last of them by which the slugger forgot. -/
def sinceReset (events : List Event) : List Event :=
  (events.reverse.takeWhile (· != .forgot)).reverse

/-- The ids that were taken since then. -/
def idsSinceReset (events : List Event) : List String :=
  (sinceReset events).filterMap Event.id?

/-- Each id that was given is none that was taken before. -/
def GivesAnew (events : List Event) : Prop :=
  events.Pairwise fun earlier later => ∀ id, later = .gave id → earlier.id? ≠ some id

section

variable {s : Slugger} {events : List Event}

theorem run_concat (s : Slugger) (calls : List Call) (c : Call) :
    s.run (calls ++ [c])
      = ((s.run calls).1 ++ [((s.run calls).2.call c).1], ((s.run calls).2.call c).2) := by
  induction calls generalizing s with
  | nil => rfl
  | cons first calls ih => rw [List.cons_append, run, ih, run, List.cons_append]

theorem sinceReset_concat (events : List Event) (e : Event) :
    sinceReset (events ++ [e]) = if e = .forgot then [] else sinceReset events ++ [e] := by
  rw [sinceReset, List.reverse_append, List.reverse_singleton, List.singleton_append, List.takeWhile_cons]
  by_cases he : e = .forgot
  · simp [he]
  · simp [he, sinceReset]

theorem mem_idsSinceReset_concat {e : Event} (he : e ≠ .forgot) {id : String} :
    id ∈ idsSinceReset (events ++ [e]) ↔ e.id? = some id ∨ id ∈ idsSinceReset events := by
  rw [idsSinceReset, sinceReset_concat, if_neg he, List.filterMap_append, List.mem_append, or_comm]
  simp [idsSinceReset]

/-- What a slugger holds after some calls: the ids that were taken since it last forgot, with sound counters, and no id was
    given that was taken before. -/
structure Holds (s : Slugger) (events : List Event) : Prop where
  sound : s.IsSound
  taken : ∀ id, s.isTaken id = true ↔ id ∈ idsSinceReset events
  anew : GivesAnew (sinceReset events)

theorem holds_empty : Holds {} [] where
  sound := isSound_empty
  taken id := by simp [isTaken, counter?, idsSinceReset, sinceReset]
  anew := .nil

/-- The id that is given is the least free one. -/
theorem Holds.leastFree (h : Holds s events) (text : String) :
    IsLeastFree (· ∈ idsSinceReset events) (baseSlug text) (s.slug text).1 := by
  have hids : (s.isTaken · = true) = (· ∈ idsSinceReset events) := funext fun id => propext (h.taken id)
  exact hids ▸ (slug_spec h.sound text).1

/-- One more call keeps the slugger in step with what was done. -/
theorem Holds.call (h : Holds s events) (c : Call) : Holds (s.call c).2 (events ++ [(s.call c).1]) := by
  cases c with
  | slug text =>
    obtain ⟨-, hsound, htaken⟩ := slug_spec h.sound text
    refine ⟨hsound, fun id => ?_, ?_⟩
    · rw [mem_idsSinceReset_concat (by simp [Slugger.call]), ← h.taken]
      exact (htaken id).trans (or_congr_left (by simp [Slugger.call, Event.id?, eq_comm]))
    · rw [sinceReset_concat, if_neg (by simp [Slugger.call])]
      refine List.pairwise_append.2 ⟨h.anew, List.pairwise_singleton _ _, fun earlier hearlier later hlater => ?_⟩
      obtain rfl := List.mem_singleton.1 hlater
      rintro id hgave hid
      obtain rfl := Event.gave.inj hgave
      exact (h.leastFree text).free (List.mem_filterMap.2 ⟨earlier, hearlier, hid⟩)
  | reserve id =>
    obtain ⟨hsound, htaken⟩ := reserve_spec h.sound id
    refine ⟨hsound, fun other => ?_, ?_⟩
    · rw [mem_idsSinceReset_concat (by simp [Slugger.call]), ← h.taken]
      exact (htaken other).trans (or_congr_left (by simp [Slugger.call, Event.id?, eq_comm]))
    · rw [sinceReset_concat, if_neg (by simp [Slugger.call])]
      refine List.pairwise_append.2 ⟨h.anew, List.pairwise_singleton _ _, fun earlier _ later hlater => ?_⟩
      obtain rfl := List.mem_singleton.1 hlater
      exact nofun
  | reset =>
    have hnone : sinceReset (events ++ [.forgot]) = [] := by rw [sinceReset_concat, if_pos rfl]
    refine ⟨isSound_empty, fun id => ?_, ?_⟩
    · simp [Slugger.call, reset, isTaken, counter?, idsSinceReset, hnone]
    · rw [Slugger.call, hnone]
      exact .nil

theorem holds_run (calls : List Call) : Holds (({} : Slugger).run calls).2 (({} : Slugger).run calls).1 := by
  induction calls using List.reverseRecOn with
  | nil => exact holds_empty
  | append_singleton calls c ih => rw [run_concat]; exact ih.call c

end

/-- A slugger gives the least free id, whatever was asked of it before.

    * The search for the id of a text ends, with a counter for each id that it tries, and the id that it finds is the base of
      the text if nothing took it since the slugger last forgot, and else the base with the least number that is free.
    * No id is given that was given or reserved since.
    * The id depends on the ids that were taken since, and not on how they were. -/
theorem ids_are_least_free (calls : List Call) :
    let events := (({} : Slugger).run calls).1
    let s := (({} : Slugger).run calls).2
    (∀ text, IsLeastFree (· ∈ idsSinceReset events) (baseSlug text) (s.slug text).1 ∧
      ∃ found, (∀ out, Searches (baseSlug text) s (baseSlug text) out ↔ out = some (found, (s.slug text).1)) ∧
        (s.slug text).2 = found.setCounter (s.slug text).1 0) ∧
    GivesAnew (sinceReset events) ∧
    ∀ calls' text,
      (∀ id, id ∈ idsSinceReset (({} : Slugger).run calls').1 ↔ id ∈ idsSinceReset events) →
        ((({} : Slugger).run calls').2.slug text).1 = (s.slug text).1 := by
  intro events s
  have hholds : Holds s events := holds_run calls
  refine ⟨fun text => ⟨hholds.leastFree text, ?_⟩, hholds.anew, fun calls' text hsame => ?_⟩
  · obtain ⟨found, hfound, hrecords⟩ := searches_slug s text
    exact ⟨found, fun out => ⟨fun h => h.unique hfound, fun h => h ▸ hfound⟩, hrecords⟩
  · have hids : (· ∈ idsSinceReset (({} : Slugger).run calls').1) = (· ∈ idsSinceReset events) :=
      funext fun id => propext (hsame id)
    have hleast := (holds_run calls').leastFree text
    rw [hids] at hleast
    exact hleast.unique (hholds.leastFree text)

/-- The ids `a` and `a-1` are taken in one document by a reserved id and a heading, and in another by two headings, after it was
    forgotten that `a-2` was reserved. The next heading gets `a-2` in both. -/
theorem least_free_however_taken :
    let calls : List Call := [.reserve "a-1", .slug "A"]
    let calls' : List Call := [.reserve "a-2", .reset, .slug "a", .slug " A? "]
    (∀ id, id ∈ idsSinceReset (({} : Slugger).run calls').1 ↔ id ∈ idsSinceReset (({} : Slugger).run calls).1) ∧
    ((({} : Slugger).run calls').2.slug "A!").1 = ((({} : Slugger).run calls).2.slug "A!").1 ∧
    ((({} : Slugger).run calls).2.slug "A!").1 = "a-2" := by
  intro calls calls'
  have hids : idsSinceReset (({} : Slugger).run calls).1 = ["a-1", "a"] := by decide +kernel
  have hids' : idsSinceReset (({} : Slugger).run calls').1 = ["a", "a-1"] := by decide +kernel
  have hsame : ∀ id, id ∈ idsSinceReset (({} : Slugger).run calls').1 ↔
      id ∈ idsSinceReset (({} : Slugger).run calls).1 := by
    intro id
    rw [hids, hids', List.mem_pair, List.mem_pair, or_comm]
  obtain ⟨-, -, hdepends⟩ := ids_are_least_free calls
  exact ⟨hsame, hdepends calls' "A!" hsame, by decide +kernel⟩

end Folio.Slugger
