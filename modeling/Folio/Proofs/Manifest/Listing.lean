import Mathlib.Data.List.Perm.Basic
import Folio.Manifest
import Folio.Proofs.FileTree.Room
import Folio.Proofs.Json.ReadBack
import Folio.Proofs.Text.Files
import Folio.Proofs.Value

set_option autoImplicit false

/-! # Manifests read back

A listing has one text for each key (`IsListing`). The text of its manifest says nothing of the order in
which the entries came (`toText_congr`), and reads back as the listing in the order of its keys
(`read_of_toText`). Setting and erasing a key of what was read is setting and erasing it in the
listing. So a map from keys to places comes back from the file that it is written to, in the order of its keys, and
has one text (`manifest_round_trips`). -/

namespace Folio

/-! ## The order of texts -/

/-- The numbers of the characters of a text. -/
def codePoints (s : String) : List Nat :=
  s.toList.map Char.toNat

theorem map_toNat_lt_iff {cs ds : List Char} : cs.map Char.toNat < ds.map Char.toNat ↔ cs < ds := by
  induction cs generalizing ds with
  | nil => cases ds <;> simp
  | cons c cs ih =>
    cases ds with
    | nil => simp
    | cons d ds =>
      have hlt : c.toNat < d.toNat ↔ c < d := Iff.rfl
      have heq : c.toNat = d.toNat ↔ c = d := Char.toNat_inj
      rw [List.map_cons, List.map_cons, List.cons_lt_cons_iff, List.cons_lt_cons_iff, ih, hlt, heq]

/-- Texts are in the order of the numbers of their characters. -/
theorem codePoints_lt_iff {s t : String} : codePoints s < codePoints t ↔ s < t :=
  map_toNat_lt_iff.trans String.lt_iff.symm

namespace Manifest

open Text

/-- There is one entry for each key, and the entries are texts. -/
structure IsListing (modules : List (String × Json)) : Prop where
  distinct : (modules.map Prod.fst).Nodup
  texts : ∀ e ∈ modules, ∃ place, e.2 = .string place

/-! ## Order -/

theorem keyLe_iff {a b : String × Json} : keyLe a b = true ↔ a.1 ≤ b.1 := by
  rw [keyLe, Bool.or_eq_true, decide_eq_true_eq, beq_iff_eq, Std.le_iff_lt_or_eq]

theorem keyLe_trans (a b c : String × Json) (hab : keyLe a b = true) (hbc : keyLe b c = true) :
    keyLe a c = true :=
  keyLe_iff.2 (String.le_trans (keyLe_iff.1 hab) (keyLe_iff.1 hbc))

theorem keyLe_total (a b : String × Json) : (keyLe a b || keyLe b a) = true := by
  rw [Bool.or_eq_true, keyLe_iff, keyLe_iff]
  exact String.le_total _ _

theorem nodup_of_distinct {modules : List (String × Json)} (h : (modules.map Prod.fst).Nodup) :
    modules.Nodup :=
  List.Nodup.of_map _ h

theorem eq_of_key {modules : List (String × Json)} (h : (modules.map Prod.fst).Nodup)
    {a b : String × Json} (ha : a ∈ modules) (hb : b ∈ modules) (hkey : a.1 = b.1) : a = b :=
  List.inj_on_of_nodup_map h ha hb hkey

/-- Listings with the same entries are the same in the order of their keys. -/
theorem mergeSort_congr {modules modules' : List (String × Json)} (h : (modules.map Prod.fst).Nodup)
    (h' : (modules'.map Prod.fst).Nodup) (hsame : ∀ e, e ∈ modules ↔ e ∈ modules') :
    modules.mergeSort keyLe = modules'.mergeSort keyLe := by
  have hperm : modules.Perm modules' :=
    (List.perm_ext_iff_of_nodup (nodup_of_distinct h) (nodup_of_distinct h')).2 hsame
  refine @List.Perm.eq_of_pairwise _ (fun a b => keyLe a b = true) _ _ (fun a b ha hb hab hba => ?_)
    (List.pairwise_mergeSort keyLe_trans keyLe_total _)
    (List.pairwise_mergeSort keyLe_trans keyLe_total _)
    ((List.mergeSort_perm _ _).trans (hperm.trans (List.mergeSort_perm _ _).symm))
  have hkey := String.le_antisymm (keyLe_iff.1 hab) (keyLe_iff.1 hba)
  exact eq_of_key h' ((hsame a).1 (List.mem_mergeSort.1 ha)) (List.mem_mergeSort.1 hb) hkey

/-- A manifest says nothing of the order in which its entries came. -/
theorem toText_congr {modules modules' : List (String × Json)} (h : (modules.map Prod.fst).Nodup)
    (h' : (modules'.map Prod.fst).Nodup) (hsame : ∀ e, e ∈ modules ↔ e ∈ modules') :
    toText modules = toText modules' := by
  rw [toText, toText, toJson, toJson, mergeSort_congr h h' hsame]

theorem IsListing.mergeSort {modules : List (String × Json)} (h : IsListing modules) :
    IsListing (modules.mergeSort keyLe) :=
  ⟨((List.mergeSort_perm modules keyLe).map Prod.fst).nodup_iff.2 h.distinct,
    fun e he => h.texts e (List.mem_mergeSort.1 he)⟩

/-! ## Texts -/

theorem membersHaveDistinctNames_of_texts {modules : List (String × Json)}
    (h : ∀ e ∈ modules, ∃ place, e.2 = .string place) :
    Json.membersHaveDistinctNames modules = true := by
  induction modules with
  | nil => rfl
  | cons e rest ih =>
    obtain ⟨key, value⟩ := e
    obtain ⟨place, rfl⟩ := h (key, value) List.mem_cons_self
    rw [Json.membersHaveDistinctNames, ih fun e he => h e (List.mem_cons_of_mem _ he)]
    rfl

theorem anyHugeMember_of_texts {modules : List (String × Json)}
    (h : ∀ e ∈ modules, ∃ place, e.2 = .string place) : Json.anyHugeMember modules = false := by
  induction modules with
  | nil => rfl
  | cons e rest ih =>
    obtain ⟨key, value⟩ := e
    obtain ⟨place, rfl⟩ := h (key, value) List.mem_cons_self
    rw [Json.anyHugeMember, ih fun e he => h e (List.mem_cons_of_mem _ he)]
    rfl

theorem firstBrokenMember?_of_texts {modules : List (String × Json)}
    (h : ∀ e ∈ modules, ∃ place, e.2 = .string place) : Json.firstBrokenMember? modules = none := by
  induction modules with
  | nil => rfl
  | cons e rest ih =>
    obtain ⟨key, value⟩ := e
    obtain ⟨place, rfl⟩ := h (key, value) List.mem_cons_self
    rw [Json.firstBrokenMember?, ih fun e he => h e (List.mem_cons_of_mem _ he)]
    rfl

/-- The text of a manifest reads back as its data. -/
theorem readChars_toText {modules : List (String × Json)} (h : IsListing modules) :
    Json.readChars (toText modules) = .ok (toJson modules) := by
  have hsorted := h.mergeSort
  refine Json.readChars_chars Json.isReadBy_asciiLines ?_ ?_ ?_
  · refine Json.hasDistinctNames_object.2 ⟨List.nodup_singleton _, ?_⟩
    simp only [Json.membersHaveDistinctNames, Bool.and_true]
    exact Json.hasDistinctNames_object.2
      ⟨hsorted.distinct, membersHaveDistinctNames_of_texts hsorted.texts⟩
  · simp only [toJson, Json.hasHugeInteger, Json.anyHugeMember, Bool.or_false]
    exact anyHugeMember_of_texts hsorted.texts
  · simp only [toJson, Json.firstBroken?, Json.firstBrokenMember?, Option.or_none]
    exact firstBrokenMember?_of_texts hsorted.texts

theorem isKept_intercalate {sep : List Char} (hsep : IsKept sep) {parts : List (List Char)}
    (h : ∀ part ∈ parts, IsKept part) : IsKept (List.intercalate sep parts) := by
  induction parts with
  | nil => exact isKept_nil
  | cons part rest ih =>
    have hpart := h part List.mem_cons_self
    cases rest with
    | nil => rwa [Json.intercalate_singleton]
    | cons next rest =>
      rw [Json.intercalate_cons _ _ (List.cons_ne_nil _ _)]
      exact isKept_append.2 ⟨hpart, isKept_append.2 ⟨hsep,
        ih fun part hp => h part (List.mem_cons_of_mem _ hp)⟩⟩

theorem isKept_newLine (level : Nat) : IsKept (Json.newLine level) := by
  refine isKept_cons.2 ⟨by decide, fun c hc => ?_⟩
  rw [List.eq_of_mem_replicate hc]
  decide

theorem isKept_bracket {first last : Char} (hfirst : first ≠ '\r' ∧ first ≠ '\x00')
    (hlast : last ≠ '\r' ∧ last ≠ '\x00') (level : Nat) {parts : List (List Char)}
    (h : ∀ part ∈ parts, IsKept part) :
    IsKept (Json.bracket Json.asciiLines level first last parts) := by
  rw [Json.bracket]
  split
  · exact isKept_cons.2 ⟨hfirst, isKept_cons.2 ⟨hlast, isKept_nil⟩⟩
  · have hsep : IsKept (',' :: Json.newLine (level + 1)) :=
      isKept_cons.2 ⟨by decide, isKept_newLine _⟩
    rw [if_pos (show Json.asciiLines.onLines = true from rfl)]
    simp only [isKept_append, isKept_cons, isKept_newLine, isKept_intercalate hsep h, isKept_nil, hfirst,
      hlast, and_self, ne_eq, not_false_eq_true]

theorem isKept_memberChars {modules : List (String × Json)}
    (h : ∀ e ∈ modules, ∃ place, e.2 = .string place) (level : Nat) :
    ∀ part ∈ Json.memberChars Json.asciiLines level modules, IsKept part := by
  induction modules with
  | nil => simp [Json.memberChars]
  | cons e rest ih =>
    obtain ⟨key, value⟩ := e
    obtain ⟨place, rfl⟩ := h (key, value) List.mem_cons_self
    intro part hpart
    rcases List.mem_cons.1 hpart with rfl | hpart
    · refine isKept_append.2 ⟨isKept_stringChars _ _, ?_⟩
      exact isKept_cons.2 ⟨by decide, isKept_cons.2 ⟨by decide, isKept_stringChars _ _⟩⟩
    · exact ih (fun e he => h e (List.mem_cons_of_mem _ he)) part hpart

theorem isKept_toText {modules : List (String × Json)} (h : IsListing modules) :
    IsKept (toText modules) := by
  rw [toText, toJson, Json.chars]
  refine isKept_bracket (by decide) (by decide) 0 fun part hpart => ?_
  obtain rfl := List.mem_singleton.1 hpart
  refine isKept_append.2 ⟨isKept_stringChars _ _, ?_⟩
  refine isKept_cons.2 ⟨by decide, isKept_cons.2 ⟨by decide, ?_⟩⟩
  exact isKept_bracket (by decide) (by decide) _ (isKept_memberChars h.mergeSort.texts _)

/-! ## Values -/

/-- What is read from the text of a manifest is the listing in the order of its keys. -/
theorem ofText_toText {modules : List (String × Json)} (h : IsListing modules) (path : Path) :
    ofText path (toText modules) = .ok (Json.toEntries (modules.mergeSort keyLe)) := by
  rw [ofText, readChars_toText h]
  rfl

theorem ofEntries_toEntries {modules : List (String × Json)}
    (h : ∀ e ∈ modules, ∃ place, e.2 = .string place) :
    Json.ofEntries (Json.toEntries modules) = .ok modules := by
  induction modules with
  | nil => rfl
  | cons e rest ih =>
    obtain ⟨key, value⟩ := e
    obtain ⟨place, rfl⟩ := h (key, value) List.mem_cons_self
    rw [Json.toEntries, Json.ofEntries, ih fun e he => h e (List.mem_cons_of_mem _ he)]
    rfl

/-- A listing that is read can be written again. -/
theorem entriesOf_toEntries {modules : List (String × Json)}
    (h : ∀ e ∈ modules, ∃ place, e.2 = .string place) : entriesOf (Json.toEntries modules) = modules := by
  rw [entriesOf, ofEntries_toEntries h]

theorem put_toEntries (key place : String) (modules : List (String × Json)) :
    put key place (Json.toEntries modules) = Json.toEntries (Json.put key (.string place) modules) := by
  unfold put
  induction modules with
  | nil => rfl
  | cons e rest ih =>
    obtain ⟨k, v⟩ := e
    rw [Json.toEntries, Value.insert, Json.put, Value.sameKey_string]
    by_cases hk : k = key
    · rw [if_pos hk, if_pos (by simp [hk]), Json.toEntries, Json.toValue, hk]
    · rw [if_neg hk, if_neg (by simp [hk]), ih, Json.toEntries]

theorem erase_toEntries (key : String) (modules : List (String × Json)) :
    erase key (Json.toEntries modules) = Json.toEntries (modules.filter fun e => e.1 != key) := by
  rw [erase, Json.toEntries_eq_map, Json.toEntries_eq_map, List.filter_map]
  rfl

/-! ## Entries -/

theorem IsListing.put {modules : List (String × Json)} (h : IsListing modules) (key place : String) :
    IsListing (Json.put key (.string place) modules) := by
  refine ⟨Json.nodup_put _ h.distinct, fun e he => ?_⟩
  rcases (Json.mem_put_iff h.distinct).1 he with rfl | ⟨he, -⟩
  · exact ⟨place, rfl⟩
  · exact h.texts e he

theorem IsListing.filter {modules : List (String × Json)} (h : IsListing modules)
    (keep : String × Json → Bool) : IsListing (modules.filter keep) :=
  ⟨h.distinct.sublist (List.filter_sublist.map _), fun e he => h.texts e (List.mem_filter.1 he).1⟩

/-! ## Files -/

theorem file_eq (out : Path) : file out = out.join ⟨false, [fileName]⟩ := rfl

theorem isName_fileName : ∀ s ∈ [fileName], IsName s := by
  intro s hs
  obtain rfl := List.mem_singleton.1 hs
  exact ⟨⟨by decide, by decide, by decide⟩, by decide, by decide⟩

theorem isSpelled_file {out : Path} (hout : out.IsSpelled) : (file out).IsSpelled :=
  Path.isSpelled_join hout fun s hs => (isName_fileName s hs).toIsPart

theorem place_file (home : Place) (out : Path) :
    (file out).place home = out.place home ++ [fileName] :=
  Path.place_join isName_fileName

theorem parent_file (out : Path) : (file out).parent = out := by
  simp [file_eq, Path.join, Path.parent]

/-- A manifest that is written is there then, and no other file is touched. -/
theorem write_ok {tree tree' : FileTree} (hproper : tree.IsProper) {out : Path} (hout : out.IsSpelled)
    {modules : List (String × Json)} (h : write tree out modules = .ok tree') :
    FileTree.Alters (· = out.place tree.home ++ [fileName]) tree tree' ∧
      ∃ modified, tree'.read (file out) = .ok (Text.encodeUtf8 (toText modules), modified) := by
  unfold write at h
  obtain ⟨made, hmade, h⟩ := Except.bind_eq_ok_iff.1 h
  rw [parent_file] at hmade
  obtain ⟨hmade, -⟩ := FileTree.makeDirectories_ok hproper hout hmade
  obtain ⟨hwrote, hread⟩ := FileTree.write_ok hmade.proper (isSpelled_file hout) h
  rw [place_file, hmade.home] at hwrote
  exact ⟨(hmade.mono fun _ => False.elim).trans hwrote, _, hread⟩

theorem doesExist_of_read {tree : FileTree} {p : Path} {bytes : List UInt8} {modified : Int}
    (h : tree.read p = .ok (bytes, modified)) : tree.doesExist p = true := by
  obtain ⟨hlocate, hentry⟩ := FileTree.read_eq_ok_iff.1 h
  rw [FileTree.doesExist, FileTree.find?, hlocate]
  simp [hentry]

/-- What is read from a manifest that lists some modules. -/
theorem read_of_toText {tree : FileTree} {out : Path} {modules : List (String × Json)}
    (h : IsListing modules) {modified : Int}
    (hread : tree.read (file out) = .ok (Text.encodeUtf8 (toText modules), modified)) :
    read tree out = .ok (Json.toEntries (modules.mergeSort keyLe)) := by
  have htext := FileTree.readText_of_read hread fun hmem => (isKept_toText h _ hmem).1 rfl
  rw [read, doesExist_of_read hread, htext]
  exact ofText_toText h (file out)

/-! ## Maps from keys to places -/

/-- A map from keys to places as the modules of a manifest. -/
def ofTexts (m : List (String × String)) : List (String × Json) :=
  m.map fun e => (e.1, .string e.2)

/-- A map in the order of its keys. -/
def sortedTexts (m : List (String × String)) : List (String × String) :=
  m.mergeSort fun a b => a.1 < b.1 || a.1 == b.1

section

variable {m m' : List (String × String)}

theorem map_fst_ofTexts (m : List (String × String)) : (ofTexts m).map Prod.fst = m.map Prod.fst := by
  rw [ofTexts, List.map_map]
  rfl

theorem isListing_ofTexts (h : (m.map Prod.fst).Nodup) : IsListing (ofTexts m) := by
  refine ⟨by rwa [map_fst_ofTexts], fun e he => ?_⟩
  obtain ⟨⟨key, place⟩, -, rfl⟩ := List.mem_map.1 he
  exact ⟨place, rfl⟩

theorem ofTexts_injective : Function.Injective ofTexts := by
  refine List.map_injective_iff.2 ?_
  rintro ⟨key, place⟩ ⟨key', place'⟩ h
  simpa using h

theorem mergeSort_ofTexts (m : List (String × String)) :
    (ofTexts m).mergeSort keyLe = ofTexts (sortedTexts m) :=
  (List.map_mergeSort (f := fun e : String × String => (e.1, Json.string e.2)) fun _ _ _ _ => rfl).symm

theorem toEntries_ofTexts (m : List (String × String)) :
    Json.toEntries (ofTexts m) = m.map fun e => (.string e.1, .string e.2) := by
  rw [Json.toEntries_eq_map, ofTexts, List.map_map]
  rfl

/-- A map in the order of its keys has its keys in the order of their characters, since none is there twice. -/
theorem pairwise_sortedTexts (h : (m.map Prod.fst).Nodup) :
    (sortedTexts m).Pairwise fun a b => codePoints a.1 < codePoints b.1 := by
  have hsorted := List.pairwise_mergeSort keyLe_trans keyLe_total (ofTexts m)
  rw [mergeSort_ofTexts, ofTexts, List.pairwise_map] at hsorted
  have hkeys : (sortedTexts m).Pairwise fun a b => a.1 ≠ b.1 :=
    List.pairwise_map.1 (((List.mergeSort_perm m _).map Prod.fst).nodup_iff.2 h)
  refine (hsorted.and hkeys).imp fun {a b} hab => codePoints_lt_iff.2 ?_
  simpa [keyLe, hab.2] using hab.1

/-- Two maps have one text exactly if they have the same entries. -/
theorem toText_ofTexts_inj (h : (m.map Prod.fst).Nodup) (h' : (m'.map Prod.fst).Nodup) :
    toText (ofTexts m') = toText (ofTexts m) ↔ m'.Perm m := by
  constructor
  · intro heq
    have hread := ofText_toText (isListing_ofTexts h') (file (.ofText ""))
    rw [heq, ofText_toText (isListing_ofTexts h)] at hread
    have hsorted := congrArg entriesOf (Except.ok.inj hread)
    rw [entriesOf_toEntries (isListing_ofTexts h).mergeSort.texts,
      entriesOf_toEntries (isListing_ofTexts h').mergeSort.texts, mergeSort_ofTexts, mergeSort_ofTexts] at hsorted
    have hsame : (sortedTexts m').Perm m := ofTexts_injective hsorted ▸ List.mergeSort_perm m _
    exact (List.mergeSort_perm m' _).symm.trans hsame
  · intro hperm
    have hentries := hperm.map fun e => (e.1, Json.string e.2)
    exact toText_congr (isListing_ofTexts h').distinct (isListing_ofTexts h).distinct fun _ => hentries.mem_iff

end

theorem isFileName_fileName : FileTree.IsFileName fileName :=
  ⟨isName_fileName _ (List.mem_singleton_self _), by decide⟩

theorem locate_file {tree : FileTree} (hproper : tree.IsProper) {out : Path} (hout : tree.isDirectory out = true) :
    tree.locate (file out) = .ok (out.place tree.home ++ [fileName]) :=
  @FileTree.locate_of_parent tree out hproper hout [] fileName
    (by rw [List.append_nil]; exact (FileTree.isDirectory_iff.1 hout).2) isFileName_fileName

/-- Where its directory is made and no directory has its name, a manifest is written. -/
theorem exists_write_of_makeDirectories {tree made : FileTree} {out : Path} (hmade : tree.makeDirectories out = .ok made)
    (hproper : made.IsProper) (hout : made.isDirectory out = true)
    (hfree : made.entry? (out.place made.home ++ [fileName]) ≠ some .directory) (modules : List (String × Json)) :
    ∃ tree', write tree out modules = .ok tree' := by
  have hentry := (FileTree.isDirectory_iff.1 hout).2
  have hwrite := FileTree.write_of_locate (locate_file hproper hout) (by rwa [List.dropLast_concat]) hfree
    (Text.encodeUtf8 (toText modules)) 0
  exact ⟨_, Except.bind_eq_ok_iff.2 ⟨made, by rwa [parent_file], hwrite⟩⟩

/-- A manifest can be written where its directory can be made, if no directory has its name. -/
theorem exists_write_iff {tree : FileTree} (hproper : tree.IsProper) {out : Path} (hout : out.IsSpelled)
    (modules : List (String × Json)) : (∃ tree', write tree out modules = .ok tree') ↔
      ∃ made, tree.makeDirectories out = .ok made ∧
        made.entry? (out.place tree.home ++ [fileName]) ≠ some .directory := by
  constructor
  · rintro ⟨tree', h⟩
    obtain ⟨made, hmade, hwrite⟩ := Except.bind_eq_ok_iff.1 h
    rw [parent_file] at hmade
    obtain ⟨halters, hthere⟩ := FileTree.makeDirectories_ok hproper hout hmade
    refine ⟨made, hmade, fun hdirectory => ?_⟩
    rw [← halters.home] at hdirectory
    rw [FileTree.writeText, FileTree.write, locate_file halters.proper hthere] at hwrite
    simp [hdirectory] at hwrite
  · rintro ⟨made, hmade, hfree⟩
    obtain ⟨halters, hthere⟩ := FileTree.makeDirectories_ok hproper hout hmade
    exact exists_write_of_makeDirectories hmade halters.proper hthere (by rwa [halters.home]) modules

/-- A map from keys to places comes back from its manifest, with its keys in the order of their characters.

    * It can be written wherever the directory of the manifest can be made and no directory has the name of the file,
      whatever the map is.
    * What is written is the text of the map, and what is read from it are the entries of the map in order.
    * Two maps are written as the same bytes exactly if they have the same entries, in whatever order. -/
theorem manifest_round_trips {tree : FileTree} (hproper : tree.IsProper) {out : Path} (hout : out.IsSpelled)
    {m : List (String × String)} (hkeys : (m.map Prod.fst).Nodup) :
    ((∃ tree', write tree out (ofTexts m) = .ok tree') ↔ ∃ made, tree.makeDirectories out = .ok made ∧
      made.entry? (out.place tree.home ++ [fileName]) ≠ some .directory) ∧
    (∀ tree', write tree out (ofTexts m) = .ok tree' →
      (∃ modified, tree'.read (file out) = .ok (Text.encodeUtf8 (toText (ofTexts m)), modified)) ∧
      ∃ sorted : List (String × String), read tree' out = .ok (sorted.map fun e => (.string e.1, .string e.2)) ∧
        sorted.Perm m ∧ sorted.Pairwise fun a b => codePoints a.1 < codePoints b.1) ∧
    ∀ m' : List (String × String), (m'.map Prod.fst).Nodup →
      (Text.encodeUtf8 (toText (ofTexts m')) = Text.encodeUtf8 (toText (ofTexts m)) ↔ m'.Perm m) := by
  refine ⟨exists_write_iff hproper hout _, fun tree' hwrite => ?_, fun m' hkeys' => ?_⟩
  · obtain ⟨-, modified, hread⟩ := write_ok hproper hout hwrite
    refine ⟨⟨modified, hread⟩, sortedTexts m, ?_, List.mergeSort_perm m _, pairwise_sortedTexts hkeys⟩
    rw [read_of_toText (isListing_ofTexts hkeys) hread, mergeSort_ofTexts, toEntries_ofTexts]
  · rw [Text.encodeUtf8_inj, toText_ofTexts_inj hkeys hkeys']

/-- A map whose keys and places have quotes, breaks of lines, a null, and characters that are written as two units. -/
def oddTexts : List (String × String) :=
  [("\uFFFF\"", "b\\\n\x00"), ("😀\r", "a😀"), ("", "\x7f\u2028")]

/-- Odd texts come back in the order of their characters, and not in that of their units. -/
theorem oddTexts_round_trip :
    let tree := FileTree.empty ["site"]
    let out := Path.ofText "out/build"
    tree.IsProper ∧ out.IsSpelled ∧ (oddTexts.map Prod.fst).Nodup ∧
    (oddTexts.reverse.map Prod.fst).Nodup ∧
    toText (ofTexts oddTexts.reverse) = toText (ofTexts oddTexts) ∧
    ∃ tree', write tree out (ofTexts oddTexts) = .ok tree' ∧
      read tree' out = .ok [(.string "", .string "\x7f\u2028"), (.string "\uFFFF\"", .string "b\\\n\x00"),
        (.string "😀\r", .string "a😀")] := by
  intro tree out
  have hproper : tree.IsProper := by decide
  have hout : out.IsSpelled := Path.isSpelled_ofText _
  have hkeys : (oddTexts.map Prod.fst).Nodup := by decide
  have hkeys' : (oddTexts.reverse.map Prod.fst).Nodup := by decide
  obtain ⟨hwrites, hreads, hsame⟩ := manifest_round_trips hproper hout hkeys
  obtain ⟨tree', hwrite⟩ := hwrites.2 ⟨_, rfl, by decide⟩
  obtain ⟨-, sorted, hread, hperm, hsorted⟩ := hreads tree' hwrite
  refine ⟨hproper, hout, hkeys, hkeys', ?_, tree', hwrite, ?_⟩
  · exact Text.encodeUtf8_inj.1 ((hsame _ hkeys').2 (List.reverse_perm _))
  · have hlist : sorted = [("", "\x7f\u2028"), ("\uFFFF\"", "b\\\n\x00"), ("😀\r", "a😀")] :=
      (hperm.trans (by decide)).eq_of_pairwise (fun _ _ _ _ hab hba => absurd hba (List.lt_asymm hab)) hsorted (by decide)
    rw [hread, hlist]
    rfl

end Manifest

end Folio
