import Folio.Proofs.Build.Steps
import Folio.Proofs.Calendar.Moments
import Folio.Proofs.PageModule.RoundTrip

set_option autoImplicit false

/-! # Compiled pages

What a source compiles to has different names in its header, headings of the six depths and a moment of
the calendar (`Compiles.wellFormed`). So the module that a source makes gives the artifact that the
source compiles to (`Makes.decodes`). In another process the same source compiles too, and to the same
artifact but for the order in which the members of a set are listed (`Compiles.exists_rearranged`); where
both processes go through the sets of the header in one order, it is the same artifact (`compiles_congr`). -/

namespace Folio

/-! ## Headings -/

namespace Html

theorem headingDepth?_bounds {name : String} {depth : Nat} (h : headingDepth? name = some depth) :
    1 ≤ depth ∧ depth ≤ 6 := by
  unfold headingDepth? at h
  split at h <;> first | cases h; decide | cases h

mutual

/-- The headings of a node have one of the six depths. -/
theorem Node.depth_headings : ∀ (node : Node), ∀ h ∈ node.headings, 1 ≤ h.depth ∧ h.depth ≤ 6
  | .element name attributes children => by
    intro h hmem
    rw [Node.headings] at hmem
    split at hmem
    · next depth hdepth =>
      rcases List.mem_cons.1 hmem with rfl | hmem
      · exact headingDepth?_bounds hdepth
      · exact depth_headingsList children h hmem
    · exact depth_headingsList children h hmem
  | .text _ _ | .comment _ | .doctype _ | .characterData _ | .declaration _ | .instruction _ => by
    simp [Node.headings]

theorem depth_headingsList : ∀ (forest : Forest), ∀ h ∈ headingsList forest, 1 ≤ h.depth ∧ h.depth ≤ 6
  | [] => by simp [headingsList]
  | node :: rest => by
    intro h hmem
    rw [headingsList, List.mem_append] at hmem
    exact hmem.elim (Node.depth_headings node h) (depth_headingsList rest h)

end

end Html

theorem depth_render {options : RenderOptions} {body : String} {page : RenderResult}
    (h : render options body = .ok page) : ∀ heading ∈ page.headings, 1 ≤ heading.depth ∧ heading.depth ≤ 6 := by
  unfold render at h
  obtain ⟨forest, -, h⟩ := Except.bind_eq_ok_iff.1 h
  obtain ⟨forest, -, h⟩ := Except.bind_eq_ok_iff.1 h
  obtain rfl := Except.pure_eq_ok_iff.1 h
  exact Html.depth_headingsList forest

/-! ## The order of sets -/

namespace Json

mutual

/-- Plain data that is the same but for the order of the members of sets. -/
inductive Rearranges : Json → Json → Prop
  | same (j : Json) : Rearranges j j
  | members {items items' : List Json} (h : items.Perm items') : Rearranges (.array items) (.array items')
  | array {items items' : List Json} (h : ItemsRearrange items items') : Rearranges (.array items) (.array items')
  | object {members members' : List (String × Json)} (h : MembersRearrange members members') :
    Rearranges (.object members) (.object members')

/-- Some plain data, each of which is the same but for the order of the members of sets. -/
inductive ItemsRearrange : List Json → List Json → Prop
  | nil : ItemsRearrange [] []
  | cons {j j' : Json} {items items' : List Json} (first : Rearranges j j') (rest : ItemsRearrange items items') :
    ItemsRearrange (j :: items) (j' :: items')

/-- Members with the same names, whose values are the same but for the order of the members of sets. -/
inductive MembersRearrange : List (String × Json) → List (String × Json) → Prop
  | nil : MembersRearrange [] []
  | cons (name : String) {j j' : Json} {members members' : List (String × Json)} (first : Rearranges j j')
      (rest : MembersRearrange members members') : MembersRearrange ((name, j) :: members) ((name, j') :: members')

end

theorem anyHugeInteger_of_perm {items items' : List Json} (h : items.Perm items') :
    anyHugeInteger items' = anyHugeInteger items := by
  induction h with
  | nil => rfl
  | cons j _ ih => rw [anyHugeInteger, anyHugeInteger, ih]
  | swap i j rest => simp only [anyHugeInteger, Bool.or_left_comm]
  | trans _ _ ih ih' => exact ih'.trans ih

mutual

/-- Another order of sets adds no integer that is not written. -/
theorem Rearranges.hasHugeInteger_eq {j j' : Json} (h : Rearranges j j') :
    j'.hasHugeInteger = j.hasHugeInteger := by
  cases h with
  | same => rfl
  | members h => exact anyHugeInteger_of_perm h
  | array h => exact h.anyHugeInteger_eq
  | object h => exact h.anyHugeMember_eq

theorem ItemsRearrange.anyHugeInteger_eq {items items' : List Json} (h : ItemsRearrange items items') :
    anyHugeInteger items' = anyHugeInteger items := by
  cases h with
  | nil => rfl
  | cons first rest => rw [anyHugeInteger, anyHugeInteger, first.hasHugeInteger_eq, rest.anyHugeInteger_eq]

theorem MembersRearrange.anyHugeMember_eq {members members' : List (String × Json)}
    (h : MembersRearrange members members') : anyHugeMember members' = anyHugeMember members := by
  cases h with
  | nil => rfl
  | cons _ first rest => rw [anyHugeMember, anyHugeMember, first.hasHugeInteger_eq, rest.anyHugeMember_eq]

end

theorem MembersRearrange.put (name : String) {j j' : Json} (hj : Rearranges j j')
    {members members' : List (String × Json)} (h : MembersRearrange members members') :
    MembersRearrange (Json.put name j members) (Json.put name j' members') := by
  induction members generalizing members' with
  | nil =>
    cases h
    exact .cons name hj .nil
  | cons member rest ih =>
    cases h with
    | cons n first hrest =>
      rw [Json.put, Json.put]
      split
      · exact .cons n hj hrest
      · exact .cons n first (ih hrest)

theorem MembersRearrange.membersOf {pairs pairs' : List (String × Json)} (h : MembersRearrange pairs pairs') :
    MembersRearrange (Json.membersOf pairs) (Json.membersOf pairs') := by
  suffices hall : ∀ members members', MembersRearrange members members' →
      MembersRearrange (pairs.foldl (fun m p => Json.put p.1 p.2 m) members)
        (pairs'.foldl (fun m p => Json.put p.1 p.2 m) members') from hall [] [] .nil
  induction pairs generalizing pairs' with
  | nil =>
    cases h
    exact fun _ _ h => h
  | cons pair rest ih =>
    cases h with
    | cons n first hrest => exact fun _ _ h => ih hrest _ _ (h.put n first)

/-- The members of a set are plain data in any order if they are so in one. -/
theorem exists_ofValues_of_perm {values values' : List Value} (h : values.Perm values') {items : List Json}
    (hitems : ofValues values = .ok items) : ∃ items', ofValues values' = .ok items' ∧ items.Perm items' := by
  induction h generalizing items with
  | nil => exact ⟨items, hitems, .refl items⟩
  | cons v _ ih =>
    obtain ⟨j, hj, hitems⟩ := Except.bind_eq_ok_iff.1 hitems
    obtain ⟨rest, hrest, hitems⟩ := Except.bind_eq_ok_iff.1 hitems
    obtain rfl := Except.pure_eq_ok_iff.1 hitems
    obtain ⟨rest', hrest', hperm⟩ := ih hrest
    refine ⟨j :: rest', ?_, hperm.cons j⟩
    rw [ofValues, hj, hrest']
    rfl
  | swap v w rest =>
    obtain ⟨i, hi, hitems⟩ := Except.bind_eq_ok_iff.1 hitems
    obtain ⟨tail, htail, hitems⟩ := Except.bind_eq_ok_iff.1 hitems
    obtain rfl := Except.pure_eq_ok_iff.1 hitems
    obtain ⟨j, hj, htail⟩ := Except.bind_eq_ok_iff.1 htail
    obtain ⟨tail', htail', htail⟩ := Except.bind_eq_ok_iff.1 htail
    obtain rfl := Except.pure_eq_ok_iff.1 htail
    refine ⟨j :: i :: tail', ?_, .swap j i tail'⟩
    rw [ofValues, ofValues, hi, hj, htail']
    rfl
  | trans _ _ ih ih' =>
    obtain ⟨items', hitems', hperm⟩ := ih hitems
    obtain ⟨items'', hitems'', hperm'⟩ := ih' hitems'
    exact ⟨items'', hitems'', hperm.trans hperm'⟩

section

variable {p q : Process}

mutual

/-- A value that is plain data for one process is so for another, and the same but for the order of sets. -/
theorem exists_ofValue_arranged {j : Json} : ∀ v : Value, ofValue (v.arranged p.order) = .ok j →
    ∃ j', ofValue (v.arranged q.order) = .ok j' ∧ Rearranges j j'
  | .list items => by
    intro h
    rw [Value.arranged, ofValue, Except.map_eq_ok_iff] at h
    obtain ⟨js, hjs, rfl⟩ := h
    obtain ⟨js', hjs', hitems⟩ := exists_ofValues_arranged items hjs
    exact ⟨.array js', by rw [Value.arranged, ofValue, hjs']; rfl, .array hitems⟩
  | .pair a b => by
    intro h
    rw [Value.arranged, ofValue] at h
    obtain ⟨i, hi, h⟩ := Except.bind_eq_ok_iff.1 h
    obtain ⟨j, hj, h⟩ := Except.bind_eq_ok_iff.1 h
    obtain rfl := Except.pure_eq_ok_iff.1 h
    obtain ⟨i', hi', hfirst⟩ := exists_ofValue_arranged a hi
    obtain ⟨j', hj', hsecond⟩ := exists_ofValue_arranged b hj
    exact ⟨.array [i', j'], by rw [Value.arranged, ofValue, hi', hj']; rfl, .array (.cons hfirst (.cons hsecond .nil))⟩
  | .set members => by
    intro h
    rw [Value.arranged, ofValue, Except.map_eq_ok_iff] at h
    obtain ⟨js, hjs, rfl⟩ := h
    obtain ⟨js', hjs', hperm⟩ := exists_ofValues_of_perm ((p.isOrder members).trans (q.isOrder members).symm) hjs
    exact ⟨.array js', by rw [Value.arranged, ofValue, hjs']; rfl, .members hperm⟩
  | .map entries => by
    intro h
    rw [Value.arranged, ofValue, Except.map_eq_ok_iff] at h
    obtain ⟨members, hmembers, rfl⟩ := h
    obtain ⟨members', hmembers', hrearranges⟩ := exists_ofEntries_arranged entries hmembers
    exact ⟨.object (membersOf members'), by rw [Value.arranged, ofValue, hmembers']; rfl, .object hrearranges.membersOf⟩
  | .null | .bool _ | .int _ | .float _ | .string _ | .bytes _ | .date _ | .dateTime _ | .cycle =>
    fun h => ⟨_, h, .same _⟩

theorem exists_ofValues_arranged {js : List Json} : ∀ values : List Value,
    ofValues (Value.arrangedAll p.order values) = .ok js →
    ∃ js', ofValues (Value.arrangedAll q.order values) = .ok js' ∧ ItemsRearrange js js'
  | [] => by
    intro h
    rw [Value.arrangedAll, ofValues] at h
    obtain rfl := Except.ok.inj h
    exact ⟨[], rfl, .nil⟩
  | v :: rest => by
    intro h
    rw [Value.arrangedAll, ofValues] at h
    obtain ⟨j, hj, h⟩ := Except.bind_eq_ok_iff.1 h
    obtain ⟨items, hitems, h⟩ := Except.bind_eq_ok_iff.1 h
    obtain rfl := Except.pure_eq_ok_iff.1 h
    obtain ⟨j', hj', hfirst⟩ := exists_ofValue_arranged v hj
    obtain ⟨items', hitems', hrest⟩ := exists_ofValues_arranged rest hitems
    exact ⟨j' :: items', by rw [Value.arrangedAll, ofValues, hj', hitems']; rfl, .cons hfirst hrest⟩

theorem exists_ofEntries_arranged {members : List (String × Json)} : ∀ entries : List (Value × Value),
    ofEntries (Value.arrangedEntries p.order entries) = .ok members →
    ∃ members', ofEntries (Value.arrangedEntries q.order entries) = .ok members' ∧ MembersRearrange members members'
  | [] => by
    intro h
    rw [Value.arrangedEntries, ofEntries] at h
    obtain rfl := Except.ok.inj h
    exact ⟨[], rfl, .nil⟩
  | (k, v) :: rest => by
    intro h
    rw [Value.arrangedEntries, ofEntries] at h
    obtain ⟨name, hname, h⟩ := Except.bind_eq_ok_iff.1 h
    obtain ⟨j, hj, h⟩ := Except.bind_eq_ok_iff.1 h
    obtain ⟨members, hmembers, h⟩ := Except.bind_eq_ok_iff.1 h
    obtain rfl := Except.pure_eq_ok_iff.1 h
    obtain ⟨j', hj', hfirst⟩ := exists_ofValue_arranged v hj
    obtain ⟨members', hmembers', hrest⟩ := exists_ofEntries_arranged rest hmembers
    exact ⟨(name, j') :: members', by rw [Value.arrangedEntries, ofEntries, hname, hj', hmembers']; rfl,
      .cons name hfirst hrest⟩

end

end

end Json

/-! ## Artifacts -/

section

variable {rules : CompileRules} {process : Process} {slug : String} {bytes : List UInt8} {modified : Int} {a : Artifact}

/-- What a source compiles to is well-formed, if it was changed at a moment of the calendar. -/
theorem wellFormed_of_compileSource {moment : DateTime} {source : String} {order : List Value → List Value}
    (hmoment : moment.IsValid) (h : compileSource rules slug moment source order = .ok a) : a.WellFormed := by
  obtain ⟨parts, page, members, stats, -, hpage, hmembers, hstats, rfl⟩ := compileSource_ok h
  obtain ⟨minutes, -, rfl⟩ := statsOf_ok hstats
  exact ⟨Json.hasDistinctNames_membersOf (Json.membersHaveDistinctNames_ofEntries hmembers), hmoment,
    depth_render hpage⟩

theorem Compiles.wellFormed (h : Compiles rules process slug bytes modified a) : a.WellFormed := by
  obtain ⟨cs, -, h⟩ := h
  exact wellFormed_of_compileSource (FileTree.isValid_moment modified) h

theorem fitsLine_label (h : PageModule.FitsLine slug) :
    PageModule.FitsLine (PageModule.label a (sourceLabel slug)) := by
  have hne : sourceLabel slug ≠ "" := by
    intro heq
    have hchars := congrArg String.toList heq
    simp [sourceLabel, Path.sourceEnding] at hchars
  have hending : PageModule.FitsLine (String.ofList Path.sourceEnding) := by decide
  rw [PageModule.label, if_neg hne, sourceLabel]
  intro c hc
  rw [String.toList_append] at hc
  exact (List.mem_append.1 hc).elim (h c) (hending c)

/-- The module that a source makes gives the artifact that the source compiles to, from any file. -/
theorem Makes.decodes {text : String} (h : Makes rules process slug bytes modified text)
    (hslug : PageModule.FitsLine slug) :
    ∃ a, Compiles rules process slug bytes modified a ∧
      PageModule.emit a (sourceLabel slug) = .ok text ∧ PageModule.decode? text.toList = some a ∧
      ∀ (tree : FileTree) (p : Path) (time : Int),
        tree.read p = .ok (Text.encodeUtf8 text.toList, time) → importArtifact tree p = .ok a := by
  obtain ⟨a, hcompiles, hemit⟩ := h
  have hlabel : PageModule.FitsLine (PageModule.label a (sourceLabel slug)) := fitsLine_label hslug
  exact ⟨a, hcompiles, hemit, PageModule.decode?_of_emit hcompiles.wellFormed hlabel hemit,
    fun tree p time hread => PageModule.importArtifact_of_read hcompiles.wellFormed hlabel hemit hread⟩

end

/-! ## Processes -/

/-- Artifacts that are the same but for the order of the members of sets. -/
structure Artifact.Rearranges (a b : Artifact) : Prop where
  frontmatter : Json.MembersRearrange a.frontmatter b.frontmatter
  others : b = { a with frontmatter := b.frontmatter }

/-- Two processes go through the sets in the header of a source in the same order. -/
def Process.AgreeOn (p q : Process) (rules : CompileRules) (bytes : List UInt8) : Prop :=
  ∀ cs parts, Text.decodeUtf8 bytes = .ok cs →
    FrontMatter.split (String.ofList (FileTree.unifyNewlines cs)) rules.separator = .ok parts →
    Value.arrangedEntries p.order parts.entries = Value.arrangedEntries q.order parts.entries

section

variable {rules : CompileRules} {p q : Process} {slug : String} {bytes : List UInt8} {modified : Int} {a : Artifact}

theorem Process.AgreeOn.refl (p : Process) (rules : CompileRules) (bytes : List UInt8) : p.AgreeOn p rules bytes :=
  fun _ _ _ _ => rfl

/-- What compiles in one process compiles in another. -/
theorem Compiles.exists_rearranged (h : Compiles rules p slug bytes modified a) (q : Process) :
    ∃ b, Compiles rules q slug bytes modified b ∧ a.Rearranges b := by
  obtain ⟨cs, hcs, h⟩ := h
  obtain ⟨parts, page, members, stats, hparts, hpage, hmembers, hstats, rfl⟩ := compileSource_ok h
  obtain ⟨members', hmembers', hrearrange⟩ := @Json.exists_ofEntries_arranged p q _ _ hmembers
  refine ⟨⟨Json.membersOf members', page.html, parts.excerpt, slug, FileTree.moment modified, stats⟩, ⟨cs, hcs, ?_⟩,
    hrearrange.membersOf, rfl⟩
  simp only [compileSource, hparts, hpage, hmembers', hstats, Except.mapError, bind, Except.bind]
  rfl

theorem compileSource_congr {source : String} {moment : DateTime} {order order' : List Value → List Value}
    (h : ∀ parts, FrontMatter.split source rules.separator = .ok parts →
      Value.arrangedEntries order parts.entries = Value.arrangedEntries order' parts.entries) :
    compileSource rules slug moment source order = compileSource rules slug moment source order' := by
  unfold compileSource
  cases hparts : FrontMatter.split source rules.separator with
  | error e => simp only [Except.mapError, bind, Except.bind]
  | ok parts => simp only [Except.mapError, bind, Except.bind, h parts hparts]

/-- Processes that go through the sets of a header in the same order compile its source alike. -/
theorem compiles_congr (hagree : p.AgreeOn q rules bytes) :
    Compiles rules p slug bytes modified a ↔ Compiles rules q slug bytes modified a :=
  exists_congr fun cs => and_congr_right fun hcs => by
    rw [compileSource_congr fun parts hparts => hagree cs parts hcs hparts]

theorem Artifact.Rearranges.integersFit_eq {b : Artifact} (h : a.Rearranges b) :
    PageModule.integersFit b = PageModule.integersFit a := by
  have hstats := congrArg Artifact.stats h.others
  rw [PageModule.integersFit, PageModule.integersFit, h.frontmatter.anyHugeMember_eq, hstats]

/-- What makes a module in one process makes one in another. -/
theorem Makes.exists_rearranged {text : String} (h : Makes rules p slug bytes modified text) (q : Process) :
    ∃ text', Makes rules q slug bytes modified text' := by
  obtain ⟨a, hcompiles, hemit⟩ := h
  obtain ⟨b, hcompiles', hrearranges⟩ := hcompiles.exists_rearranged q
  have hfit := hrearranges.integersFit_eq.trans (PageModule.integersFit_of_emit hemit)
  exact ⟨_, b, hcompiles', PageModule.emit_of_integersFit hfit _⟩

theorem makes_congr (hagree : p.AgreeOn q rules bytes) {text : String} :
    Makes rules p slug bytes modified text ↔ Makes rules q slug bytes modified text :=
  exists_congr fun _ => and_congr_left fun _ => compiles_congr hagree

/-- The bytes of two modules whose artifacts are the same but for the order of the members of sets. -/
def AlikeModules (bytes bytes' : List UInt8) : Prop :=
  ∃ (a b : Artifact) (label text text' : String), a.Rearranges b ∧ PageModule.emit a label = .ok text ∧
    PageModule.emit b label = .ok text' ∧ bytes = Text.encodeUtf8 text.toList ∧ bytes' = Text.encodeUtf8 text'.toList

/-- The modules that two processes make of a source are alike. -/
theorem Makes.alike {text text' : String} (h : Makes rules p slug bytes modified text)
    (h' : Makes rules q slug bytes modified text') :
    AlikeModules (Text.encodeUtf8 text.toList) (Text.encodeUtf8 text'.toList) := by
  obtain ⟨a, hcompiles, hemit⟩ := h
  obtain ⟨b, hcompiles', hemit'⟩ := h'
  obtain ⟨c, hcompiles'', hrearranges⟩ := hcompiles.exists_rearranged q
  obtain rfl := hcompiles''.unique hcompiles'
  exact ⟨a, c, _, text, text', hrearranges, hemit, hemit', rfl, rfl⟩

end

end Folio
