import Specialization.Proofs.Analysis.Cycles
import Specialization.Proofs.Analysis.Reordering

/-!
Divergent anchors. Two anchor constants that one constant reads diverge if neither encloses the
other, and enclosing is a matter of the constants. It follows the declared parents of the anchors
that they read only as long as each anchor is read through one constant: two constants of one anchor
diverge from each other, and one of them diverges from all that is nested under the other.
-/

namespace Specialization

/-- In a table that was put together from a list, a parent stands before the anchors under it. -/
theorem AnchorTable.idxOf_parent_lt {anchors : List Anchor} {table : AnchorTable}
    (h : ofList anchors = .ok table) {anchor : Anchor} (hanchor : anchor ∈ table.anchors)
    {parent : String} (hparent : anchor.parent = some parent) :
    (table.anchors.map (·.name)).idxOf parent < (table.anchors.map (·.name)).idxOf anchor.name := by
  rw [anchors_ofList h] at hanchor ⊢
  obtain ⟨done, rest, hsplit⟩ := List.append_of_mem hanchor
  obtain ⟨hnew, hparents⟩ := (ofList_decides anchors).passed table h done anchor rest hsplit
  have hbefore := hparents parent hparent
  rw [hsplit, List.map_append, List.map_cons, List.idxOf_append_of_mem hbefore,
    List.idxOf_append_of_notMem hnew]
  have hlt := List.idxOf_lt_length_of_mem hbefore
  omega

namespace Analysis

/-- The declared parent of an anchor. -/
def DeclaredUnder (analysis : Analysis) (outer inner : String) : Prop :=
  ∃ anchor, analysis.anchor? inner = some anchor ∧ anchor.parent = some outer

/-- The chain of declared parents above an anchor. -/
def DeclaredAbove (analysis : Analysis) : String → String → Prop :=
  Relation.TransGen analysis.DeclaredUnder

/-- A constant reads no anchor through two anchor constants. -/
def ReadsOnce (analysis : Analysis) (name : String) : Prop :=
  ∀ first second, analysis.ReadsAnchor name first → analysis.ReadsAnchor name second →
    analysis.anchorOf? first = analysis.anchorOf? second → first = second

variable {analysis : Analysis}

theorem anchorOf?_eq_some {name : String} {anchor : Anchor}
    (h : analysis.anchorOf? name = some anchor) :
    ∃ parent, analysis.expr? name = some (.anchor anchor.name parent) := by
  unfold anchorOf? at h
  split at h
  · rename_i id parent hexpr
    rw [Classification.name_of_declared h]
    exact ⟨parent, hexpr⟩
  · cases h

/-- The parent constant of an anchor constant reads the parent of its anchor. -/
theorem NestsAsDeclared.parent_of_declaredUnder {name outer inner : String}
    {parent : Option String} (h : analysis.NestsAsDeclared name)
    (hexpr : analysis.expr? name = some (.anchor inner parent))
    (hunder : analysis.DeclaredUnder outer inner) :
    ∃ above parent', analysis.ParentOf above name ∧
      analysis.expr? above = some (.anchor outer parent') := by
  obtain ⟨anchor, hanchor, hnested⟩ := h inner parent hexpr
  obtain ⟨_, hsame, hparent⟩ := hunder
  cases hanchor.symm.trans hsame
  rw [hparent] at hnested
  obtain ⟨above, parent', rfl, habove⟩ := hnested
  exact ⟨above, parent', ⟨inner, hexpr⟩, habove⟩

theorem NestsAsDeclared.declaredUnder_of_parent {name above inner : String}
    (h : analysis.NestsAsDeclared name)
    (hexpr : analysis.expr? name = some (.anchor inner (some above))) :
    ∃ outer parent, analysis.expr? above = some (.anchor outer parent) ∧
      analysis.DeclaredUnder outer inner := by
  obtain ⟨anchor, hanchor, hnested⟩ := h inner (some above) hexpr
  obtain ⟨outer, parent, hparent, habove⟩ := hnested.expr_of_parent
  exact ⟨outer, parent, habove, anchor, hanchor, hparent⟩

/-- All that an anchor is declared under is read by the constants that enclose one for it. -/
theorem encloses_of_declaredAbove {outer inner : String} (h : analysis.DeclaredAbove outer inner)
    {name : String} {parent : Option String}
    (hexpr : analysis.expr? name = some (.anchor inner parent))
    (hnests : ∀ other, analysis.graph.Leads name other → analysis.NestsAsDeclared other) :
    ∃ above parent', analysis.Encloses above name ∧
      analysis.expr? above = some (.anchor outer parent') := by
  induction h generalizing name parent with
  | single hunder =>
      obtain ⟨above, parent', hparent, habove⟩ :=
        (hnests name .refl).parent_of_declaredUnder hexpr hunder
      exact ⟨above, parent', .single hparent, habove⟩
  | tail _ hunder ih =>
      obtain ⟨next, parent', hparent, hnext⟩ :=
        (hnests name .refl).parent_of_declaredUnder hexpr hunder
      obtain ⟨above, parent'', hencloses, habove⟩ :=
        ih hnext fun other hother => hnests other (hother.head hparent.mem_next)
      exact ⟨above, parent'', hencloses.tail hparent, habove⟩

theorem Encloses.declaredAbove {above name : String} (h : analysis.Encloses above name)
    (hnests : ∀ name, analysis.NestsAsDeclared name) {outer inner : String}
    {parent parent' : Option String}
    (habove : analysis.expr? above = some (.anchor outer parent))
    (hexpr : analysis.expr? name = some (.anchor inner parent')) :
    analysis.DeclaredAbove outer inner := by
  have hstep : ∀ {next name inner : String} {parent' : Option String},
      analysis.ParentOf next name → analysis.expr? name = some (.anchor inner parent') →
      ∃ id parent, analysis.expr? next = some (.anchor id parent) ∧
        analysis.DeclaredUnder id inner := by
    rintro next name inner parent' ⟨id, hparent⟩ hexpr
    cases hparent.symm.trans hexpr
    exact (hnests name).declaredUnder_of_parent hexpr
  induction h generalizing inner parent' with
  | single hparent =>
      obtain ⟨id, _, hnext, hunder⟩ := hstep hparent hexpr
      cases habove.symm.trans hnext
      exact .single hunder
  | tail _ hparent ih =>
      obtain ⟨id, _, hnext, hunder⟩ := hstep hparent hexpr
      exact (ih hnext).tail hunder

/-- Parents of the anchors of a class stand before them, and those of imported anchors before them
or among the anchors of the class. -/
theorem DeclaredUnder.idxOf_lt {anchors imported : List Anchor}
    (hanchors : AnchorTable.ofList anchors = .ok analysis.anchors)
    (himported : AnchorTable.ofList imported = .ok analysis.imported) {outer inner : String}
    (h : analysis.DeclaredUnder outer inner) :
    let names := analysis.anchors.anchors.map (·.name) ++ analysis.imported.anchors.map (·.name)
    names.idxOf outer < names.idxOf inner := by
  intro names
  obtain ⟨anchor, hanchor, hparent⟩ := h
  obtain rfl := Classification.name_of_declared hanchor
  rcases Option.or_eq_some_iff.mp hanchor with hfound | ⟨hnone, hfound⟩
  · have hmem := List.mem_of_find?_eq_some hfound
    have houter := AnchorTable.contains_iff.mp (AnchorTable.contains_parent hanchors hmem hparent)
    rw [List.idxOf_append_of_mem houter, List.idxOf_append_of_mem (List.mem_map.mpr ⟨_, hmem, rfl⟩)]
    exact AnchorTable.idxOf_parent_lt hanchors hmem hparent
  · have hlt := AnchorTable.idxOf_parent_lt himported (List.mem_of_find?_eq_some hfound) hparent
    have hinner : anchor.name ∉ analysis.anchors.anchors.map (·.name) := by
      rw [← AnchorTable.contains_iff, AnchorTable.contains, hnone]
      exact Bool.false_ne_true
    rw [List.idxOf_append_of_notMem hinner]
    by_cases houter : outer ∈ analysis.anchors.anchors.map (·.name)
    · rw [List.idxOf_append_of_mem houter]
      have hlength := List.idxOf_lt_length_of_mem houter
      omega
    · rw [List.idxOf_append_of_notMem houter]
      omega

theorem not_declaredAbove_self {anchors imported : List Anchor}
    (hanchors : AnchorTable.ofList anchors = .ok analysis.anchors)
    (himported : AnchorTable.ofList imported = .ok analysis.imported) (id : String) :
    ¬ analysis.DeclaredAbove id id := by
  let names := analysis.anchors.anchors.map (·.name) ++ analysis.imported.anchors.map (·.name)
  have hlt : ∀ {outer inner : String}, analysis.DeclaredAbove outer inner →
      names.idxOf outer < names.idxOf inner := by
    intro outer inner habove
    induction habove with
    | single hunder => exact hunder.idxOf_lt hanchors himported
    | tail _ hunder ih => exact Nat.lt_trans ih (hunder.idxOf_lt hanchors himported)
  exact fun hself => Nat.lt_irrefl _ (hlt hself)

/-- A constant of an accepted class reads each anchor through one constant. -/
theorem Accepted.readsOnce (h : analysis.Accepted) {imported : List Anchor}
    (himported : AnchorTable.ofList imported = .ok analysis.imported) (name : String) :
    analysis.ReadsOnce name := by
  intro first second hfirst hsecond hsame
  obtain ⟨root, _, hroot⟩ := h.root_covers (contains_of_reads hfirst)
  obtain ⟨id, parent, hexpr⟩ := hfirst.2
  obtain ⟨anchor, hanchor, _⟩ := h.nestsAsDeclared first id parent hexpr
  have hdenotes : analysis.anchorOf? first = some anchor := (anchorOf?_of_expr hexpr).trans hanchor
  obtain ⟨_, hinner⟩ := anchorOf?_eq_some hdenotes
  obtain ⟨_, houter⟩ := anchorOf?_eq_some (hsame.symm.trans hdenotes)
  have ⟨declarations, _, hanalyze⟩ := h
  have hnone := not_declaredAbove_self (stages_of_analyze hanalyze).anchors himported anchor.name
  rcases hroot.readsChain first second hfirst hsecond with heq | hencloses | hencloses
  · exact heq
  · exact absurd (hencloses.declaredAbove h.nestsAsDeclared hinner houter) hnone
  · exact absurd (hencloses.declaredAbove h.nestsAsDeclared houter hinner) hnone

theorem Classified.not_divergent_of_addAnchor {known : Classification} {name id : String}
    {parent : Option String} {anchors imported : AnchorTable} {constant a b : String} :
    known.addAnchor anchors imported name id parent ≠ .error (.divergentAnchor constant a b) := by
  intro h
  unfold Classification.addAnchor at h
  split at h
  · cases h
  · rcases bind_eq_error.mp h with hid | ⟨enclosing, _, hnest⟩
    · unfold Classification.parentId at hid
      split at hid
      · cases hid
      · split at hid
        · cases hid
        · cases hid
    · split at hnest
      · cases hnest
      · cases hnest

/-- The constant for which the loop stops reads two anchor constants that diverge. All that it leads
to has passed by then. -/
theorem diverges_of_classify {order : List String}
    (hnames : ∀ name ∈ order, analysis.contains name) (hnodup : order.Nodup)
    (hsorted : analysis.graph.Sorted order) {constant a b : String}
    (h : classify analysis.constants analysis.anchors analysis.imported order =
      .error (.divergentAnchor constant a b)) :
    analysis.Diverges constant a b ∧
      ∀ other, analysis.graph.Leads constant other → analysis.NestsAsDeclared other := by
  obtain ⟨done, name, rest, known, hsplit, hknown, hstep⟩ := foldlM_eq_error h
  have hclassified := classified_of_sorted hnames hnodup hsorted hsplit hknown
  have hpassed := (classify_decides_of_split hnames hnodup hsorted hsplit).passed known hknown
  have hchildren := hsorted done name rest hsplit
  obtain ⟨expr, hexpr⟩ := Option.isSome_iff_exists.mp (hnames name (by simp [hsplit]))
  obtain ⟨_, hfound, rfl⟩ := Option.map_eq_some_iff.mp hexpr
  simp only [hfound] at hstep
  unfold Classification.add at hstep
  split at hstep
  · exact absurd hstep Classified.not_divergent_of_addAnchor
  rename_i hplain
  rcases bind_eq_error.mp hstep with hmerge | ⟨root, _, hok⟩
  on_goal 2 => cases hok
  rw [← next_of_expr hexpr] at hmerge
  obtain ⟨_, _, heq, hdiverges⟩ :=
    hclassified.diverges_of_mergeReferences (List.Subset.refl _) hchildren hmerge
  cases heq
  refine ⟨hdiverges, fun other hleads => ?_⟩
  rcases Relation.ReflTransGen.cases_head hleads with rfl | ⟨child, hchild, hrest⟩
  · intro id parent hexpr'
    rw [hexpr] at hexpr'
    exact absurd (Option.some.inj hexpr') (hplain id parent)
  · obtain ⟨before, after, hdone⟩ :=
      List.append_of_mem (hclassified.leads (hchildren child hchild) hrest)
    exact (hpassed before other after hdone).1

/-- Where each anchor is read through one constant, constants that diverge read anchors that do. -/
theorem Diverges.not_declaredAbove {name a b : String} (h : analysis.Diverges name a b)
    (hnests : ∀ other, analysis.graph.Leads name other → analysis.NestsAsDeclared other)
    {first second : Anchor} (hfirst : analysis.anchorOf? a = some first)
    (hsecond : analysis.anchorOf? b = some second) (honce : analysis.ReadsOnce name) :
    ¬ analysis.DeclaredAbove first.name second.name := by
  intro hdeclared
  obtain ⟨_, hexpr⟩ := anchorOf?_eq_some hsecond
  obtain ⟨above, parent, hencloses, habove⟩ := encloses_of_declaredAbove hdeclared hexpr
    fun other hleads => hnests other (h.reads_second.1.trans hleads)
  have hreads : analysis.ReadsAnchor name above :=
    ⟨h.reads_second.1.trans hencloses.leads.to_reflTransGen, first.name, parent, habove⟩
  have hsame : analysis.anchorOf? above = analysis.anchorOf? a := by
    obtain ⟨_, ha⟩ := anchorOf?_eq_some hfirst
    rw [anchorOf?_of_expr habove, anchorOf?_of_expr ha]
  obtain rfl := honce above a hreads h.reads_first hsame
  exact h.not_outer hencloses

theorem Diverges.symm {name a b : String} (h : analysis.Diverges name a b) :
    analysis.Diverges name b a :=
  ⟨h.reads_second, h.reads_first, h.ne.symm, h.not_inner, h.not_outer⟩

end Analysis

namespace ClassDeclarations

open Analysis

variable {declarations : ClassDeclarations} {imported : AnchorTable}

theorem diverges_of_analyze {constant a b : String}
    (h : analyze declarations imported = .error (.divergentAnchor constant a b)) :
    let draft := declarations.draft imported
    draft.Diverges constant a b ∧
      ∀ other, draft.graph.Leads constant other → draft.NestsAsDeclared other := by
  intro draft
  have hearlier := (obeys_of_error h rfl).1
  have hread := hearlier .declarations (by decide)
  have hresolved := hearlier .references (by decide)
  have hnames : draft.names.Nodup := draft_names_nodup hread
  have hwired : draft.graph.Wired := draft_wired hread hresolved
  rw [analyze_of_resolved (hearlier .anchors (by decide)) hread hresolved] at h
  rcases bind_eq_error.mp h with hcycle | ⟨order, horder, h⟩
  · obtain ⟨_, _, heq⟩ := mapError_eq_error.mp hcycle
    cases heq
  rw [mapError_eq_ok] at horder
  have hperm := Graph.order_perm hwired hnames horder
  rcases bind_eq_error.mp h with hclassify | ⟨known, _, h⟩
  · exact diverges_of_classify (fun _ hname => contains_iff.mpr (hperm.mem_iff.mp hname))
      (hperm.nodup_iff.mpr hnames) (Graph.order_sorted hwired horder) hclassify
  rcases bind_eq_error.mp h with hmapping | ⟨mapping, _, hok⟩
  · have hrule := ((supertypeMapping_decides hnames).failed _ hmapping).1
    cases hrule
  · cases hok

/-- A class is rejected for divergent anchors where one constant reads two anchor constants that
denote declared anchors and neither of which encloses the other. These are different anchors,
neither of them declared above the other, if the constant reads each anchor through one constant
only. In an accepted class all constants do. -/
theorem analyze_divergent {anchors : List Anchor}
    (himported : AnchorTable.ofList anchors = .ok imported) :
    (∀ constant a b, analyze declarations imported = .error (.divergentAnchor constant a b) →
      let draft := declarations.draft imported
      draft.Diverges constant a b ∧ ∃ first second,
        draft.anchorOf? a = some first ∧ draft.anchorOf? b = some second ∧
        (draft.ReadsOnce constant → first ≠ second ∧
          ¬ draft.DeclaredAbove first.name second.name ∧
          ¬ draft.DeclaredAbove second.name first.name)) ∧
    ∀ analysis, analyze declarations imported = .ok analysis → ∀ name, analysis.ReadsOnce name := by
  constructor
  · intro constant a b h draft
    obtain ⟨hdiverges, hnests⟩ := diverges_of_analyze h
    have hdenotes : ∀ {anchor}, draft.ReadsAnchor constant anchor →
        ∃ denoted, draft.anchorOf? anchor = some denoted := by
      rintro anchor ⟨hleads, id, parent, hexpr⟩
      obtain ⟨denoted, hdenoted, _⟩ := hnests anchor hleads id parent hexpr
      exact ⟨denoted, (anchorOf?_of_expr hexpr).trans hdenoted⟩
    obtain ⟨first, hfirst⟩ := hdenotes hdiverges.reads_first
    obtain ⟨second, hsecond⟩ := hdenotes hdiverges.reads_second
    refine ⟨hdiverges, first, second, hfirst, hsecond, fun honce => ⟨?_, ?_, ?_⟩⟩
    · rintro rfl
      exact hdiverges.ne (honce a b hdiverges.reads_first hdiverges.reads_second
        (hfirst.trans hsecond.symm))
    · exact hdiverges.not_declaredAbove hnests hfirst hsecond honce
    · exact hdiverges.symm.not_declaredAbove hnests hsecond hfirst honce
  · intro analysis h name
    have hsame : analysis.imported = imported := (stages_of_analyze h).imported
    exact Accepted.readsOnce ⟨declarations, imported, h⟩ (hsame ▸ himported) name

theorem analyze_divergent_unrelated :
    AnchorTable.ofList [] = .ok .empty ∧
    analyze divergentAnchors .empty = .error (.divergentAnchor "both" "T" "U") ∧
    let draft := divergentAnchors.draft .empty
    draft.ReadsOnce "both" ∧ ∃ first second, draft.anchorOf? "T" = some first ∧
      draft.anchorOf? "U" = some second ∧ first ≠ second ∧
      ¬ draft.DeclaredAbove first.name second.name ∧
      ¬ draft.DeclaredAbove second.name first.name := by
  have hrefused : analyze divergentAnchors .empty = .error (.divergentAnchor "both" "T" "U") := rfl
  refine ⟨rfl, hrefused, ?_⟩
  intro draft
  have hanchor : ∀ name, draft.IsAnchor name → name = "T" ∨ name = "U" := by
    rintro name ⟨id, parent, hexpr⟩
    obtain ⟨constant, hfound, hexpr⟩ := Option.map_eq_some_iff.mp hexpr
    obtain ⟨hmem, rfl⟩ := find?_eq_some hfound
    rcases List.mem_cons.mp hmem with rfl | hmem
    · cases hexpr
    · rcases List.mem_cons.mp hmem with rfl | hmem
      · exact Or.inl rfl
      · obtain rfl := List.mem_singleton.mp hmem
        exact Or.inr rfl
  have honce : draft.ReadsOnce "both" := by
    intro first second hfirst hsecond hsame
    rcases hanchor first hfirst.2 with rfl | rfl
    · rcases hanchor second hsecond.2 with rfl | rfl
      · rfl
      · exact absurd hsame (by decide)
    · rcases hanchor second hsecond.2 with rfl | rfl
      · exact absurd hsame (by decide)
      · rfl
  obtain ⟨_, first, second, hfirst, hsecond, hdiffer⟩ :=
    (analyze_divergent (rfl : AnchorTable.ofList [] = .ok .empty)).1 "both" "T" "U" hrefused
  exact ⟨honce, first, second, hfirst, hsecond, hdiffer honce⟩

/-- A class with one anchor, two constants that read it, and one that reads both of them. -/
def sharedAnchor : ClassDeclarations where
  descriptor := "Shared"
  anchors := [⟨"T", .ofClass, none⟩]
  constants := [
    { name := "left", action := "anchor", operands := [.string "T"] },
    { name := "right", action := "anchor", operands := [.string "T"] },
    { name := "both", action := "list", operands := [.ref "left", .ref "right"] }]

/-- Two constants of one anchor diverge, though no other anchor is declared. -/
theorem divergent_sharedAnchor :
    ¬ ∀ (declarations : ClassDeclarations) (anchors : List Anchor) (imported : AnchorTable)
      (constant a b : String), AnchorTable.ofList anchors = .ok imported →
      analyze declarations imported = .error (.divergentAnchor constant a b) →
      let draft := declarations.draft imported
      ∃ x y first second, draft.ReadsAnchor constant x ∧ draft.ReadsAnchor constant y ∧
        draft.anchorOf? x = some first ∧ draft.anchorOf? y = some second ∧ first ≠ second ∧
        ¬ draft.DeclaredAbove first.name second.name ∧
        ¬ draft.DeclaredAbove second.name first.name := by
  intro hall
  obtain ⟨x, y, first, second, _, _, hfirst, hsecond, hne, _⟩ :=
    hall sharedAnchor [] .empty "both" "left" "right" rfl rfl
  have honly : ∀ {name anchor}, (sharedAnchor.draft .empty).anchorOf? name = some anchor →
      anchor = ⟨"T", .ofClass, none⟩ := by
    intro name anchor hanchor
    obtain ⟨_, hexpr⟩ := anchorOf?_eq_some hanchor
    rw [anchorOf?_of_expr hexpr] at hanchor
    rcases Option.or_eq_some_iff.mp hanchor with hfound | ⟨_, hfound⟩
    · exact List.mem_singleton.mp (List.mem_of_find?_eq_some hfound)
    · cases hfound
  exact hne ((honly hfirst).trans (honly hsecond).symm)

end ClassDeclarations

end Specialization
