import Specialization.Proofs.Analysis.Acceptance

/-!
The order in which a class declares its constants. Another order changes the graph search, the order
of the classification and the plans of evaluation, but not what each name stands for: the rules of a
class, the roots and the supertype mapping are said of the expressions behind the names alone.
-/

namespace Specialization

namespace Analysis

/-- Two analyses with the same anchor constants, in which every name refers to the same constants,
whatever the order of its operands. -/
structure SameReferences (first second : Analysis) : Prop where
  anchor : ∀ name id parent,
    first.expr? name = some (.anchor id parent) ↔ second.expr? name = some (.anchor id parent)
  mem_next : ∀ name child, child ∈ first.graph.next name ↔ child ∈ second.graph.next name

namespace SameReferences

variable {first second : Analysis}

theorem symm (h : SameReferences first second) : SameReferences second first :=
  ⟨fun name id parent => (h.anchor name id parent).symm,
    fun name child => (h.mem_next name child).symm⟩

theorem edges (h : SameReferences first second) :
    (fun node child => child ∈ first.graph.next node) =
      fun node child => child ∈ second.graph.next node :=
  funext₂ fun node child => propext (h.mem_next node child)

theorem onCycle (h : SameReferences first second) {name : String} :
    first.graph.OnCycle name ↔ second.graph.OnCycle name := by
  rw [Graph.OnCycle, Graph.OnCycle, h.edges]

theorem readsAnchor (h : SameReferences first second) {name anchor : String} :
    first.ReadsAnchor name anchor ↔ second.ReadsAnchor name anchor := by
  simp only [ReadsAnchor, IsAnchor, Graph.Leads, h.edges, h.anchor]

theorem encloses (h : SameReferences first second) : first.Encloses = second.Encloses := by
  have hparent : first.ParentOf = second.ParentOf := by
    funext parent name
    simp only [ParentOf, h.anchor]
  rw [Encloses, Encloses, hparent]

theorem readsChain (h : SameReferences first second) {name : String} :
    first.ReadsChain name ↔ second.ReadsChain name := by
  simp only [ReadsChain, h.readsAnchor, h.encloses]

theorem hasRoot (h : SameReferences first second) {name : String} {root : Root}
    (hroot : first.HasRoot name root) : second.HasRoot name root := by
  constructor
  · intro anchor
    rw [← h.readsAnchor, ← hroot.covers anchor]
    cases root with
    | constant => exact Iff.rfl
    | anchor deepest parent => simp only [Covers, h.encloses]
  · intro deepest parent heq
    obtain ⟨id, hexpr⟩ := hroot.anchor deepest parent heq
    exact ⟨id, (h.anchor deepest id parent).mp hexpr⟩

end SameReferences

/-- Two analyses in which every name has the same expression and every id the same anchor, whatever
the order of the constants. -/
structure SameContent (first second : Analysis) : Prop where
  expr : ∀ name, first.expr? name = second.expr? name
  anchor : ∀ id, first.anchor? id = second.anchor? id

namespace SameContent

variable {first second third : Analysis}

theorem symm (h : SameContent first second) : SameContent second first :=
  ⟨fun name => (h.expr name).symm, fun id => (h.anchor id).symm⟩

theorem trans (h : SameContent first second) (h' : SameContent second third) :
    SameContent first third :=
  ⟨fun name => (h.expr name).trans (h'.expr name), fun id => (h.anchor id).trans (h'.anchor id)⟩

theorem next (h : SameContent first second) : first.graph.next = second.graph.next := by
  funext name
  rw [next_eq, next_eq, h.expr]

theorem references (h : SameContent first second) : SameReferences first second where
  anchor name _ _ := by rw [h.expr name]
  mem_next name _ := by rw [h.next]

theorem contains (h : SameContent first second) {name : String} :
    first.contains name ↔ second.contains name := by
  simp only [Analysis.contains, h.expr]

theorem nestsAsDeclared (h : SameContent first second) {name : String} :
    first.NestsAsDeclared name ↔ second.NestsAsDeclared name := by
  have hnested : ∀ enclosing parent,
      first.NestedUnder enclosing parent ↔ second.NestedUnder enclosing parent := by
    intro enclosing parent
    cases enclosing with
    | none => exact Iff.rfl
    | some id => simp only [NestedUnder, h.expr]
  simp only [NestsAsDeclared, hnested, h.expr, h.anchor]

theorem isSupertype (h : SameContent first second) {name : String} :
    first.IsSupertype name ↔ second.IsSupertype name := by
  simp only [IsSupertype, h.expr]

end SameContent

variable {analysis : Analysis}

theorem ParentOf.mem_next {parent name : String} (h : analysis.ParentOf parent name) :
    parent ∈ analysis.graph.next name := by
  obtain ⟨id, hexpr⟩ := h
  simp [next_of_expr hexpr, Expr.references]

/-- What encloses an anchor constant is referred to by it, directly or not. -/
theorem Encloses.leads {ancestor name : String} (h : analysis.Encloses ancestor name) :
    Relation.TransGen (fun node child => child ∈ analysis.graph.next node) name ancestor := by
  induction h with
  | single hparent => exact .single hparent.mem_next
  | tail _ hparent ih => exact .head hparent.mem_next ih

theorem Accepted.not_onCycle (h : analysis.Accepted) (name : String) :
    ¬ analysis.graph.OnCycle name :=
  h.order_sorted.not_onCycle (fun _ _ hchild => h.mem_order.mpr (contains_of_next hchild)) name

/-- Of two roots that cover the same anchors, each encloses or is the other one. -/
theorem HasRoot.unique (hacyclic : ∀ name, ¬ analysis.graph.OnCycle name) {name : String}
    {root other : Root} (hroot : analysis.HasRoot name root)
    (hother : analysis.HasRoot name other) : root = other := by
  have hsame : ∀ anchor, analysis.Covers root anchor ↔ analysis.Covers other anchor :=
    fun anchor => (hroot.covers anchor).trans (hother.covers anchor).symm
  cases root with
  | constant =>
      cases other with
      | constant => rfl
      | anchor deepest parent => exact absurd ((hsame deepest).mpr (Or.inl rfl)) (fun h => h)
  | anchor deepest parent =>
      cases other with
      | constant => exact absurd ((hsame deepest).mp (Or.inl rfl)) (fun h => h)
      | anchor deepest' parent' =>
          have hdeepest : deepest = deepest' := by
            rcases (hsame deepest).mp (Or.inl rfl) with heq | hbelow
            · exact heq
            · rcases (hsame deepest').mpr (Or.inl rfl) with heq | habove
              · exact heq.symm
              · exact absurd (Encloses.leads (hbelow.trans habove)) (hacyclic deepest)
          subst hdeepest
          obtain ⟨id, hexpr⟩ := hroot.anchor deepest parent rfl
          obtain ⟨id', hexpr'⟩ := hother.anchor deepest parent' rfl
          rw [hexpr] at hexpr'
          cases hexpr'
          rfl

namespace SameContent

variable {first second : Analysis}

theorem root? (h : SameContent first second) (hfirst : first.Accepted)
    (hsecond : second.Accepted) (name : String) : first.root? name = second.root? name := by
  by_cases hname : first.contains name
  · obtain ⟨root, hroot, hhas⟩ := hfirst.root_covers hname
    obtain ⟨other, hother, hhas'⟩ := hsecond.root_covers (h.contains.mp hname)
    rw [hroot, hother, (h.references.hasRoot hhas).unique hsecond.not_onCycle hhas']
  · have hnone : first.root? name = none := Option.eq_none_iff_forall_ne_some.mpr
      fun root hroot => hname (hfirst.contains_of_root hroot)
    have hnone' : second.root? name = none := Option.eq_none_iff_forall_ne_some.mpr
      fun root hroot => hname (h.contains.mpr (hsecond.contains_of_root hroot))
    rw [hnone, hnone']

theorem needsAccessor (h : SameContent first second) (hfirst : first.Accepted)
    (hsecond : second.Accepted) (name : String) :
    first.needsAccessor name = second.needsAccessor name := by
  rw [hfirst.needsAccessor_eq, hsecond.needsAccessor_eq, isAnchored, isAnchored,
    h.root? hfirst hsecond]

end SameContent

end Analysis

namespace ClassDeclarations

open Analysis

variable {declarations : ClassDeclarations} {imported : AnchorTable} {shuffled : List Declaration}

/-- The same class with its constants declared in another order. -/
abbrev reordered (declarations : ClassDeclarations) (shuffled : List Declaration) :
    ClassDeclarations :=
  { declarations with constants := shuffled }

/-- An accepted class has the content of its draft. -/
theorem sameContent_of_analyze {analysis : Analysis}
    (h : analyze declarations imported = .ok analysis) :
    SameContent analysis (declarations.draft imported) := by
  have hstages := stages_of_analyze h
  have hconstants := constants_of_analyze h
  have hanchors : analysis.anchors = (declarations.draft imported).anchors :=
    congrArg AnchorTable.mk (AnchorTable.anchors_ofList hstages.anchors)
  have himported : analysis.imported = (declarations.draft imported).imported := hstages.imported
  exact ⟨fun name => by rw [expr?, expr?, hconstants],
    fun id => by rw [anchor?, anchor?, hanchors, himported]⟩

theorem superMapping_of_analyze {analysis : Analysis}
    (h : analyze declarations imported = .ok analysis) (name : String) :
    analysis.superMapping = some name ↔ (declarations.draft imported).IsSupertype name := by
  rw [← (sameContent_of_analyze h).isSupertype]
  exact supertypeMapping_eq_ok (names_of_analyze h).1 (stages_of_analyze h).superMapping name

/-- A look-up by name does not see the order of constants that have different names. -/
theorem sameContent_reordered (hread : declarations.Obeys imported .declarations)
    (hperm : declarations.constants.Perm shuffled) :
    SameContent (declarations.draft imported)
      ((declarations.reordered shuffled).draft imported) := by
  have hconstants : (declarations.draft imported).constants.Perm
      ((declarations.reordered shuffled).draft imported).constants :=
    hperm.filterMap Declaration.constant?
  have hnames : (declarations.draft imported).names.Nodup := draft_names_nodup hread
  have hnames' : ((declarations.reordered shuffled).draft imported).names.Nodup :=
    (hconstants.map fun constant : Constant => constant.name).nodup_iff.mp hnames
  refine ⟨fun name => Option.ext fun expr => ?_, fun id => rfl⟩
  rw [← mem_constants_iff hnames, ← mem_constants_iff hnames', hconstants.mem_iff]

/-- A class that obeys all rules obeys them with its constants in any order. -/
theorem obeys_reordered (h : ∀ rule, declarations.Obeys imported rule)
    (hperm : declarations.constants.Perm shuffled) (rule : Rule) :
    (declarations.reordered shuffled).Obeys imported rule := by
  have hsame := sameContent_reordered (h .declarations) hperm
  cases rule with
  | anchors => exact h .anchors
  | declarations =>
      obtain ⟨hnodup, hread⟩ := h .declarations
      exact ⟨(hperm.map (·.name)).nodup_iff.mp hnodup,
        fun declaration hmem => hread declaration (hperm.mem_iff.mpr hmem)⟩
  | references =>
      intro declaration hmem expr hexpr reference hreference
      exact (hperm.map (·.name)).mem_iff.mp
        (h .references declaration (hperm.mem_iff.mpr hmem) expr hexpr reference hreference)
  | cycles => exact fun name hcycle => h .cycles name (hsame.references.onCycle.mpr hcycle)
  | nesting =>
      intro name
      obtain ⟨hnests, hchain⟩ := h .nesting name
      exact ⟨hsame.nestsAsDeclared.mp hnests, hsame.references.readsChain.mp hchain⟩
  | supertype =>
      intro first second hfirst hsecond
      exact h .supertype first second (hsame.isSupertype.mpr hfirst)
        (hsame.isSupertype.mpr hsecond)

theorem accepted_iff (declarations : ClassDeclarations) (imported : AnchorTable) :
    (∃ analysis, analyze declarations imported = .ok analysis) ↔
      ∀ rule, declarations.Obeys imported rule :=
  (declarations.analyze_checks imported).passes_iff.trans
    ⟨fun hall rule => hall rule rule.mem_all, fun hall rule _ => hall rule⟩

theorem accepted_reordered (hperm : declarations.constants.Perm shuffled) :
    (∃ analysis, analyze declarations imported = .ok analysis) ↔
      ∃ analysis, analyze (declarations.reordered shuffled) imported = .ok analysis := by
  rw [accepted_iff, accepted_iff]
  constructor
  · exact fun h => obeys_reordered h hperm
  · intro h
    have hback := obeys_reordered h hperm.symm
    exact hback

/-- An accepted class has the same content in any order of its constants. -/
theorem sameContent_of_reordered (hperm : declarations.constants.Perm shuffled)
    {first second : Analysis} (hfirst : analyze declarations imported = .ok first)
    (hsecond : analyze (declarations.reordered shuffled) imported = .ok second) :
    SameContent first second := by
  have hread := (accepted_iff declarations imported).mp ⟨first, hfirst⟩ .declarations
  exact ((sameContent_of_analyze hfirst).trans (sameContent_reordered hread hperm)).trans
    (sameContent_of_analyze hsecond).symm

theorem superMapping_reordered (hperm : declarations.constants.Perm shuffled)
    {first second : Analysis} (hfirst : analyze declarations imported = .ok first)
    (hsecond : analyze (declarations.reordered shuffled) imported = .ok second) :
    first.superMapping = second.superMapping := by
  have hread := (accepted_iff declarations imported).mp ⟨first, hfirst⟩ .declarations
  refine Option.ext fun name => ?_
  rw [superMapping_of_analyze hfirst, superMapping_of_analyze hsecond]
  exact (sameContent_reordered hread hperm).isSupertype

end ClassDeclarations

end Specialization
