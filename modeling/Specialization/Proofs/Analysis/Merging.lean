import Mathlib.Data.List.Forall2
import Mathlib.Order.Defs.Unbundled
import Specialization.Proofs.Analysis.Reordering
import Specialization.Proofs.Evaluation.Dependence

/-!
The roots of what one constant refers to, and how they are merged. Whether an anchor constant
encloses another one is asked with a climb from parent to parent, which nothing bounds but what is
classified so far. The climb ends since a constant is classified after those that it refers to, its
parent among them, and it answers for the chain of parents in the class.

So the roots to be merged are ordered by their chains. The merge gives the innermost of them, or
finds two of which neither encloses the other, whatever the order in which it goes over them. That
is a matter of what the constants refer to, so the same holds of a class in which the operands stand
in another order.
-/

namespace Specialization

/-- A climb from parent to parent in search of one anchor constant, with its answer. It is at a
constant, or past the outermost one. -/
inductive Ascends (parentOf : String → Option String) (ancestor : String) :
    Option String → Bool → Prop where
  | past : Ascends parentOf ancestor none false
  | found : Ascends parentOf ancestor (some ancestor) true
  | up {name : String} {answer : Bool} (hne : name ≠ ancestor)
      (hrest : Ascends parentOf ancestor (parentOf name) answer) :
      Ascends parentOf ancestor (some name) answer

theorem Ascends.unique {parentOf : String → Option String} {ancestor : String}
    {cursor : Option String} {answer other : Bool} (h : Ascends parentOf ancestor cursor answer)
    (h' : Ascends parentOf ancestor cursor other) : answer = other := by
  induction h with
  | past =>
      cases h'
      rfl
  | found =>
      cases h' with
      | found => rfl
      | up hne => exact absurd rfl hne
  | up hne _ ih =>
      cases h' with
      | found => exact absurd rfl hne
      | up _ hrest => exact ih hrest

/-- Each parent is further down in the list, so the climb goes down the list with it. -/
theorem ascends_encloses {parentOf : String → Option String} {anchors : List AnchorConstant}
    (hnested : Analysis.Nested anchors)
    (hparents : ∀ known ∈ anchors, parentOf known.name = known.parent) {name : String}
    (hname : name ∈ anchors.map (·.name)) (ancestor : String) :
    Ascends parentOf ancestor (parentOf name) (encloses ancestor anchors name) := by
  induction anchors generalizing name with
  | nil => cases hname
  | cons known older ih =>
      have holder := fun other hother => hparents other (List.mem_cons_of_mem known hother)
      rw [encloses]
      split
      · rename_i heq
        subst heq
        rw [hparents known List.mem_cons_self]
        split
        · rename_i parent hparent
          have habove := ih hnested.2 holder (hnested.1 parent hparent)
          rw [hparent]
          by_cases hfound : parent = ancestor
          · subst hfound
            rw [beq_self_eq_true, Bool.true_or]
            exact .found
          · rw [beq_false_of_ne hfound, Bool.false_or]
            exact .up hfound habove
        · rename_i hparent
          rw [hparent]
          exact .past
      · rename_i hne
        rw [List.map_cons, List.mem_cons] at hname
        exact ih hnested.2 holder (hname.resolve_left fun heq => hne heq.symm)

namespace Classification

/-- The parent of an anchor constant, as far as constants are classified. -/
def parentOf (known : Classification) (name : String) : Option String :=
  (known.anchors.find? (·.name == name)).bind (·.parent)

/-- The climb from the parent of an anchor constant in search of another one. -/
def Answers (known : Classification) (ancestor inner : String) (answer : Bool) : Prop :=
  Ascends known.parentOf ancestor (known.parentOf inner) answer

/-- What is asked while the roots of some references are merged: of the root that is kept so far and
that of the next reference, whether the next one encloses the kept one, and if not, whether the kept
one encloses the next one. -/
inductive Asks (known : Classification) (constant : String) (references : List String) :
    String → String → Prop where
  | kept {merged rest : List String} {reference a b : String} {p q : Option String}
      (hsplit : references = merged ++ reference :: rest)
      (hcurrent : known.mergeReferences constant merged = .ok (.anchor a p))
      (hincoming : known.root reference = .anchor b q) (hne : a ≠ b) :
      Asks known constant references b a
  | incoming {merged rest : List String} {reference a b : String} {p q : Option String}
      (hsplit : references = merged ++ reference :: rest)
      (hcurrent : known.mergeReferences constant merged = .ok (.anchor a p))
      (hincoming : known.root reference = .anchor b q) (hne : a ≠ b)
      (hno : known.Answers b a false) :
      Asks known constant references a b

/-- A root that has the same anchor as another one, or an anchor that encloses that of the other. -/
inductive EqualOrEncloses (known : Classification) : Root → Root → Prop where
  | constant : EqualOrEncloses known .constant .constant
  | equal {name : String} {p q : Option String} :
      EqualOrEncloses known (.anchor name p) (.anchor name q)
  | encloses {outer inner : String} {p q : Option String}
      (hanswer : known.Answers outer inner true) :
      EqualOrEncloses known (.anchor outer p) (.anchor inner q)

end Classification

namespace Analysis.Classified

variable {analysis : Analysis} {done : List String} {known : Classification} {name : String}

theorem parentOf_eq (h : analysis.Classified done known) {anchor : AnchorConstant}
    (hanchor : anchor ∈ known.anchors) : known.parentOf anchor.name = anchor.parent := by
  have hlisted : (known.anchors.find? (·.name == anchor.name)).isSome :=
    List.find?_isSome.mpr ⟨anchor, hanchor, beq_self_eq_true _⟩
  obtain ⟨other, hfound⟩ := Option.isSome_iff_exists.mp hlisted
  have hname : other.name = anchor.name := by simpa using List.find?_some hfound
  have hother := h.anchors other (List.mem_of_find?_eq_some hfound)
  rw [hname, h.anchors anchor hanchor, Option.some.injEq, Expr.anchor.injEq] at hother
  rw [Classification.parentOf, hfound, hother.2]
  rfl

/-- The climb ends, with the answer that is found by going down the list. -/
theorem answers_iff (h : analysis.Classified done known) {inner : String}
    (hinner : inner ∈ known.anchors.map (·.name)) {ancestor : String} {answer : Bool} :
    known.Answers ancestor inner answer ↔ answer = encloses ancestor known.anchors inner := by
  have hascends : known.Answers ancestor inner (encloses ancestor known.anchors inner) :=
    ascends_encloses h.nested (fun _ hanchor => h.parentOf_eq hanchor) hinner ancestor
  exact ⟨fun hanswer => hanswer.unique hascends, fun heq => heq ▸ hascends⟩

theorem answers_true_iff (h : analysis.Classified done known) {inner : String}
    (hinner : inner ∈ known.anchors.map (·.name)) {ancestor : String} :
    known.Answers ancestor inner true ↔ analysis.Encloses ancestor inner := by
  rw [h.answers_iff hinner, eq_comm, encloses_iff h.nested h.anchors hinner]

variable {references : List String}

/-- What is asked about is the anchor of the root of a reference, so it is classified. -/
theorem mem_anchors_of_asks (h : analysis.Classified done known)
    (hchildren : ∀ reference ∈ references, reference ∈ done) {constant ancestor inner : String}
    (hasks : known.Asks constant references ancestor inner) :
    inner ∈ known.anchors.map (·.name) := by
  cases hasks with
  | @kept merged _ _ _ _ _ _ hsplit hcurrent _ _ =>
      have hmerged : ∀ reference ∈ merged, reference ∈ done := fun reference hmem =>
        hchildren reference (by simp [hsplit, hmem])
      obtain ⟨hkept, _⟩ := mergeReferences_covers h.nested h.anchors
        (fun reference hmem => h.listed (hmerged reference hmem)) hcurrent
      rcases hkept with heq | ⟨reference, hmem, heq⟩
      · cases heq
      · exact h.mem_anchors (hmerged reference hmem) heq.symm
  | incoming hsplit _ hincoming _ _ =>
      exact h.mem_anchors (hchildren _ (by simp [hsplit])) hincoming

/-- The roots of the references of a constant, one of which encloses another one or is the same. -/
theorem isPartialOrder (h : analysis.Classified done known)
    (hchildren : ∀ reference ∈ references, reference ∈ done)
    (hacyclic : ∀ name, ¬ analysis.graph.OnCycle name) :
    IsPartialOrder {root // ∃ reference ∈ references, known.root reference = root}
      fun outer inner => known.EqualOrEncloses outer inner := by
  have hlisted : ∀ {a : String} {p : Option String},
      (∃ reference ∈ references, known.root reference = .anchor a p) →
      a ∈ known.anchors.map (·.name) ∧ ∃ id, analysis.expr? a = some (.anchor id p) := by
    rintro a p ⟨reference, hmem, hroot⟩
    have hdone := hchildren reference hmem
    exact ⟨h.mem_anchors hdone hroot, (h.hasRoot hdone).anchor a p hroot⟩
  refine { refl := ?_, trans := ?_, antisymm := ?_ }
  · rintro ⟨root, _⟩
    cases root with
    | constant => exact .constant
    | anchor a p => exact .equal
  · rintro ⟨outer, _⟩ ⟨middle, hmiddle⟩ ⟨inner, hinner⟩ habove hbelow
    cases habove with
    | constant => exact hbelow
    | equal =>
        cases hbelow with
        | equal => exact .equal
        | encloses hanswer => exact .encloses hanswer
    | encloses habove =>
        cases hbelow with
        | equal => exact .encloses habove
        | encloses hbelow =>
            have hmiddle := (hlisted hmiddle).1
            have hinner := (hlisted hinner).1
            rw [h.answers_true_iff hmiddle] at habove
            rw [h.answers_true_iff hinner] at hbelow
            exact .encloses ((h.answers_true_iff hinner).mpr (habove.trans hbelow))
  · rintro ⟨outer, houter⟩ ⟨inner, hinner⟩ habove hbelow
    apply Subtype.ext
    cases habove with
    | constant => rfl
    | equal =>
        obtain ⟨id, hexpr⟩ := (hlisted houter).2
        obtain ⟨id', hexpr'⟩ := (hlisted hinner).2
        cases hexpr.symm.trans hexpr'
        rfl
    | encloses habove =>
        rw [h.answers_true_iff (hlisted hinner).1] at habove
        cases hbelow with
        | equal => exact absurd habove.leads (hacyclic _)
        | encloses hbelow =>
            rw [h.answers_true_iff (hlisted houter).1] at hbelow
            exact absurd (Encloses.leads (habove.trans hbelow)) (hacyclic _)

/-- What the references of a constant are merged to, if they are, is the root of the constant. So
the outcome is a matter of the class, and not of the order in which they are merged. -/
theorem mergeReferences_eq_ok (h : analysis.Classified done known)
    (hplain : ¬ analysis.IsAnchor name) (hacyclic : ∀ name, ¬ analysis.graph.OnCycle name)
    (hsame : ∀ child, child ∈ references ↔ child ∈ analysis.graph.next name)
    (hchildren : ∀ child ∈ references, child ∈ done) {root : Root} :
    known.mergeReferences name references = .ok root ↔ analysis.HasRoot name root := by
  have hrooted : ∀ {other}, known.mergeReferences name references = .ok other →
      analysis.HasRoot name other := h.hasRoot_of_mergeReferences hplain hsame hchildren
  refine ⟨hrooted, fun hroot => ?_⟩
  cases hmerge : known.mergeReferences name references with
  | ok other => rw [hroot.unique hacyclic (hrooted hmerge)]
  | error error =>
      obtain ⟨_, _, _, hdiverges⟩ := h.diverges_of_mergeReferences
        (fun child hchild => (hsame child).mp hchild) hchildren hmerge
      exact absurd hroot.readsChain hdiverges.not_readsChain

end Analysis.Classified

/-- Two declarations of one constant by one action, on the same operands in some order. -/
structure Declaration.Rearranges (declaration other : Declaration) : Prop where
  name : declaration.name = other.name
  action : declaration.action = other.action
  operands : declaration.operands.Perm other.operands

theorem Declaration.Rearranges.symm {declaration other : Declaration}
    (h : declaration.Rearranges other) : other.Rearranges declaration :=
  ⟨h.name.symm, h.action.symm, h.operands.symm⟩

namespace Expr

/-- The id and the parent of an anchor are what is given as such, at whatever place. -/
theorem mem_of_anchorParts {id parent id' parent' : Option String} {operands : List Operand}
    (h : anchorParts id parent operands = .ok (id', parent')) :
    (∀ text, id' = some text ↔ id = some text ∨ .string text ∈ operands) ∧
    ∀ name, parent' = some name ↔ parent = some name ∨ .ref name ∈ operands := by
  fun_induction anchorParts id parent operands with
  | case1 id parent =>
      cases h
      simp
  | case2 parent id rest ih => simpa [eq_comm] using ih h
  | case3 id parent rest ih => simpa [eq_comm] using ih h
  | case4 => cases h

theorem anchorParts_perm {operands operands' : List Operand} (hperm : operands.Perm operands')
    {parts parts' : Option String × Option String}
    (h : anchorParts none none operands = .ok parts)
    (h' : anchorParts none none operands' = .ok parts') : parts = parts' := by
  obtain ⟨hid, hparent⟩ := mem_of_anchorParts h
  obtain ⟨hid', hparent'⟩ := mem_of_anchorParts h'
  refine Prod.ext (Option.ext fun text => ?_) (Option.ext fun name => ?_)
  · rw [hid, hid', hperm.mem_iff]
  · rw [hparent, hparent', hperm.mem_iff]

theorem anchor_of_rearranges {declaration other : Declaration}
    (hsame : declaration.Rearranges other) {id : String} {parent : Option String} {expr : Expr}
    (h : ofDeclaration declaration = .ok (.anchor id parent))
    (h' : ofDeclaration other = .ok expr) : expr = .anchor id parent := by
  obtain ⟨action, haction, hparsed⟩ := ofOperands_of_declaration h
  obtain ⟨action', haction', hparsed'⟩ := ofOperands_of_declaration h'
  rw [← hsame.action, haction, Option.some.injEq] at haction'
  obtain rfl : Action.anchor = action := (references_of_ofOperands hparsed).2
  subst haction'
  obtain ⟨parts, hparts, heq⟩ := map_eq_ok.mp hparsed
  obtain ⟨parts', hparts', rfl⟩ := map_eq_ok.mp hparsed'
  rw [← hsame.name, ← anchorParts_perm hsame.operands hparts hparts', heq]

end Expr

namespace ClassDeclarations

open Analysis

variable {declarations others : ClassDeclarations} {imported imported' : AnchorTable}

theorem expr?_of_rearranged
    (h : List.Forall₂ Declaration.Rearranges declarations.constants others.constants)
    (hread : declarations.Obeys imported .declarations)
    (hread' : others.Obeys imported' .declarations) {name : String} {expr : Expr}
    (hexpr : (declarations.draft imported).expr? name = some expr) :
    ∃ expr', (others.draft imported').expr? name = some expr' ∧
      (∀ id parent, expr = .anchor id parent → expr' = .anchor id parent) ∧
      expr.references.Perm expr'.references := by
  rw [← mem_constants_iff (draft_names_nodup hread)] at hexpr
  obtain ⟨declaration, hmem, rfl, hparsed⟩ := mem_draft_constants.mp hexpr
  obtain ⟨hlength, hget⟩ := List.forall₂_iff_get.mp h
  obtain ⟨i, hi, rfl⟩ := List.getElem_of_mem hmem
  have hsame := hget i hi (hlength ▸ hi)
  have hother := List.getElem_mem (hlength ▸ hi)
  obtain ⟨expr', hparsed'⟩ := hread'.2 _ hother
  refine ⟨expr', ?_, ?_, ?_⟩
  · rw [← mem_constants_iff (draft_names_nodup hread')]
    exact mem_draft_constants.mpr ⟨_, hother, hsame.name.symm, hparsed'⟩
  · rintro id parent rfl
    exact Expr.anchor_of_rearranges hsame hparsed hparsed'
  · rw [(Expr.references_of_declaration hparsed).1, (Expr.references_of_declaration hparsed').1]
    exact hsame.operands.filterMap Operand.reference?

theorem anchor_of_rearranged
    (h : List.Forall₂ Declaration.Rearranges declarations.constants others.constants)
    (hread : declarations.Obeys imported .declarations)
    (hread' : others.Obeys imported' .declarations) {name id : String} {parent : Option String}
    (hexpr : (declarations.draft imported).expr? name = some (.anchor id parent)) :
    (others.draft imported').expr? name = some (.anchor id parent) := by
  obtain ⟨_, hexpr', hanchor, _⟩ := expr?_of_rearranged h hread hread' hexpr
  rw [hexpr', hanchor id parent rfl]

theorem mem_next_of_rearranged
    (h : List.Forall₂ Declaration.Rearranges declarations.constants others.constants)
    (hread : declarations.Obeys imported .declarations)
    (hread' : others.Obeys imported' .declarations) {name child : String}
    (hchild : child ∈ (declarations.draft imported).graph.next name) :
    child ∈ (others.draft imported').graph.next name := by
  obtain ⟨_, hexpr⟩ := Option.isSome_iff_exists.mp (contains_of_next hchild)
  obtain ⟨_, hexpr', _, hreferences⟩ := expr?_of_rearranged h hread hread' hexpr
  rw [next_of_expr hexpr] at hchild
  rw [next_of_expr hexpr']
  exact hreferences.subset hchild

/-- What is declared with operands in another order refers to the same, as long as it can be
read. -/
theorem sameReferences_of_rearranged
    (h : List.Forall₂ Declaration.Rearranges declarations.constants others.constants)
    (hread : declarations.Obeys imported .declarations)
    (hread' : others.Obeys imported' .declarations) :
    SameReferences (declarations.draft imported) (others.draft imported') := by
  have hback := List.Forall₂.flip (h.imp fun _ _ hsame => hsame.symm)
  constructor
  · intro name id parent
    exact ⟨anchor_of_rearranged h hread hread', anchor_of_rearranged hback hread' hread⟩
  · intro name child
    exact ⟨mem_next_of_rearranged h hread hread', mem_next_of_rearranged hback hread' hread⟩

end ClassDeclarations

namespace ClassDeclarations

open Analysis

variable {declarations : ClassDeclarations} {imported : AnchorTable} {name : String}
  {references : List String} {known : Classification}

/-- An analysis that comes to merge the roots of the references of a constant. All checks before the
classification have passed, and so have the constants before this one. -/
inductive Arrives (declarations : ClassDeclarations) (imported : AnchorTable) (name : String)
    (references : List String) (known : Classification) : Prop where
  | intro {anchors : AnchorTable} {constants : List Constant} {order done rest : List String}
      {constant : Constant}
      (hanchors : AnchorTable.ofList declarations.anchors = .ok anchors)
      (hconstants : declarations.constants.foldlM readDeclaration [] = .ok constants)
      (hresolved : unresolved? constants = none)
      (horder : (graphOf constants).order = .ok order)
      (hsplit : order = done ++ name :: rest)
      (hknown : classify constants anchors imported done = .ok known)
      (hfound : find? constants name = some constant)
      (hplain : ∀ id parent, constant.expr ≠ .anchor id parent)
      (hreferences : constant.expr.references = references) :
      Arrives declarations imported name references known

theorem Arrives.classified (h : declarations.Arrives imported name references known) :
    declarations.Obeys imported .declarations ∧
    ∃ done, (declarations.draft imported).Classified done known ∧
      (∀ reference ∈ references, reference ∈ done) ∧
      (declarations.draft imported).graph.next name = references ∧
      ¬ (declarations.draft imported).IsAnchor name ∧
      ∀ other, ¬ (declarations.draft imported).graph.OnCycle other := by
  obtain @⟨anchors, constants, order, done, rest, constant, hanchors, hconstants, hresolved, horder,
    hsplit, hknown, hfound, hplain, rfl⟩ := h
  obtain rfl : anchors = (declarations.draft imported).anchors :=
    congrArg AnchorTable.mk (AnchorTable.anchors_ofList hanchors)
  have hread : declarations.Obeys imported .declarations :=
    declarations_decides.passed constants hconstants
  obtain rfl : constants = (declarations.draft imported).constants :=
    constants_of_readDeclarations hconstants
  have hnames : (declarations.draft imported).names.Nodup := draft_names_nodup hread
  have hwired : (declarations.draft imported).graph.Wired := wired_of_resolved hresolved
  have hperm := Graph.order_perm hwired hnames horder
  have hsorted := Graph.order_sorted hwired horder
  have hexpr : (declarations.draft imported).expr? name = some constant.expr := by
    rw [expr?, hfound]
    rfl
  refine ⟨hread, done, ?_, ?_, next_of_expr hexpr, not_isAnchor_of_expr hexpr hplain, ?_⟩
  · exact classified_of_sorted (fun _ hname => contains_iff.mpr (hperm.mem_iff.mp hname))
      (hperm.nodup_iff.mpr hnames) hsorted hsplit hknown
  · rw [← next_of_expr hexpr]
    exact hsorted done name rest hsplit
  · exact (order_decides hnames hresolved).passed order (mapError_eq_ok.mpr horder)

/-- The merge of the roots of what a constant refers to, in an analysis that comes to it.

Each climb for which it asks whether one anchor constant encloses another ends, with the answer that
the classification takes, and finds exactly what lies one or more parents above. The roots to be
merged are partially ordered by it. What they are merged to, if they are not refused, does not
depend on their order, and neither does it depend on the order of the operands of any constant of
the class. -/
theorem merging_laws (h : declarations.Arrives imported name references known) :
    (∀ ancestor inner, known.Asks name references ancestor inner →
      (∀ answer, known.Answers ancestor inner answer ↔
        answer = encloses ancestor known.anchors inner) ∧
      (known.Answers ancestor inner true ↔
        (declarations.draft imported).Encloses ancestor inner)) ∧
    IsPartialOrder {root // ∃ reference ∈ references, known.root reference = root}
      (fun outer inner => known.EqualOrEncloses outer inner) ∧
    (∀ shuffled, references.Perm shuffled → (known.mergeReferences name shuffled).toOption =
      (known.mergeReferences name references).toOption) ∧
    ∀ (others : ClassDeclarations) (imported' : AnchorTable) references' known',
      List.Forall₂ Declaration.Rearranges declarations.constants others.constants →
      others.Arrives imported' name references' known' →
      (known'.mergeReferences name references').toOption =
        (known.mergeReferences name references).toOption := by
  obtain ⟨hread, done, hclassified, hchildren, rfl, hplain, hacyclic⟩ := h.classified
  have hrooted : ∀ root, known.mergeReferences name _ = .ok root ↔ _ := fun root =>
    hclassified.mergeReferences_eq_ok hplain hacyclic (fun _ => Iff.rfl) hchildren
  refine ⟨?_, hclassified.isPartialOrder hchildren hacyclic, ?_, ?_⟩
  · intro ancestor inner hasks
    have hinner := hclassified.mem_anchors_of_asks hchildren hasks
    exact ⟨fun _ => hclassified.answers_iff hinner, hclassified.answers_true_iff hinner⟩
  · intro shuffled hperm
    ext root
    rw [toOption_eq_some, toOption_eq_some, hrooted, hclassified.mergeReferences_eq_ok hplain
      hacyclic (fun _ => hperm.mem_iff.symm) fun _ hchild => hchildren _ (hperm.mem_iff.mpr hchild)]
  · intro others imported' references' known' hrearranged h'
    obtain ⟨hread', done', hclassified', hchildren', rfl, hplain', hacyclic'⟩ := h'.classified
    have hsame := sameReferences_of_rearranged hrearranged hread hread'
    ext root
    rw [toOption_eq_some, toOption_eq_some, hrooted, hclassified'.mergeReferences_eq_ok hplain'
      hacyclic' (fun _ => Iff.rfl) hchildren']
    exact ⟨hsame.symm.hasRoot, hsame.hasRoot⟩

/-- A class with three anchors, one under the other, and a constant that reads the outermost and the
innermost of them. -/
def chainedAnchors (ends : List Operand) : ClassDeclarations where
  descriptor := "Chained"
  anchors := [⟨"T", .ofClass, none⟩, ⟨"M", .ofMethod, some "T"⟩, ⟨"N", .ofMethod, some "M"⟩]
  constants := [
    { name := "ends", action := "list", operands := ends },
    { name := "N", action := "anchor", operands := [.ref "M"] },
    { name := "M", action := "anchor", operands := [.ref "T"] },
    { name := "T", action := "anchor" }]

/-- What is known of the anchors of this class once they are classified. -/
def chainedClassification : Classification where
  roots := [("N", .anchor "N" (some "M")), ("M", .anchor "M" (some "T")), ("T", .anchor "T" none)]
  anchors := [⟨"N", some "M", "N"⟩, ⟨"M", some "T", "M"⟩, ⟨"T", none, "T"⟩]

theorem merging_chainedAnchors :
    (chainedAnchors [.ref "T", .ref "N"]).Arrives .empty "ends" ["T", "N"] chainedClassification ∧
    (chainedAnchors [.ref "N", .ref "T"]).Arrives .empty "ends" ["N", "T"] chainedClassification ∧
    chainedClassification.Asks "ends" ["T", "N"] "T" "N" ∧
    chainedClassification.Answers "T" "N" true ∧
    ((chainedAnchors [.ref "T", .ref "N"]).draft .empty).Encloses "T" "N" ∧
    (chainedClassification.mergeReferences "ends" ["N", "T"]).toOption =
      some (.anchor "N" (some "M")) := by
  have harrives : (chainedAnchors [.ref "T", .ref "N"]).Arrives .empty "ends" ["T", "N"]
      chainedClassification :=
    @Arrives.intro _ _ _ _ _ _ _ ["T", "M", "N", "ends"] ["T", "M", "N"] [] _ rfl rfl rfl rfl rfl
      rfl rfl nofun rfl
  have hswapped : (chainedAnchors [.ref "N", .ref "T"]).Arrives .empty "ends" ["N", "T"]
      chainedClassification :=
    @Arrives.intro _ _ _ _ _ _ _ ["T", "M", "N", "ends"] ["T", "M", "N"] [] _ rfl rfl rfl rfl rfl
      rfl rfl nofun rfl
  have hrearranged : List.Forall₂ Declaration.Rearranges
      (chainedAnchors [.ref "T", .ref "N"]).constants
      (chainedAnchors [.ref "N", .ref "T"]).constants :=
    .cons ⟨rfl, rfl, .swap _ _ []⟩ (.cons ⟨rfl, rfl, .refl _⟩ (.cons ⟨rfl, rfl, .refl _⟩
      (.cons ⟨rfl, rfl, .refl _⟩ .nil)))
  obtain ⟨hanswers, _, _, hreordered⟩ := merging_laws harrives
  have hkept : chainedClassification.Asks "ends" ["T", "N"] "N" "T" :=
    @Classification.Asks.kept _ _ _ ["T"] [] "N" _ _ _ _ rfl rfl rfl (by decide)
  have hno : chainedClassification.Answers "N" "T" false := ((hanswers _ _ hkept).1 false).mpr rfl
  have hasks : chainedClassification.Asks "ends" ["T", "N"] "T" "N" :=
    @Classification.Asks.incoming _ _ _ ["T"] [] "N" _ _ _ _ rfl rfl rfl (by decide) hno
  have hanswer := ((hanswers _ _ hasks).1 true).mpr rfl
  exact ⟨harrives, hswapped, hasks, hanswer, (hanswers _ _ hasks).2.mp hanswer,
    hreordered _ _ _ _ hrearranged hswapped⟩

end ClassDeclarations

end Specialization
